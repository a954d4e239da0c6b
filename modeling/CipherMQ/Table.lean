import Mathlib.Data.List.Nodup

/-!
# Tables with a primary key

A table is a list of rows of which no two have the same key.  `upsert` is the
statement `INSERT … ON CONFLICT DO UPDATE` and `updateAll` an `UPDATE` that
leaves the key column alone.  Both are described by what a lookup returns
afterwards.
-/

namespace CipherMQ

/-- Rows with unique keys, in the order in which they were inserted. -/
structure Table {Row Key : Type*} (key : Row → Key) where
  rows : List Row
  unique : (rows.map key).Nodup

namespace Table

variable {Row Key : Type*} {key : Row → Key}

def empty : Table key :=
  ⟨[], List.nodup_nil⟩

def length (table : Table key) : Nat :=
  table.rows.length

def select (table : Table key) (condition : Row → Bool) : List Row :=
  table.rows.filter condition

def updateAll (table : Table key) (change : Row → Row)
    (keepsKey : ∀ row, key (change row) = key row) : Table key where
  rows := table.rows.map change
  unique := by
    have sameKeys : (table.rows.map change).map key = table.rows.map key := by
      rw [List.map_map]
      exact List.map_congr_left fun row _ => keepsKey row
    rw [sameKeys]
    exact table.unique

def keys (table : Table key) : List Key :=
  table.rows.map key

theorem keys_updateAll (table : Table key) (change : Row → Row)
    (keepsKey : ∀ row, key (change row) = key row) :
    (table.updateAll change keepsKey).keys = table.keys := by
  unfold keys updateAll
  rw [List.map_map]
  exact List.map_congr_left fun row _ => keepsKey row

variable [DecidableEq Key]

def lookup (table : Table key) (wanted : Key) : Option Row :=
  table.rows.find? fun row => key row = wanted

/-- Insert a row, or merge it into the row that has its key. -/
def mergeInto (key : Row → Key) (merge : Row → Row → Row) (row : Row) :
    List Row → List Row
  | [] => [row]
  | old :: rest =>
      if key old = key row then
        merge old row :: rest
      else
        old :: mergeInto key merge row rest

section Merge

variable {merge : Row → Row → Row}
  (keepsKey : ∀ old row, key old = key row → key (merge old row) = key row)

include keepsKey

theorem map_key_mergeInto (row : Row) (rows : List Row) :
    (mergeInto key merge row rows).map key =
      if key row ∈ rows.map key then rows.map key
      else rows.map key ++ [key row] := by
  induction rows with
  | nil => simp [mergeInto]
  | cons old rest ih =>
      by_cases same : key old = key row
      · simp [mergeInto, same, keepsKey old row same]
      · simp only [mergeInto, same, if_false, List.map_cons, ih,
          List.mem_cons, Ne.symm same, false_or]
        split <;> simp

theorem nodup_mergeInto (row : Row) {rows : List Row}
    (unique : (rows.map key).Nodup) :
    ((mergeInto key merge row rows).map key).Nodup := by
  rw [map_key_mergeInto keepsKey]
  split
  · exact unique
  · rename_i absent
    rw [List.nodup_append]
    refine ⟨unique, List.nodup_singleton _, ?_⟩
    intro present member other isRow
    rw [List.mem_singleton] at isRow
    rintro rfl
    exact absent (isRow ▸ member)

theorem find?_mergeInto (row : Row) (rows : List Row) (wanted : Key) :
    (mergeInto key merge row rows).find? (fun row => key row = wanted) =
      if wanted = key row then
        some (((rows.find? fun old => key old = key row).map
          fun old => merge old row).getD row)
      else
        rows.find? fun old => key old = wanted := by
  induction rows with
  | nil =>
      by_cases isRow : wanted = key row
      · simp [mergeInto, isRow]
      · simp [mergeInto, isRow, Ne.symm isRow]
  | cons old rest ih =>
      by_cases same : key old = key row
      · have merged := keepsKey old row same
        by_cases isRow : wanted = key row
        · simp [mergeInto, same, isRow, merged]
        · simp [mergeInto, same, isRow, merged, Ne.symm isRow]
      · by_cases isRow : wanted = key row
        · subst isRow
          simpa [mergeInto, same] using ih
        · simp only [mergeInto, same, if_false, isRow] at ih ⊢
          simp only [List.find?_cons, ih]

end Merge

/-- Insert a row, or merge it into the row that has its key. -/
def upsert (table : Table key) (merge : Row → Row → Row)
    (keepsKey : ∀ old row, key old = key row → key (merge old row) = key row)
    (row : Row) : Table key :=
  ⟨mergeInto key merge row table.rows,
    nodup_mergeInto keepsKey row table.unique⟩

theorem lookup_upsert (table : Table key) {merge : Row → Row → Row}
    (keepsKey : ∀ old row, key old = key row → key (merge old row) = key row)
    (row : Row) (wanted : Key) :
    (table.upsert merge keepsKey row).lookup wanted =
      if wanted = key row then
        some (((table.lookup (key row)).map fun old => merge old row).getD row)
      else
        table.lookup wanted :=
  find?_mergeInto keepsKey row table.rows wanted

/-- A row that is already as it should be stays where it is. -/
theorem mergeInto_eq_self {merge : Row → Row → Row} {row old : Row}
    {rows : List Row} (found : (rows.find? fun old => key old = key row) =
      some old) (same : merge old row = old) :
    mergeInto key merge row rows = rows := by
  induction rows with
  | nil => cases found
  | cons first rest ih =>
      by_cases isOld : key first = key row
      · simp only [List.find?_cons, isOld, decide_true,
          Option.some.injEq] at found
        subst found
        simp [mergeInto, isOld, same]
      · simp only [List.find?_cons, isOld, decide_false] at found
        simp [mergeInto, isOld, ih found]

/-- An upsert has no effect exactly when the row is already there and merging
changes nothing. -/
theorem upsert_eq_self_iff (table : Table key) {merge : Row → Row → Row}
    (keepsKey : ∀ old row, key old = key row → key (merge old row) = key row)
    (row : Row) :
    table.upsert merge keepsKey row = table ↔
      ∃ old, table.lookup (key row) = some old ∧ merge old row = old := by
  constructor
  · intro unchanged
    have found := table.lookup_upsert keepsKey row (key row)
    rw [unchanged, if_pos rfl] at found
    cases isOld : table.lookup (key row) with
    | none =>
        rw [isOld] at found
        cases found
    | some old =>
        rw [isOld] at found
        exact ⟨old, rfl, (Option.some.inj found).symm⟩
  · rintro ⟨old, found, same⟩
    obtain ⟨rows, unique⟩ := table
    simp only [upsert, Table.mk.injEq]
    exact mergeInto_eq_self found same

@[simp]
theorem lookup_empty (wanted : Key) :
    (empty : Table key).lookup wanted = none :=
  rfl

@[simp]
theorem lookup_updateAll (table : Table key) (change : Row → Row)
    (keepsKey : ∀ row, key (change row) = key row) (wanted : Key) :
    (table.updateAll change keepsKey).lookup wanted =
      (table.lookup wanted).map change := by
  unfold lookup updateAll
  rw [List.find?_map]
  congr 2
  funext row
  simp [keepsKey]

theorem key_of_lookup {table : Table key} {wanted : Key} {row : Row}
    (found : table.lookup wanted = some row) : key row = wanted := by
  have matched := List.find?_some found
  simpa using matched

theorem mem_of_lookup {table : Table key} {wanted : Key} {row : Row}
    (found : table.lookup wanted = some row) : row ∈ table.rows :=
  List.mem_of_find?_eq_some found

theorem lookup_key_of_mem {table : Table key} {row : Row}
    (member : row ∈ table.rows) : table.lookup (key row) = some row := by
  have present : (table.lookup (key row)).isSome := by
    simp only [lookup, List.find?_isSome, decide_eq_true_eq]
    exact ⟨row, member, rfl⟩
  obtain ⟨found, isFound⟩ := Option.isSome_iff_exists.mp present
  have same : found = row := List.inj_on_of_nodup_map table.unique
    (mem_of_lookup isFound) member (key_of_lookup isFound)
  rw [isFound, same]

theorem mem_select_of_lookup {table : Table key} {wanted : Key} {row : Row}
    {condition : Row → Bool} (found : table.lookup wanted = some row)
    (holds : condition row = true) : row ∈ table.select condition :=
  List.mem_filter.mpr ⟨mem_of_lookup found, holds⟩

/-! ## Tables with the same rows -/

theorem keys_upsert (table : Table key) {merge : Row → Row → Row}
    (keepsKey : ∀ old row, key old = key row → key (merge old row) = key row)
    (row : Row) :
    (table.upsert merge keepsKey row).keys =
      if key row ∈ table.keys then table.keys
      else table.keys ++ [key row] :=
  map_key_mergeInto keepsKey row table.rows

theorem eq_of_find? {rows others : List Row}
    (unique : (rows.map key).Nodup)
    (sameKeys : rows.map key = others.map key)
    (sameRows : ∀ wanted, (rows.find? fun row => key row = wanted) =
      others.find? fun row => key row = wanted) :
    rows = others := by
  induction rows generalizing others with
  | nil => simpa using sameKeys.symm
  | cons row rest ih =>
      cases others with
      | nil => simp at sameKeys
      | cons other others =>
          simp only [List.map_cons, List.cons.injEq] at sameKeys
          obtain ⟨sameKey, sameRest⟩ := sameKeys
          have same : row = other := by
            simpa [sameKey] using sameRows (key row)
          subst same
          obtain ⟨isFirst, uniqueRest⟩ := List.nodup_cons.mp unique
          congr 1
          apply ih uniqueRest sameRest
          intro wanted
          by_cases isRow : key row = wanted
          · -- no later row has the key of the first one
            have absent : ∀ {rows : List Row}, wanted ∉ rows.map key →
                (rows.find? fun row => key row = wanted) = none := by
              intro rows notKey
              simp only [List.find?_eq_none, decide_eq_true_eq]
              intro found member isKey
              exact notKey (isKey ▸ List.mem_map_of_mem member)
            rw [isRow] at isFirst
            rw [absent isFirst, absent (sameRest ▸ isFirst)]
          · simpa [isRow] using sameRows wanted

/-- Tables are equal if they list the same keys and agree on every lookup. -/
theorem eq_of_lookup {table other : Table key}
    (sameKeys : table.keys = other.keys)
    (sameRows : ∀ wanted, table.lookup wanted = other.lookup wanted) :
    table = other := by
  obtain ⟨rows, unique⟩ := table
  obtain ⟨others, otherUnique⟩ := other
  have sameLists := eq_of_find? unique sameKeys sameRows
  subst sameLists
  rfl

theorem isSome_lookup_iff (table : Table key) (wanted : Key) :
    (table.lookup wanted).isSome ↔ wanted ∈ table.keys := by
  simp [lookup, keys, List.find?_isSome]

end Table

end CipherMQ
