import Mathlib.Logic.Function.Basic
import Mathlib.Data.List.Nodup
import Mathlib.Data.List.Perm.Basic

/-!
# Keyed maps with optional entries

A map from keys to optional values, with the handful of operations that a
shared hash map offers: reading an entry, inserting, removing, inserting a
default under a missing key and rewriting the value under a present one.  Two
maps with the same entries are equal, so results about states built from such
maps can be stated as equalities.
-/

namespace CipherMQ

/-- A map read through its lookup function. -/
abbrev KeyMap (Key Value : Type*) :=
  Key → Option Value

namespace KeyMap

variable {Key Value : Type*}

def empty : KeyMap Key Value :=
  fun _ => none

@[simp]
theorem empty_apply (key : Key) : (empty : KeyMap Key Value) key = none :=
  rfl

def containsKey (map : KeyMap Key Value) (key : Key) : Bool :=
  (map key).isSome

@[simp]
theorem containsKey_eq (map : KeyMap Key Value) (key : Key) :
    map.containsKey key = (map key).isSome :=
  rfl

/-! ## Entries under distinct keys -/

theorem lookup_eq_some_iff [BEq Key] [LawfulBEq Key]
    {entries : List (Key × Value)} (distinct : (entries.map Prod.fst).Nodup)
    (key : Key) (value : Value) :
    entries.lookup key = some value ↔ (key, value) ∈ entries := by
  induction entries with
  | nil => simp
  | cons entry entries ih =>
      rw [List.map_cons, List.nodup_cons] at distinct
      rw [List.lookup_cons, List.mem_cons]
      by_cases same : key = entry.1
      · subst same
        have absent : (entry.1, value) ∉ entries := fun isMember =>
          distinct.1 (List.mem_map.mpr ⟨_, isMember, rfl⟩)
        simp only [beq_self_eq_true, Option.some.injEq, absent, or_false]
        constructor
        · rintro rfl
          rfl
        · rintro isEntry
          rw [← isEntry]
      · have different : (key, value) ≠ entry := fun isEntry =>
          same (congrArg Prod.fst isEntry)
        simp [beq_false_of_ne same, different, ih distinct.2]

theorem lookup_perm [BEq Key] [LawfulBEq Key]
    {first second : List (Key × Value)} (same : first.Perm second)
    (distinct : (first.map Prod.fst).Nodup) (key : Key) :
    first.lookup key = second.lookup key := by
  have distinctSecond : (second.map Prod.fst).Nodup :=
    (same.map Prod.fst).nodup_iff.mp distinct
  apply Option.ext
  intro value
  rw [lookup_eq_some_iff distinct, lookup_eq_some_iff distinctSecond,
    same.mem_iff]

/-! ## Operations -/

variable [DecidableEq Key]

def insert (map : KeyMap Key Value) (key : Key) (value : Value) :
    KeyMap Key Value :=
  fun other => if other = key then some value else map other

def remove (map : KeyMap Key Value) (key : Key) : KeyMap Key Value :=
  fun other => if other = key then none else map other

def orInsert (map : KeyMap Key Value) (key : Key) (value : Value) :
    KeyMap Key Value :=
  map.insert key ((map key).getD value)

def modify (map : KeyMap Key Value) (key : Key) (update : Value → Value) :
    KeyMap Key Value :=
  fun other => if other = key then (map other).map update else map other

@[simp]
theorem insert_apply (map : KeyMap Key Value) (key other : Key)
    (value : Value) :
    map.insert key value other =
      if other = key then some value else map other :=
  rfl

@[simp]
theorem remove_apply (map : KeyMap Key Value) (key other : Key) :
    map.remove key other = if other = key then none else map other :=
  rfl

@[simp]
theorem orInsert_apply (map : KeyMap Key Value) (key other : Key)
    (value : Value) :
    map.orInsert key value other =
      if other = key then some ((map key).getD value) else map other :=
  rfl

@[simp]
theorem modify_apply (map : KeyMap Key Value) (key other : Key)
    (update : Value → Value) :
    map.modify key update other =
      if other = key then (map other).map update else map other :=
  rfl

theorem insert_self (map : KeyMap Key Value) (key : Key) (value : Value) :
    map.insert key value key = some value := by
  simp

theorem insert_insert (map : KeyMap Key Value) (key : Key)
    (old new : Value) :
    (map.insert key old).insert key new = map.insert key new := by
  funext other
  by_cases same : other = key
  · simp [same]
  · simp [same]

/-- The map with the listed entries.  A later entry replaces an earlier one of
the same key. -/
def ofEntries (entries : List (Key × Value)) : KeyMap Key Value :=
  entries.foldl (fun map entry => map.insert entry.1 entry.2) empty

theorem ofEntries_apply [BEq Key] [LawfulBEq Key]
    {entries : List (Key × Value)} (distinct : (entries.map Prod.fst).Nodup)
    (key : Key) : ofEntries entries key = entries.lookup key := by
  have fromMap : ∀ map : KeyMap Key Value,
      entries.foldl (fun map entry => map.insert entry.1 entry.2) map key =
        (entries.lookup key).or (map key) := by
    induction entries with
    | nil => simp
    | cons entry entries ih =>
        intro map
        rw [List.map_cons, List.nodup_cons] at distinct
        rw [List.foldl_cons, ih distinct.2, List.lookup_cons]
        by_cases same : key = entry.1
        · subst same
          have absent : entries.lookup entry.1 = none := by
            rw [List.lookup_eq_none_iff]
            intro other isMember
            have different : entry.1 ≠ other.1 := by
              intro same
              exact distinct.1 (same ▸ List.mem_map_of_mem isMember)
            simpa using different
          simp [absent]
        · simp [beq_false_of_ne same, same]
  have started := fromMap empty
  rwa [empty_apply, Option.or_none] at started

end KeyMap

end CipherMQ
