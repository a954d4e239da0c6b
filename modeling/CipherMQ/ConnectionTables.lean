import CipherMQ.RateLimiter
import CipherMQ.TransitionSystem
import Mathlib.Algebra.BigOperators.Group.Finset.Basic

/-!
# The connection tables under admissions and releases

An admission adds one to the count of its address and one to the count of its
common name, and a release takes both back.  When every release belongs to an
admission that has not been released yet, the two tables are the counts of the
outstanding admissions, without an entry where there is nothing to count.
-/

namespace CipherMQ

namespace Connections

/-! ## Tables that count names -/

/-- How often each name occurs in a list, with no entry for other names. -/
def tally (names : List String) : KeyMap String Nat :=
  fun name =>
    if name ∈ names then some (names.count name) else none

theorem tally_getD (names : List String) (name : String) :
    (tally names name).getD 0 = names.count name := by
  unfold tally
  split
  · rfl
  · rename_i absent
    rw [List.count_eq_zero_of_not_mem absent]
    rfl

theorem tally_ne_zero (names : List String) (name : String) :
    tally names name ≠ some 0 := by
  unfold tally
  split
  · rename_i present
    have counted := List.count_pos_iff.mpr present
    simp only [ne_eq, Option.some.injEq]
    omega
  · simp

theorem tally_isSome (names : List String) (name : String) :
    (tally names name).isSome ↔ name ∈ names := by
  unfold tally
  split
  · simpa
  · simpa

theorem tally_perm {names others : List String} (same : names.Perm others) :
    tally names = tally others := by
  funext name
  unfold tally
  simp only [same.mem_iff, same.count_eq]

theorem increment_tally (names : List String) (name : String) :
    increment (tally names) name = tally (name :: names) := by
  funext other
  rw [increment, tally_getD, KeyMap.insert_apply]
  by_cases same : other = name
  · subst same
    simp [tally]
  · simp [tally, same, Ne.symm same]

theorem dec_tally (names : List String) (name : String) :
    dec (tally (name :: names)) name = tally names := by
  have counted : tally (name :: names) name = some (names.count name + 1) := by
    simp [tally]
  funext other
  rw [dec, counted]
  dsimp only
  by_cases same : other = name
  · subst same
    by_cases present : other ∈ names
    · have := List.count_pos_iff.mpr present
      rw [if_pos (by omega)]
      simp [tally, present]
    · have absent := List.count_eq_zero_of_not_mem present
      rw [if_neg (by omega)]
      simp [tally, present]
  · split
    · simp [tally, same, Ne.symm same]
    · simp [tally, same, Ne.symm same]

/-- The entries add up to the length of the list. -/
theorem sum_tally (names : List String) :
    ∑ name ∈ names.toFinset, (tally names name).getD 0 = names.length := by
  simp only [tally_getD]
  exact List.sum_toFinset_count_eq_length names

/-! ## Admissions and releases -/

/-- The tables, and the admissions not yet released. -/
structure Admissions where
  connections : Connections
  outstanding : List (String × String)

inductive LimiterCall where
  | checkConnection (cn ip : String)
  | releaseConnection (cn ip : String)
  deriving DecidableEq, Repr

namespace Admissions

def new : Admissions :=
  ⟨Connections.new, []⟩

/-- A call of the limiter.  Only an outstanding admission is released. -/
def step (config : RateLimitConfig) (admissions : Admissions) :
    LimiterCall → Option Admissions
  | .checkConnection cn ip =>
      let checked := admissions.connections.checkConnection config cn ip
      some ⟨checked.1,
        if checked.2 = .allowed then
          (cn, ip) :: admissions.outstanding
        else
          admissions.outstanding⟩
  | .releaseConnection cn ip =>
      if admissions.outstanding.contains (cn, ip) then
        some ⟨admissions.connections.releaseConnection cn ip,
          admissions.outstanding.erase (cn, ip)⟩
      else
        none

def fromIp (admissions : Admissions) (ip : String) : Nat :=
  admissions.outstanding.countP fun admission => admission.2 = ip

def ofCn (admissions : Admissions) (cn : String) : Nat :=
  admissions.outstanding.countP fun admission => admission.1 = cn

/-- The tables count the outstanding admissions, within the limits. -/
structure Counted (config : RateLimitConfig) (admissions : Admissions) :
    Prop where
  byIp : admissions.connections.byIp =
    tally (admissions.outstanding.map Prod.snd)
  byCn : admissions.connections.byCn =
    tally (admissions.outstanding.map Prod.fst)
  ipLimit : 0 < config.maxConnectionsPerIp → ∀ ip,
    (admissions.connections.byIp ip).getD 0 ≤ config.maxConnectionsPerIp
  cnLimit : 0 < config.maxConnectionsPerCn → ∀ cn,
    (admissions.connections.byCn cn).getD 0 ≤ config.maxConnectionsPerCn

variable {config : RateLimitConfig} {admissions after : Admissions}

theorem counted_new (config : RateLimitConfig) : Counted config new where
  byIp := rfl
  byCn := rfl
  ipLimit _ _ := Nat.zero_le _
  cnLimit _ _ := Nat.zero_le _

theorem Counted.admitted (counted : Counted config admissions)
    {cn ip : String}
    (allowed : (admissions.connections.checkConnection config cn ip).2 =
      .allowed) :
    Counted config
      ⟨(admissions.connections.checkConnection config cn ip).1,
        (cn, ip) :: admissions.outstanding⟩ := by
  have free := (checkConnection_allowed_iff _ _ _ _).mp allowed
  rw [checkConnection_allowed allowed]
  constructor
  case byIp =>
    rw [List.map_cons, ← increment_tally, ← counted.byIp]
  case byCn =>
    rw [List.map_cons, ← increment_tally, ← counted.byCn]
  case ipLimit =>
    intro limited other
    have below := counted.ipLimit limited other
    rw [increment_getD]
    split
    · rename_i same
      rw [same]
      exact free.1 limited
    · exact below
  case cnLimit =>
    intro limited other
    have below := counted.cnLimit limited other
    rw [increment_getD]
    split
    · rename_i same
      rw [same]
      exact free.2 limited
    · exact below

/-- An outstanding admission is one of those counted under its name. -/
theorem tally_outstanding {outstanding : List (String × String)}
    {admission : String × String} (isOutstanding : admission ∈ outstanding)
    (name : String × String → String) :
    tally (outstanding.map name) =
      tally (name admission :: (outstanding.erase admission).map name) :=
  tally_perm ((List.perm_cons_erase isOutstanding).map name)

theorem Counted.released (counted : Counted config admissions)
    {cn ip : String} (isOutstanding : (cn, ip) ∈ admissions.outstanding) :
    Counted config
      ⟨admissions.connections.releaseConnection cn ip,
        admissions.outstanding.erase (cn, ip)⟩ := by
  have fewer := fun name : String × String → String =>
    (List.erase_sublist (a := (cn, ip)) (l := admissions.outstanding)).map name
  have byIp : dec admissions.connections.byIp ip =
      tally ((admissions.outstanding.erase (cn, ip)).map Prod.snd) := by
    rw [counted.byIp, tally_outstanding isOutstanding, dec_tally]
  have byCn : dec admissions.connections.byCn cn =
      tally ((admissions.outstanding.erase (cn, ip)).map Prod.fst) := by
    rw [counted.byCn, tally_outstanding isOutstanding, dec_tally]
  constructor
  case byIp => exact byIp
  case byCn => exact byCn
  case ipLimit =>
    intro limited other
    have below := counted.ipLimit limited other
    rw [counted.byIp, tally_getD] at below
    rw [releaseConnection, byIp, tally_getD]
    exact ((fewer Prod.snd).count_le other).trans below
  case cnLimit =>
    intro limited other
    have below := counted.cnLimit limited other
    rw [counted.byCn, tally_getD] at below
    rw [releaseConnection, byCn, tally_getD]
    exact ((fewer Prod.fst).count_le other).trans below

theorem Counted.step (counted : Counted config admissions)
    {call : LimiterCall} (stepTo : admissions.step config call = some after) :
    Counted config after := by
  cases call with
  | checkConnection cn ip =>
      simp only [Admissions.step, Option.some.injEq] at stepTo
      subst stepTo
      split
      · rename_i allowed
        exact counted.admitted allowed
      · rename_i refused
        rw [checkConnection_refused refused]
        exact counted
  | releaseConnection cn ip =>
      simp only [Admissions.step] at stepTo
      split at stepTo
      · rename_i isOutstanding
        rw [List.contains_iff_mem] at isOutstanding
        cases stepTo
        exact counted.released isOutstanding
      · cases stepTo

theorem counted_of_reachable
    (reached : Reachable (step config) new admissions) :
    Counted config admissions := by
  apply reached.invariant (Counted config) (counted_new config)
  intro before call after counted _ stepTo
  exact counted.step stepTo

theorem Counted.getD_byIp (counted : Counted config admissions)
    (ip : String) :
    (admissions.connections.byIp ip).getD 0 = admissions.fromIp ip := by
  rw [counted.byIp, tally_getD, List.count, List.countP_map, fromIp]
  rfl

theorem Counted.getD_byCn (counted : Counted config admissions)
    (cn : String) :
    (admissions.connections.byCn cn).getD 0 = admissions.ofCn cn := by
  rw [counted.byCn, tally_getD, List.count, List.countP_map, ofCn]
  rfl

/-- Both tables add up to the number of outstanding admissions. -/
theorem Counted.sums (counted : Counted config admissions) :
    ∃ ips cns : Finset String,
      (∀ ip, ip ∈ ips ↔ (admissions.connections.byIp ip).isSome) ∧
      (∀ cn, cn ∈ cns ↔ (admissions.connections.byCn cn).isSome) ∧
      ∑ ip ∈ ips, (admissions.connections.byIp ip).getD 0 =
        ∑ cn ∈ cns, (admissions.connections.byCn cn).getD 0 := by
  refine ⟨(admissions.outstanding.map Prod.snd).toFinset,
    (admissions.outstanding.map Prod.fst).toFinset, ?_, ?_, ?_⟩
  · intro ip
    rw [counted.byIp, tally_isSome, List.mem_toFinset]
  · intro cn
    rw [counted.byCn, tally_isSome, List.mem_toFinset]
  · rw [counted.byIp, counted.byCn, sum_tally, sum_tally, List.length_map,
      List.length_map]

/-- The tables after any admissions and releases: they count the outstanding
admissions and nothing else, they stay within the limits, and the next
connection is admitted exactly if both its counts are below theirs. -/
theorem connection_tables
    (reached : Reachable (step config) new admissions) :
    (∀ ip, (admissions.connections.byIp ip).getD 0 = admissions.fromIp ip ∧
      admissions.connections.byIp ip ≠ some 0) ∧
    (∀ cn, (admissions.connections.byCn cn).getD 0 = admissions.ofCn cn ∧
      admissions.connections.byCn cn ≠ some 0) ∧
    (∃ ips cns : Finset String,
      (∀ ip, ip ∈ ips ↔ (admissions.connections.byIp ip).isSome) ∧
      (∀ cn, cn ∈ cns ↔ (admissions.connections.byCn cn).isSome) ∧
      ∑ ip ∈ ips, (admissions.connections.byIp ip).getD 0 =
        ∑ cn ∈ cns, (admissions.connections.byCn cn).getD 0) ∧
    (0 < config.maxConnectionsPerIp → ∀ ip,
      (admissions.connections.byIp ip).getD 0 ≤
        config.maxConnectionsPerIp) ∧
    (0 < config.maxConnectionsPerCn → ∀ cn,
      (admissions.connections.byCn cn).getD 0 ≤
        config.maxConnectionsPerCn) ∧
    (∀ cn ip,
      (admissions.connections.checkConnection config cn ip).2 = .allowed ↔
        (0 < config.maxConnectionsPerIp →
          (admissions.connections.byIp ip).getD 0 <
            config.maxConnectionsPerIp) ∧
        (0 < config.maxConnectionsPerCn →
          (admissions.connections.byCn cn).getD 0 <
            config.maxConnectionsPerCn)) ∧
    (∀ cn ip,
      (admissions.connections.checkConnection config cn ip).2 ≠ .allowed →
        (admissions.connections.checkConnection config cn ip).1 =
          admissions.connections) := by
  have counted := counted_of_reachable reached
  refine ⟨?_, ?_, counted.sums, counted.ipLimit, counted.cnLimit, ?_, ?_⟩
  · intro ip
    refine ⟨counted.getD_byIp ip, ?_⟩
    rw [counted.byIp]
    exact tally_ne_zero _ ip
  · intro cn
    refine ⟨counted.getD_byCn cn, ?_⟩
    rw [counted.byCn]
    exact tally_ne_zero _ cn
  · intro cn ip
    exact checkConnection_allowed_iff config admissions.connections cn ip
  · intro cn ip refused
    exact checkConnection_refused refused

def sharedAddress : List LimiterCall :=
  [.checkConnection "sender_1" "10.0.0.1",
    .checkConnection "sender_1" "10.0.0.1",
    .checkConnection "receiver_1" "10.0.0.1",
    .releaseConnection "sender_1" "10.0.0.1"]

theorem connection_tables_sharedAddress :
    ∃ admissions, Reachable (step ⟨2, 2⟩) new admissions ∧
      admissions.outstanding = [("sender_1", "10.0.0.1")] ∧
      (admissions.connections.byIp "10.0.0.1").getD 0 =
        admissions.fromIp "10.0.0.1" := by
  have ran : (executeWhile (step ⟨2, 2⟩) (fun _ _ => True) new
      sharedAddress).map outstanding = some [("sender_1", "10.0.0.1")] := by
    decide +kernel
  obtain ⟨admissions, reached, isOutstanding⟩ :=
    exists_reachableWhile_of_map ran
  exact ⟨admissions, reached, isOutstanding,
    ((connection_tables reached).1 "10.0.0.1").1⟩

end Admissions

end Connections

end CipherMQ
