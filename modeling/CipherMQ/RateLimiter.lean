import CipherMQ.KeyMap

/-!
# The connection limits

The limiter counts connections per address and per common name and refuses a
connection whose count has reached a configured maximum.  A maximum of zero
means no limit.
-/

namespace CipherMQ

structure RateLimitConfig where
  maxConnectionsPerIp : Nat
  maxConnectionsPerCn : Nat
  deriving DecidableEq, Repr

inductive RateLimitResult where
  | allowed
  | rateLimited
  | connectionLimit
  deriving DecidableEq, Repr

def RateLimitResult.isAllowed (result : RateLimitResult) : Bool :=
  result = .allowed

structure Connections where
  byIp : KeyMap String Nat
  byCn : KeyMap String Nat

namespace Connections

def new : Connections :=
  ⟨KeyMap.empty, KeyMap.empty⟩

def increment (counts : KeyMap String Nat) (key : String) :
    KeyMap String Nat :=
  counts.insert key ((counts key).getD 0 + 1)

def checkConnection (config : RateLimitConfig) (connections : Connections)
    (cn ip : String) : Connections × RateLimitResult :=
  if 0 < config.maxConnectionsPerIp ∧
      config.maxConnectionsPerIp ≤ (connections.byIp ip).getD 0 then
    (connections, .connectionLimit)
  else if 0 < config.maxConnectionsPerCn ∧
      config.maxConnectionsPerCn ≤ (connections.byCn cn).getD 0 then
    (connections, .connectionLimit)
  else
    (⟨increment connections.byIp ip, increment connections.byCn cn⟩, .allowed)

def dec (counts : KeyMap String Nat) (key : String) : KeyMap String Nat :=
  match counts key with
  | some count =>
      if 1 < count then
        counts.insert key (count - 1)
      else
        counts.remove key
  | none => counts

def releaseConnection (connections : Connections) (cn ip : String) :
    Connections :=
  ⟨dec connections.byIp ip, dec connections.byCn cn⟩

@[simp]
theorem increment_getD (counts : KeyMap String Nat) (key other : String) :
    (increment counts key other).getD 0 =
      (counts other).getD 0 + if other = key then 1 else 0 := by
  by_cases same : other = key
  · subst same
    simp [increment]
  · simp [increment, same]

theorem checkConnection_allowed {config : RateLimitConfig}
    {connections : Connections} {cn ip : String}
    (allowed : (checkConnection config connections cn ip).2 = .allowed) :
    (checkConnection config connections cn ip).1 =
      ⟨increment connections.byIp ip, increment connections.byCn cn⟩ := by
  unfold checkConnection at allowed ⊢
  split
  · rename_i full
    simp [full] at allowed
  · rename_i ipFree
    rw [if_neg ipFree] at allowed
    split
    · rename_i full
      simp [full] at allowed
    · rfl

/-- A connection is admitted exactly if neither count has reached its
maximum. -/
theorem checkConnection_allowed_iff (config : RateLimitConfig)
    (connections : Connections) (cn ip : String) :
    (checkConnection config connections cn ip).2 = .allowed ↔
      (0 < config.maxConnectionsPerIp →
        (connections.byIp ip).getD 0 < config.maxConnectionsPerIp) ∧
      (0 < config.maxConnectionsPerCn →
        (connections.byCn cn).getD 0 < config.maxConnectionsPerCn) := by
  unfold checkConnection
  split
  · simp only [reduceCtorEq, false_iff]
    omega
  · split
    · simp only [reduceCtorEq, false_iff]
      omega
    · simp only [true_iff]
      omega

theorem checkConnection_refused {config : RateLimitConfig}
    {connections : Connections} {cn ip : String}
    (refused : (checkConnection config connections cn ip).2 ≠ .allowed) :
    (checkConnection config connections cn ip).1 = connections := by
  unfold checkConnection at refused ⊢
  split
  · rfl
  · rename_i ipFree
    rw [if_neg ipFree] at refused
    split
    · rfl
    · rename_i cnFree
      rw [if_neg cnFree] at refused
      exact absurd rfl refused

theorem checkConnection_of_uncounted (config : RateLimitConfig)
    {connections : Connections} {cn ip : String}
    (ipUncounted : (connections.byIp ip).getD 0 = 0)
    (cnUncounted : (connections.byCn cn).getD 0 = 0) :
    (checkConnection config connections cn ip).2 = .allowed := by
  unfold checkConnection
  rw [ipUncounted, cnUncounted, if_neg (by omega), if_neg (by omega)]

end Connections

end CipherMQ
