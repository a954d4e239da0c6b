import Mathlib.Algebra.Order.Field.Basic
import Mathlib.Tactic.Linarith

/-!
# Token buckets

A bucket gains tokens at a constant rate up to its capacity, and every request
that is let through takes one.  However the requests are spread over time, at
most the capacity and what flows in during a window can be let through in it.

The account of a bucket lists the times of requests it has let through.  The
tokens left and the requests since some time are paid for together by the
capacity and the inflow since then.
-/

namespace CipherMQ

/-- A bucket with the tokens it held at the time `last`. -/
structure Bucket (K : Type*) where
  tokens : K
  last : K
  burst : K
  rps : K
  deriving DecidableEq, Repr

namespace Bucket

variable {K : Type*} [LinearOrder K]

/-! ## Counting requests in a window -/

def countWithin (times : List K) (start stop : K) : Nat :=
  times.countP fun time => start ≤ time ∧ time ≤ stop

theorem countWithin_append (times : List K) (time start stop : K) :
    countWithin (times ++ [time]) start stop =
      countWithin times start stop +
        if start ≤ time ∧ time ≤ stop then 1 else 0 := by
  simp [countWithin, List.countP_append, List.countP_singleton]

/-- A window that ends after the last request can be cut there. -/
theorem countWithin_of_past {times : List K} {last start stop : K}
    (past : ∀ time ∈ times, time ≤ last) (later : last ≤ stop) :
    countWithin times start stop = countWithin times start last := by
  apply List.countP_congr
  intro time isMember
  have isPast := past time isMember
  simp [isPast, isPast.trans later]

theorem countWithin_of_before {times : List K} {last start stop : K}
    (past : ∀ time ∈ times, time ≤ last) (before : last < start) :
    countWithin times start stop = 0 := by
  apply List.countP_eq_zero.mpr
  intro time isMember isWithin
  have isPast := past time isMember
  have isLater := (of_decide_eq_true isWithin).1
  exact absurd (isLater.trans isPast) (not_le.mpr before)

/-! ## Taking tokens -/

variable [Field K]

def new (burst rps now : K) : Bucket K :=
  ⟨burst, now, burst, rps⟩

/-- The tokens at a later time.  An earlier time counts as `last`. -/
def refilled (bucket : Bucket K) (now : K) : K :=
  min (bucket.tokens + max 0 (now - bucket.last) * bucket.rps) bucket.burst

def take (bucket : Bucket K) (now : K) : Bucket K × Bool :=
  let tokens := bucket.refilled now
  if 1 ≤ tokens then
    ({ bucket with tokens := tokens - 1, last := now }, true)
  else
    ({ bucket with tokens := tokens, last := now }, false)

theorem take_last (bucket : Bucket K) (now : K) :
    (bucket.take now).1.last = now := by
  unfold take
  dsimp only
  split <;> rfl

/-- A request takes one token if it is let through, and none otherwise. -/
theorem take_tokens (bucket : Bucket K) (now : K) :
    (bucket.take now).1.tokens +
        (if (bucket.take now).2 = true then 1 else 0) =
      bucket.refilled now := by
  unfold take
  dsimp only
  split
  · simp
  · simp

/-- A bucket with the given parameters between requests. -/
structure Level (burst rps : K) (bucket : Bucket K) : Prop where
  burst_eq : bucket.burst = burst
  rps_eq : bucket.rps = rps
  nonneg : 0 ≤ bucket.tokens
  le_burst : bucket.tokens ≤ burst

variable {burst rps : K} {bucket : Bucket K}

theorem level_new (burstNonneg : 0 ≤ burst) (rps now : K) :
    (new burst rps now).Level burst rps :=
  ⟨rfl, rfl, burstNonneg, le_refl burst⟩

theorem Level.refilled_le_burst (level : bucket.Level burst rps) (now : K) :
    bucket.refilled now ≤ burst := by
  rw [refilled, level.burst_eq]
  exact min_le_right _ _

variable [IsStrictOrderedRing K]

theorem Level.refilled_nonneg (level : bucket.Level burst rps)
    (rpsNonneg : 0 ≤ rps) (now : K) : 0 ≤ bucket.refilled now := by
  have inflow : 0 ≤ max 0 (now - bucket.last) * bucket.rps := by
    rw [level.rps_eq]
    exact mul_nonneg (le_max_left _ _) rpsNonneg
  apply le_min
  · exact add_nonneg level.nonneg inflow
  · rw [level.burst_eq]
    exact level.nonneg.trans level.le_burst

theorem Level.refilled_le (level : bucket.Level burst rps) {now : K}
    (later : bucket.last ≤ now) :
    bucket.refilled now ≤ bucket.tokens + rps * (now - bucket.last) := by
  have elapsed : max 0 (now - bucket.last) = now - bucket.last :=
    max_eq_right (sub_nonneg.mpr later)
  rw [refilled, elapsed, level.rps_eq, mul_comm]
  exact min_le_left _ _

theorem Level.take (level : bucket.Level burst rps) (rpsNonneg : 0 ≤ rps)
    (now : K) : (bucket.take now).1.Level burst rps := by
  have nonneg := level.refilled_nonneg rpsNonneg now
  have le_burst := level.refilled_le_burst now
  unfold Bucket.take
  dsimp only
  split
  · rename_i enough
    refine ⟨level.burst_eq, level.rps_eq, sub_nonneg.mpr enough, ?_⟩
    exact (sub_le_self _ zero_le_one).trans le_burst
  · exact ⟨level.burst_eq, level.rps_eq, nonneg, le_burst⟩

/-! ## The account of a bucket -/

/-- An account of a bucket that may not have been made yet. -/
structure Account (burst rps : K) (bucket : Option (Bucket K))
    (times : List K) : Prop where
  unused : bucket = none → times = []
  level : ∀ made ∈ bucket, made.Level burst rps
  past : ∀ made ∈ bucket, ∀ time ∈ times, time ≤ made.last
  paid : ∀ made ∈ bucket, ∀ start ≤ made.last,
    (countWithin times start made.last : K) + made.tokens ≤
      burst + rps * (made.last - start)
  within : ∀ start stop, start ≤ stop →
    (countWithin times start stop : K) ≤ burst + rps * (stop - start)

variable {slot : Option (Bucket K)} {times : List K} {now : K}

theorem account_empty (burstNonneg : 0 ≤ burst) (rpsNonneg : 0 ≤ rps) :
    Account burst rps none [] where
  unused _ := rfl
  level made isMade := by cases isMade
  past made isMade := by cases isMade
  paid made isMade := by cases isMade
  within start stop ordered := by
    have inflow := mul_nonneg rpsNonneg (sub_nonneg.mpr ordered)
    simpa [countWithin] using add_nonneg burstNonneg inflow

omit [IsStrictOrderedRing K] in
theorem Account.level_getD (account : Account burst rps slot times)
    (burstNonneg : 0 ≤ burst) (created : K) :
    (slot.getD (new burst rps created)).Level burst rps := by
  cases slot with
  | none => exact level_new burstNonneg rps created
  | some made => exact account.level made rfl

/-- What is in the bucket at the next request, and what was let through
before, are still paid for. -/
theorem Account.paid_refilled (account : Account burst rps slot times)
    (created : K) (burstNonneg : 0 ≤ burst) (rpsNonneg : 0 ≤ rps)
    (later : ∀ made ∈ slot, made.last ≤ now) {start : K}
    (started : start ≤ now) :
    (countWithin times start now : K) +
        (slot.getD (new burst rps created)).refilled now ≤
      burst + rps * (now - start) := by
  have inflow := mul_nonneg rpsNonneg (sub_nonneg.mpr started)
  have capped := (account.level_getD burstNonneg created).refilled_le_burst
    now
  cases slot with
  | none =>
      rw [account.unused rfl]
      simp only [countWithin, List.countP_nil, Nat.cast_zero, zero_add]
      linarith
  | some made =>
      have level := account.level made rfl
      have isLater := later made rfl
      have past := account.past made rfl
      simp only [Option.getD_some] at capped ⊢
      by_cases inWindow : start ≤ made.last
      · have paid := account.paid made rfl start inWindow
        have refilled := level.refilled_le isLater
        rw [countWithin_of_past past isLater]
        have split : rps * (now - start) =
            rps * (now - made.last) + rps * (made.last - start) := by
          rw [← mul_add, sub_add_sub_cancel]
        linarith
      · rw [countWithin_of_before past (not_le.mp inWindow)]
        rw [Nat.cast_zero, zero_add]
        linarith

/-- A request that is let through may be put on the account. -/
theorem Account.take (account : Account burst rps slot times)
    (created : K) (burstNonneg : 0 ≤ burst) (rpsNonneg : 0 ≤ rps)
    (later : ∀ made ∈ slot, made.last ≤ now) (recorded : Bool)
    (isGranted : recorded = true →
      ((slot.getD (new burst rps created)).take now).2 = true) :
    Account burst rps
      (some ((slot.getD (new burst rps created)).take now).1)
      (if recorded then times ++ [now] else times) := by
  have level := (account.level_getD burstNonneg created).take rpsNonneg now
  have last := (slot.getD (new burst rps created)).take_last now
  have spent := (slot.getD (new burst rps created)).take_tokens now
  have paidBefore : ∀ {start : K}, start ≤ now →
      (countWithin times start now : K) +
          (slot.getD (new burst rps created)).refilled now ≤
        burst + rps * (now - start) := fun started =>
    account.paid_refilled created burstNonneg rpsNonneg later started
  generalize (slot.getD (new burst rps created)).take now = taken at *
  have pastBefore : ∀ time ∈ times, time ≤ now := by
    intro time isMember
    cases slot with
    | none =>
        rw [account.unused rfl] at isMember
        cases isMember
    | some made =>
        exact (account.past made rfl time isMember).trans (later made rfl)
  have past : ∀ time ∈ (if recorded then times ++ [now] else times),
      time ≤ now := by
    intro time isMember
    cases recorded with
    | false => exact pastBefore time isMember
    | true =>
        rcases List.mem_append.mp isMember with old | isNow
        · exact pastBefore time old
        · exact le_of_eq (List.mem_singleton.mp isNow)
  have paid : ∀ start ≤ now,
      (countWithin (if recorded then times ++ [now] else times) start now :
          K) + taken.1.tokens ≤ burst + rps * (now - start) := by
    intro start started
    have before := paidBefore started
    cases recorded with
    | false =>
        have atMost : taken.1.tokens ≤ (if taken.2 = true then 1 else 0) +
            taken.1.tokens := by
          split <;> simp
        simp only [Bool.false_eq_true, if_false]
        linarith
    | true =>
        rw [if_pos (isGranted rfl)] at spent
        simp only [if_true, countWithin_append, started, le_refl, and_self,
          Nat.cast_add, Nat.cast_one]
        linarith
  constructor
  case unused =>
    intro isNone
    cases isNone
  case level =>
    rintro made ⟨⟩
    exact level
  case past =>
    rintro made ⟨⟩
    rw [last]
    exact past
  case paid =>
    rintro made ⟨⟩
    rw [last]
    exact paid
  case within =>
    intro start stop ordered
    by_cases ended : stop < now
    · -- The new request lies behind the window.
      have unchanged :
          countWithin (if recorded then times ++ [now] else times) start
              stop =
            countWithin times start stop := by
        cases recorded with
        | false => rfl
        | true =>
            simp [countWithin_append, not_le.mpr ended]
      rw [unchanged]
      exact account.within start stop ordered
    · have reaches := not_lt.mp ended
      by_cases started : start ≤ now
      · have paidNow := paid start started
        have nonneg := level.nonneg
        have inflow := mul_le_mul_of_nonneg_left
          (sub_le_sub_right reaches start) rpsNonneg
        rw [countWithin_of_past past reaches]
        linarith
      · have inflow := mul_nonneg rpsNonneg (sub_nonneg.mpr ordered)
        rw [countWithin_of_before past (not_le.mp started), Nat.cast_zero]
        exact add_nonneg burstNonneg inflow

end Bucket

end CipherMQ
