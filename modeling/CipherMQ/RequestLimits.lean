import CipherMQ.RateLimiter
import CipherMQ.TokenBucket
import Mathlib.Algebra.Order.Ring.Rat
import Mathlib.Data.List.Induction

/-!
# The limits on requests

Every request of a client takes a token from a bucket of the client, and a
publish takes one from a second bucket as well.  The buckets are made full at
the client's first request.  A publish that finds the second bucket empty is
refused after it has been charged to the first.

The arithmetic is that of exact rationals.  A request carries the readings of
the clock that it causes: one when a bucket is made and one when a token is
taken from it.
-/

namespace CipherMQ

structure RequestRates where
  globalRps : ℚ
  globalBurst : ℚ
  publishRps : ℚ
  publishBurst : ℚ
  deriving DecidableEq, Repr

structure RequestRates.Nonneg (rates : RequestRates) : Prop where
  globalRps : 0 ≤ rates.globalRps
  globalBurst : 0 ≤ rates.globalBurst
  publishRps : 0 ≤ rates.publishRps
  publishBurst : 0 ≤ rates.publishBurst

/-- A request with the readings of the clock made for it.  A reading that is
not made is not looked at. -/
structure RateRequest where
  cn : String
  isPublish : Bool
  globalCreated : ℚ
  globalNow : ℚ
  publishCreated : ℚ
  publishNow : ℚ
  deriving DecidableEq, Repr

structure RateLimiter where
  global : KeyMap String (Bucket ℚ)
  publish : KeyMap String (Bucket ℚ)

namespace RateLimiter

def new : RateLimiter :=
  ⟨KeyMap.empty, KeyMap.empty⟩

def takeToken (buckets : KeyMap String (Bucket ℚ)) (burst rps : ℚ)
    (cn : String) (created now : ℚ) : KeyMap String (Bucket ℚ) × Bool :=
  let taken := ((buckets cn).getD (Bucket.new burst rps created)).take now
  (buckets.insert cn taken.1, taken.2)

def check (rates : RequestRates) (limiter : RateLimiter)
    (request : RateRequest) : RateLimiter × RateLimitResult :=
  let global := takeToken limiter.global rates.globalBurst rates.globalRps
    request.cn request.globalCreated request.globalNow
  if global.2 then
    if request.isPublish then
      let publish := takeToken limiter.publish rates.publishBurst
        rates.publishRps request.cn request.publishCreated request.publishNow
      if publish.2 then
        (⟨global.1, publish.1⟩, .allowed)
      else
        (⟨global.1, publish.1⟩, .rateLimited)
    else
      (⟨global.1, limiter.publish⟩, .allowed)
  else
    (⟨global.1, limiter.publish⟩, .rateLimited)

/-- The limiter after a sequence of requests, and the answers given. -/
structure Served where
  limiter : RateLimiter
  answers : List (RateRequest × RateLimitResult)

def serve (rates : RequestRates) (served : Served) (request : RateRequest) :
    Served :=
  let checked := served.limiter.check rates request
  ⟨checked.1, served.answers ++ [(request, checked.2)]⟩

def serveAll (rates : RequestRates) (requests : List RateRequest) : Served :=
  requests.foldl (serve rates) ⟨new, []⟩

def Served.allowed (served : Served) (cn : String) : List RateRequest :=
  (served.answers.filter fun answer =>
    answer.1.cn = cn ∧ answer.2 = .allowed).map Prod.fst

def Served.allowedTimes (served : Served) (cn : String) : List ℚ :=
  (served.allowed cn).map RateRequest.globalNow

def Served.allowedPublishTimes (served : Served) (cn : String) : List ℚ :=
  ((served.allowed cn).filter RateRequest.isPublish).map
    RateRequest.publishNow

/-- The clock of a bucket does not go back from one request to the next. -/
def InOrder (requests : List RateRequest) : Prop :=
  requests.Pairwise fun earlier later =>
    earlier.globalNow ≤ later.globalNow ∧
      earlier.publishNow ≤ later.publishNow

instance (requests : List RateRequest) : Decidable (InOrder requests) :=
  inferInstanceAs (Decidable (List.Pairwise _ _))

variable {rates : RequestRates} {requests : List RateRequest}

theorem serveAll_append (rates : RequestRates) (requests : List RateRequest)
    (request : RateRequest) :
    serveAll rates (requests ++ [request]) =
      serve rates (serveAll rates requests) request := by
  rw [serveAll, List.foldl_append]
  rfl

/-! ## One request -/

/-- What a request does to the buckets: the global bucket is always charged,
the one for publishing only if the global one had a token.  Only a request
that got all its tokens is let through. -/
theorem check_cases (rates : RequestRates) (limiter : RateLimiter)
    (request : RateRequest) :
    ∃ publish answer,
      limiter.check rates request =
        (⟨(takeToken limiter.global rates.globalBurst rates.globalRps
          request.cn request.globalCreated request.globalNow).1, publish⟩,
          answer) ∧
      (answer = .allowed →
        (takeToken limiter.global rates.globalBurst rates.globalRps
          request.cn request.globalCreated request.globalNow).2 = true) ∧
      ((publish = limiter.publish ∧
          (answer = .allowed → request.isPublish = false)) ∨
        (publish = (takeToken limiter.publish rates.publishBurst
            rates.publishRps request.cn request.publishCreated
            request.publishNow).1 ∧ request.isPublish = true ∧
          (answer = .allowed →
            (takeToken limiter.publish rates.publishBurst rates.publishRps
              request.cn request.publishCreated request.publishNow).2 =
                true))) := by
  unfold check
  dsimp only
  split
  · rename_i granted
    split
    · rename_i isPublish
      split
      · rename_i published
        exact ⟨_, _, rfl, fun _ => granted,
          Or.inr ⟨rfl, isPublish, fun _ => published⟩⟩
      · exact ⟨_, _, rfl, by simp, Or.inr ⟨rfl, isPublish, by simp⟩⟩
    · rename_i notPublish
      exact ⟨_, _, rfl, fun _ => granted,
        Or.inl ⟨rfl, fun _ => by simpa using notPublish⟩⟩
  · exact ⟨_, _, rfl, by simp, Or.inl ⟨rfl, by simp⟩⟩

theorem takeToken_self (buckets : KeyMap String (Bucket ℚ))
    (burst rps : ℚ) (cn : String) (created now : ℚ) :
    (takeToken buckets burst rps cn created now).1 cn =
      some (((buckets cn).getD (Bucket.new burst rps created)).take now).1 :=
  KeyMap.insert_self _ _ _

theorem takeToken_other (buckets : KeyMap String (Bucket ℚ))
    (burst rps : ℚ) {cn other : String} (created now : ℚ)
    (different : other ≠ cn) :
    (takeToken buckets burst rps cn created now).1 other = buckets other := by
  simp [takeToken, different]

theorem takeToken_congr {buckets others : KeyMap String (Bucket ℚ)}
    (burst rps : ℚ) {cn : String} (created now : ℚ)
    (same : buckets cn = others cn) :
    (takeToken buckets burst rps cn created now).1 cn =
        (takeToken others burst rps cn created now).1 cn ∧
      (takeToken buckets burst rps cn created now).2 =
        (takeToken others burst rps cn created now).2 := by
  simp [takeToken, same]

/-! ## A client's own requests -/

def SameBuckets (cn : String) (limiter other : RateLimiter) : Prop :=
  limiter.global cn = other.global cn ∧ limiter.publish cn = other.publish cn

theorem sameBuckets_check_other {cn : String} {request : RateRequest}
    (rates : RequestRates) (limiter : RateLimiter)
    (different : request.cn ≠ cn) :
    SameBuckets cn (limiter.check rates request).1 limiter := by
  obtain ⟨publish, answer, checked, -, publishes⟩ :=
    check_cases rates limiter request
  rw [checked]
  refine ⟨takeToken_other _ _ _ _ _ (Ne.symm different), ?_⟩
  rcases publishes with ⟨rfl, -⟩ | ⟨rfl, -⟩
  · rfl
  · exact takeToken_other _ _ _ _ _ (Ne.symm different)

/-- The answer to a request depends on the client's buckets only. -/
theorem check_congr {limiter other : RateLimiter} {request : RateRequest}
    (rates : RequestRates) (same : SameBuckets request.cn limiter other) :
    SameBuckets request.cn (limiter.check rates request).1
        (other.check rates request).1 ∧
      (limiter.check rates request).2 = (other.check rates request).2 := by
  have global := takeToken_congr rates.globalBurst rates.globalRps
    request.globalCreated request.globalNow same.1
  have publish := takeToken_congr rates.publishBurst rates.publishRps
    request.publishCreated request.publishNow same.2
  unfold check
  dsimp only
  rw [global.2, publish.2]
  split
  · split
    · split
      · exact ⟨⟨global.1, publish.1⟩, rfl⟩
      · exact ⟨⟨global.1, publish.1⟩, rfl⟩
    · exact ⟨⟨global.1, same.2⟩, rfl⟩
  · exact ⟨⟨global.1, same.2⟩, rfl⟩

def Served.answersTo (served : Served) (cn : String) :
    List (RateRequest × RateLimitResult) :=
  served.answers.filter fun answer => answer.1.cn = cn

/-- Without the requests of other clients, a client finds the same buckets and
gets the same answers. -/
theorem serveAll_own (rates : RequestRates) (requests : List RateRequest)
    (cn : String) :
    SameBuckets cn (serveAll rates requests).limiter
        (serveAll rates
          (requests.filter fun request => request.cn = cn)).limiter ∧
      (serveAll rates requests).answersTo cn =
        (serveAll rates
          (requests.filter fun request => request.cn = cn)).answers := by
  induction requests using List.reverseRecOn with
  | nil => exact ⟨⟨rfl, rfl⟩, rfl⟩
  | append_singleton requests request ih =>
      obtain ⟨sameBuckets, sameAnswers⟩ := ih
      rw [serveAll_append, List.filter_append]
      by_cases own : request.cn = cn
      · subst own
        have checked := check_congr rates sameBuckets
        simp only [decide_true, List.filter_cons_of_pos, List.filter_nil,
          serveAll_append]
        refine ⟨checked.1, ?_⟩
        simp only [Served.answersTo, serve, List.filter_append] at sameAnswers ⊢
        rw [sameAnswers, checked.2]
        simp
      · have untouched := sameBuckets_check_other rates
          (serveAll rates requests).limiter own
        simp only [own, decide_false, Bool.false_eq_true,
          not_false_eq_true, List.filter_cons_of_neg, List.filter_nil,
          List.append_nil]
        refine ⟨⟨untouched.1.trans sameBuckets.1,
          untouched.2.trans sameBuckets.2⟩, ?_⟩
        simp only [Served.answersTo, serve, List.filter_append] at sameAnswers ⊢
        simp [own, sameAnswers]

/-! ## The accounts of a client -/

/-- The accounts of a client's two buckets after some requests. -/
structure Accounts (rates : RequestRates) (requests : List RateRequest)
    (cn : String) (served : Served) : Prop where
  global : Bucket.Account rates.globalBurst rates.globalRps
    (served.limiter.global cn) (served.allowedTimes cn)
  publish : Bucket.Account rates.publishBurst rates.publishRps
    (served.limiter.publish cn) (served.allowedPublishTimes cn)
  globalLast : ∀ bucket ∈ served.limiter.global cn,
    ∃ request ∈ requests, bucket.last = request.globalNow
  publishLast : ∀ bucket ∈ served.limiter.publish cn,
    ∃ request ∈ requests, bucket.last = request.publishNow

theorem accounts_nil (nonneg : rates.Nonneg) (cn : String) :
    Accounts rates [] cn (serveAll rates []) where
  global := Bucket.account_empty nonneg.globalBurst nonneg.globalRps
  publish := Bucket.account_empty nonneg.publishBurst nonneg.publishRps
  globalLast bucket isMade := by cases isMade
  publishLast bucket isMade := by cases isMade

theorem allowed_serve (served : Served) (request : RateRequest)
    (cn : String) :
    (serve rates served request).allowed cn =
      served.allowed cn ++
        if request.cn = cn ∧
            (served.limiter.check rates request).2 = .allowed then
          [request]
        else
          [] := by
  unfold Served.allowed serve
  rw [List.filter_append, List.map_append]
  congr 1
  split
  · rename_i isAllowed
    simp [isAllowed]
  · rename_i notAllowed
    simp [notAllowed]

theorem allowedTimes_serve (served : Served) (request : RateRequest)
    (cn : String) :
    (serve rates served request).allowedTimes cn =
      served.allowedTimes cn ++
        if request.cn = cn ∧
            (served.limiter.check rates request).2 = .allowed then
          [request.globalNow]
        else
          [] := by
  rw [Served.allowedTimes, allowed_serve, List.map_append]
  split <;> rfl

theorem allowedPublishTimes_serve (served : Served) (request : RateRequest)
    (cn : String) :
    (serve rates served request).allowedPublishTimes cn =
      served.allowedPublishTimes cn ++
        if request.cn = cn ∧
            (served.limiter.check rates request).2 = .allowed ∧
            request.isPublish = true then
          [request.publishNow]
        else
          [] := by
  rw [Served.allowedPublishTimes, allowed_serve, List.filter_append,
    List.map_append, Served.allowedPublishTimes]
  congr 1
  by_cases isPublish : request.isPublish = true
  · simp only [isPublish, and_true]
    split
    · simp [isPublish]
    · rfl
  · split
    · simp [isPublish]
    · simp [isPublish]

/-- A token taken from a client's bucket keeps the account of the bucket. -/
theorem account_takeToken {buckets : KeyMap String (Bucket ℚ)}
    {burst rps now : ℚ} {cn : String} {times : List ℚ} {recorded : Prop}
    [Decidable recorded] (created : ℚ)
    (account : Bucket.Account burst rps (buckets cn) times)
    (burstNonneg : 0 ≤ burst) (rpsNonneg : 0 ≤ rps)
    (later : ∀ bucket ∈ buckets cn, bucket.last ≤ now)
    (isGranted : recorded →
      (takeToken buckets burst rps cn created now).2 = true) :
    Bucket.Account burst rps
      ((takeToken buckets burst rps cn created now).1 cn)
      (times ++ if recorded then [now] else []) := by
  have taken := account.take created burstNonneg rpsNonneg later
    (decide recorded) (fun isRecorded =>
      isGranted (of_decide_eq_true isRecorded))
  rw [takeToken_self]
  by_cases isRecorded : recorded
  · simpa [isRecorded] using taken
  · simpa [isRecorded] using taken

theorem takeToken_last {buckets : KeyMap String (Bucket ℚ)}
    {burst rps created now : ℚ} {cn : String} {bucket : Bucket ℚ}
    (found : (takeToken buckets burst rps cn created now).1 cn =
      some bucket) : bucket.last = now := by
  rw [takeToken_self] at found
  cases found
  exact Bucket.take_last _ _

/-- A request keeps the accounts of every client. -/
theorem Accounts.serve (nonneg : rates.Nonneg) {cn : String}
    {served : Served} {request : RateRequest}
    (accounts : Accounts rates requests cn served)
    (later : ∀ earlier ∈ requests, earlier.globalNow ≤ request.globalNow ∧
      earlier.publishNow ≤ request.publishNow) :
    Accounts rates (requests ++ [request]) cn
      (serve rates served request) := by
  have globalLater : ∀ bucket ∈ served.limiter.global cn,
      bucket.last ≤ request.globalNow := by
    intro bucket found
    obtain ⟨earlier, isEarlier, isLast⟩ := accounts.globalLast bucket found
    rw [isLast]
    exact (later earlier isEarlier).1
  have publishLater : ∀ bucket ∈ served.limiter.publish cn,
      bucket.last ≤ request.publishNow := by
    intro bucket found
    obtain ⟨earlier, isEarlier, isLast⟩ := accounts.publishLast bucket found
    rw [isLast]
    exact (later earlier isEarlier).2
  have extend : ∀ {select : RateRequest → ℚ} {last : ℚ},
      (∃ earlier ∈ requests, last = select earlier) →
        ∃ earlier ∈ requests ++ [request], last = select earlier := by
    rintro select last ⟨earlier, isEarlier, isLast⟩
    exact ⟨earlier, List.mem_append_left _ isEarlier, isLast⟩
  obtain ⟨publish, answer, checked, isGranted, publishes⟩ :=
    check_cases rates served.limiter request
  have limiter : (RateLimiter.serve rates served request).limiter =
      ⟨(takeToken served.limiter.global rates.globalBurst rates.globalRps
        request.cn request.globalCreated request.globalNow).1, publish⟩ := by
    rw [RateLimiter.serve, checked]
  by_cases own : request.cn = cn
  · subst own
    constructor
    case global =>
      rw [limiter, allowedTimes_serve, checked]
      simp only [true_and]
      exact account_takeToken request.globalCreated accounts.global
        nonneg.globalBurst nonneg.globalRps globalLater isGranted
    case publish =>
      rw [limiter, allowedPublishTimes_serve, checked]
      rcases publishes with ⟨rfl, notPublish⟩ | ⟨rfl, isPublish, published⟩
      · have unrecorded : ¬ (request.cn = request.cn ∧ answer = .allowed ∧
            request.isPublish = true) := by
          rintro ⟨-, isAllowed, isPublish⟩
          rw [notPublish isAllowed] at isPublish
          cases isPublish
        rw [if_neg unrecorded, List.append_nil]
        exact accounts.publish
      · simp only [true_and, isPublish, and_true]
        exact account_takeToken request.publishCreated accounts.publish
          nonneg.publishBurst nonneg.publishRps publishLater published
    case globalLast =>
      intro bucket found
      rw [limiter] at found
      exact ⟨request, by simp, takeToken_last found⟩
    case publishLast =>
      intro bucket found
      rw [limiter] at found
      rcases publishes with ⟨rfl, -⟩ | ⟨rfl, -⟩
      · exact extend (accounts.publishLast bucket found)
      · exact ⟨request, by simp, takeToken_last found⟩
  · have untouched := sameBuckets_check_other rates served.limiter own
    constructor
    case global =>
      rw [allowedTimes_serve, if_neg (fun isOwn => own isOwn.1),
        List.append_nil, RateLimiter.serve, untouched.1]
      exact accounts.global
    case publish =>
      rw [allowedPublishTimes_serve, if_neg (fun isOwn => own isOwn.1),
        List.append_nil, RateLimiter.serve, untouched.2]
      exact accounts.publish
    case globalLast =>
      intro bucket found
      rw [RateLimiter.serve, untouched.1] at found
      exact extend (accounts.globalLast bucket found)
    case publishLast =>
      intro bucket found
      rw [RateLimiter.serve, untouched.2] at found
      exact extend (accounts.publishLast bucket found)

theorem accounts_serveAll (nonneg : rates.Nonneg)
    (inOrder : InOrder requests) (cn : String) :
    Accounts rates requests cn (serveAll rates requests) := by
  induction requests using List.reverseRecOn with
  | nil => exact accounts_nil nonneg cn
  | append_singleton requests request ih =>
      obtain ⟨before, -, later⟩ := List.pairwise_append.mp inOrder
      rw [serveAll_append]
      apply (ih before).serve nonneg
      intro earlier isEarlier
      exact later earlier isEarlier request (List.mem_singleton_self request)

/-! ## The limits -/

/-- The limits hold for every client, every window and every pattern of
requests: the buckets stay between empty and full, the requests let through in
a window are bounded by the capacity and the inflow, and the answers to a
client are those it would get alone. -/
theorem request_limits (nonneg : rates.Nonneg) (inOrder : InOrder requests)
    (cn : String) :
    (∀ bucket ∈ (serveAll rates requests).limiter.global cn,
      bucket.burst = rates.globalBurst ∧ 0 ≤ bucket.tokens ∧
        bucket.tokens ≤ bucket.burst) ∧
    (∀ bucket ∈ (serveAll rates requests).limiter.publish cn,
      bucket.burst = rates.publishBurst ∧ 0 ≤ bucket.tokens ∧
        bucket.tokens ≤ bucket.burst) ∧
    (∀ start length, 0 ≤ length →
      (Bucket.countWithin ((serveAll rates requests).allowedTimes cn) start
        (start + length) : ℚ) ≤
          rates.globalBurst + rates.globalRps * length) ∧
    (∀ start length, 0 ≤ length →
      (Bucket.countWithin ((serveAll rates requests).allowedPublishTimes cn)
        start (start + length) : ℚ) ≤
          rates.publishBurst + rates.publishRps * length) ∧
    (serveAll rates requests).answersTo cn =
      (serveAll rates
        (requests.filter fun request => request.cn = cn)).answers := by
  have accounts := accounts_serveAll nonneg inOrder cn
  refine ⟨?_, ?_, ?_, ?_, (serveAll_own rates requests cn).2⟩
  · intro bucket found
    have level := accounts.global.level bucket found
    exact ⟨level.burst_eq, level.nonneg,
      level.le_burst.trans_eq level.burst_eq.symm⟩
  · intro bucket found
    have level := accounts.publish.level bucket found
    exact ⟨level.burst_eq, level.nonneg,
      level.le_burst.trans_eq level.burst_eq.symm⟩
  · intro start length isLength
    have within := accounts.global.within start (start + length)
      (le_add_of_nonneg_right isLength)
    rwa [add_sub_cancel_left] at within
  · intro start length isLength
    have within := accounts.publish.within start (start + length)
      (le_add_of_nonneg_right isLength)
    rwa [add_sub_cancel_left] at within

def sampleRates : RequestRates :=
  ⟨1, 2, 1 / 2, 1⟩

theorem sampleRates_nonneg : sampleRates.Nonneg := by
  constructor <;> decide +kernel

/-- Two requests and two publishes of one client, with another client's
publish between them. -/
def sampleRequests : List RateRequest :=
  [⟨"sender_1", false, 0, 0, 0, 0⟩, ⟨"sender_1", true, 0, 0, 0, 0⟩,
    ⟨"sender_2", true, 0, 1, 1, 1⟩, ⟨"sender_1", true, 0, 1, 1, 1⟩,
    ⟨"sender_1", false, 0, 1, 1, 1⟩]

theorem request_limits_sampleRequests :
    ((serveAll sampleRates sampleRequests).answersTo "sender_1").map
        Prod.snd = [.allowed, .allowed, .rateLimited, .rateLimited] ∧
    (Bucket.countWithin
      ((serveAll sampleRates sampleRequests).allowedTimes "sender_1") 0
        (0 + 1) : ℚ) ≤ sampleRates.globalBurst + sampleRates.globalRps * 1 := by
  have inOrder : InOrder sampleRequests := by decide +kernel
  have limits := request_limits sampleRates_nonneg inOrder "sender_1"
  exact ⟨by decide +kernel, limits.2.2.1 0 1 (by decide)⟩

end RateLimiter

end CipherMQ
