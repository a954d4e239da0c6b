import CipherMQ.PublishPlaces
import CipherMQ.Registrations
import CipherMQ.SubscriberFeed

/-!
# The feed of a consumer

A consumer of a queue, seen by itself, is the late subscriber of a queue: the
queue and its log, the publishes between their push to the queue and their
notification of its consumers, and the registration with the backlog it has
captured or left to a task.  As long as no channel is registered twice, every
step of the broker is a step of this feed or leaves it as it is.
-/

namespace CipherMQ

open ServerState

/-! ## One turn as a queue sees it -/

/-- What a turn does to one queue: nothing, a push, the removal of entries, or
the notification of the consumers. -/
inductive QueueTurn (queueName : String) (state : ServerState)
    (trace : Trace) (index : Nat) (call next : Call) (after : Trace) : Prop
  | quiet :
      after.log queueName = trace.log queueName →
        after.queues queueName = trace.queues queueName →
          (∀ entry, next.Announces queueName entry ↔
            call.Announces queueName entry) →
            (∀ request remaining, call ≠
              .publish request (.notify (queueName :: remaining))) →
              QueueTurn queueName state trace index call next after
  | push (request : PublishRequest) (targets queueSet : List String)
      (remaining : List String) (kept : List Stamped) :
      call = .publish request
          (.enqueue targets queueSet (queueName :: remaining)) →
        kept.Sublist (trace.queues queueName) →
          after.log queueName = trace.log queueName ++
              [(index, request.message.messageId, request.message)] →
            after.queues queueName = kept ++
                [(index, request.message.messageId, request.message)] →
              (∀ entry, next.Announces queueName entry ↔
                entry = (request.message.messageId, request.message)) →
                QueueTurn queueName state trace index call next after
  | remove :
      after.log queueName = trace.log queueName →
        (after.queues queueName).Sublist (trace.queues queueName) →
          (∀ entry, ¬ next.Announces queueName entry) →
            (∀ entry, ¬ call.Announces queueName entry) →
              QueueTurn queueName state trace index call next after
  | announce (request : PublishRequest) (remaining : List String) :
      call = .publish request (.notify (queueName :: remaining)) →
        after = trace.announce state queueName
            (index, request.message.messageId, request.message) →
          (∀ entry, ¬ next.Announces queueName entry) →
            QueueTurn queueName state trace index call next after

theorem Call.not_announces_of_isPlain {call : Call}
    (isPlain : call.isPlain = true) (queueName : String)
    (entry : QueueEntry) : ¬ call.Announces queueName entry := by
  cases call <;> first | exact id | cases isPlain

theorem TracedTurn.queueTurn {state after : ServerState}
    {trace traceAfter : Trace} {index : Nat} {call next : Call}
    (turn : TracedTurn state trace index call after next traceAfter)
    (placed : ∀ request point, call = .publish request point →
      Placed state point) (queueName : String) :
    QueueTurn queueName state trace index call next traceAfter := by
  cases turn with
  | plain _ _ _ isPlain isPlainNext =>
      refine .quiet rfl rfl (fun entry => iff_of_false
        (Call.not_announces_of_isPlain isPlainNext queueName entry)
        (Call.not_announces_of_isPlain isPlain queueName entry)) ?_
      rintro request remaining rfl
      cases isPlain
  | publish request point following _ move =>
      refine .quiet rfl rfl ?_ ?_
      · intro entry
        simp only [Call.Announces, move.announcing_iff queueName]
      · intro _ remaining isCall
        cases isCall
        cases move with
        | fail _ _ isPoint => simp at isPoint
  | remove messageId other remaining =>
      by_cases isOther : queueName = other
      · subst isOther
        refine .remove rfl ?_ (fun _ => id) (fun _ => id)
        simp only [Trace.retain, Function.update_self]
        exact List.filter_sublist
      · refine .quiet rfl ?_ (fun _ => Iff.rfl) (by simp)
        simp [Trace.retain, isOther]
  | push request targets queueSet other remaining queue following _ isNext =>
      obtain ⟨distinct, suffix, -⟩ := placed _ _ rfl
      by_cases isOther : queueName = other
      · subst isOther
        have notAgain := (List.nodup_cons.mp
          (suffix.sublist.nodup distinct)).1
        have isTarget : queueName ∈ targets := suffix.subset (by simp)
        refine .push request targets queueSet remaining
          (if state.maxQueueSize ≤ (trace.queues queueName).length then
            (trace.queues queueName).tail
          else
            trace.queues queueName) rfl ?_ ?_ ?_ ?_
        · split
          · exact List.tail_sublist _
          · exact List.Sublist.refl _
        · simp [Trace.push]
        · simp only [Trace.push, Function.update_self]
        · intro entry
          rcases isNext with rfl | ⟨_, rfl⟩ <;>
            simp [Call.Announces, Announcing, isTarget, notAgain]
      · refine .quiet ?_ ?_ ?_ (by simp)
        · simp [Trace.push, isOther]
        · simp [Trace.push, isOther]
        · intro entry
          rcases isNext with rfl | ⟨_, rfl⟩ <;>
            simp [Call.Announces, Announcing, isOther]
  | skip request targets queueSet other remaining missing =>
      -- the targets of a publish exist
      obtain ⟨-, suffix, exist⟩ := placed _ _ rfl
      have present := exist other (suffix.subset (by simp))
      rw [missing] at present
      cases present
  | announce request other remaining =>
      have distinct : (other :: remaining).Nodup := placed _ _ rfl
      by_cases isOther : queueName = other
      · subst isOther
        refine .announce request remaining rfl rfl ?_
        rintro entry ⟨-, again⟩
        exact (List.nodup_cons.mp distinct).1 again
      · refine .quiet rfl rfl ?_ (by simp [Ne.symm isOther])
        intro entry
        simp [Call.Announces, Announcing, isOther]
  | declare | declareFirst | join | capture | captureNone | readStatus
  | spawn => exact .quiet rfl rfl (fun _ => Iff.rfl) (by simp)

/-! ## Entries that are being announced -/

def announcing (calls : List Call) (queueName : String) : Set Stamped :=
  {entry | ∃ call, calls[entry.1]? = some call ∧
    call.Announces queueName entry.2}

section Announcing

variable {calls : List Call} {index : Nat} {call next : Call}
  {queueName : String}

theorem announcing_invoke (invocation : Invocation) :
    announcing (calls ++ [invocation.start]) queueName =
      announcing calls queueName := by
  ext entry
  constructor
  · rintro ⟨made, found, announces⟩
    rcases getElem?_concat_cases found with old | ⟨-, rfl⟩
    · exact ⟨made, old, announces⟩
    · cases invocation with
      | publish => exact absurd announces.2 id
      | _ => cases announces
  · rintro ⟨made, found, announces⟩
    exact ⟨made, getElem?_append_kept found _, announces⟩

/-- The entries that are announced after a call has moved. -/
theorem mem_announcing_set (found : calls[index]? = some call)
    (entry : Stamped) :
    entry ∈ announcing (calls.set index next) queueName ↔
      (entry.1 = index ∧ next.Announces queueName entry.2) ∨
        (entry.1 ≠ index ∧ entry ∈ announcing calls queueName) := by
  constructor
  · rintro ⟨made, isCall, announces⟩
    rcases getElem?_set_cases isCall with ⟨isIndex, rfl⟩ | ⟨different, old⟩
    · exact .inl ⟨isIndex, announces⟩
    · exact .inr ⟨different, made, old, announces⟩
  · rintro (⟨isIndex, announces⟩ | ⟨different, made, old, announces⟩)
    · refine ⟨next, ?_, announces⟩
      rw [isIndex]
      exact getElem?_set_moved found next
    · exact ⟨made, (List.getElem?_set_ne (Ne.symm different)).trans old,
        announces⟩

theorem mem_announcing_at (found : calls[index]? = some call)
    {entry : Stamped} (isIndex : entry.1 = index) :
    entry ∈ announcing calls queueName ↔
      call.Announces queueName entry.2 := by
  constructor
  · rintro ⟨made, isCall, announces⟩
    rw [isIndex, found] at isCall
    cases isCall
    exact announces
  · intro announces
    exact ⟨call, isIndex ▸ found, announces⟩

theorem announcing_set_same (found : calls[index]? = some call)
    (same : ∀ entry, next.Announces queueName entry ↔
      call.Announces queueName entry) :
    announcing (calls.set index next) queueName =
      announcing calls queueName := by
  ext entry
  rw [mem_announcing_set found]
  by_cases isIndex : entry.1 = index
  · simp [isIndex, same, mem_announcing_at found isIndex]
  · simp [isIndex]

theorem announcing_set_insert {entry : QueueEntry}
    (found : calls[index]? = some call)
    (notYet : ∀ other, ¬ call.Announces queueName other)
    (starts : ∀ other, next.Announces queueName other ↔ other = entry) :
    announcing (calls.set index next) queueName =
      insert (index, entry) (announcing calls queueName) := by
  ext other
  rw [mem_announcing_set found, Set.mem_insert_iff, Prod.ext_iff]
  by_cases isIndex : other.1 = index
  · simp [isIndex, starts, mem_announcing_at found isIndex, notYet]
  · simp [isIndex]

theorem announcing_set_remove {entry : QueueEntry}
    (found : calls[index]? = some call)
    (was : ∀ other, call.Announces queueName other → other = entry)
    (ends : ∀ other, ¬ next.Announces queueName other) :
    announcing (calls.set index next) queueName =
      announcing calls queueName \ {(index, entry)} := by
  ext other
  rw [mem_announcing_set found, Set.mem_sdiff, Set.mem_singleton_iff,
    Prod.ext_iff]
  by_cases isIndex : other.1 = index
  · simpa [isIndex, ends, mem_announcing_at found isIndex] using was other.2
  · simp [isIndex]

end Announcing

/-! ## The feed -/

def RegisterPoint.phase : RegisterPoint → Feed.Phase
  | .declareQueue => .outside
  | .addConsumer => .outside
  | .readQueue => .joined
  | _ => .captured

theorem RegisterPoint.phase_ne_outside {point : RegisterPoint}
    (joined : point.hasJoined = true) : point.phase ≠ .outside := by
  cases point with
  | declareQueue | addConsumer => cases joined
  | readQueue | readStatus | returned => simp [phase]

abbrev Registration := Nat × RegisterPoint

namespace Trace

/-- What a registration, or the task it has spawned, has still to send. -/
def backlog (trace : Trace) : Registration → List Stamped
  | (index, .readStatus _ _) => trace.captured index ++ trace.unread index
  | (_, .returned (some position)) => trace.tasks[position]?.getD []
  | _ => []

theorem sent_announce (trace : Trace) {state : ServerState}
    {queueName : String} {channel : ChannelId} (entry : Stamped)
    (atMostOnce :
      ((state.consumers queueName).getD []).count channel ≤ 1) :
    (trace.announce state queueName entry).sent channel =
      if (state.channels channel).closed = false ∧
          channel ∈ (state.consumers queueName).getD [] then
        trace.sent channel ++ [entry]
      else
        trace.sent channel := by
  cases isClosed : (state.channels channel).closed with
  | true => simp [announce, isClosed]
  | false =>
      by_cases isConsumer : channel ∈ (state.consumers queueName).getD []
      · have isOnce : ((state.consumers queueName).getD []).count channel =
            1 := by
          have positive := List.count_pos_iff.mpr isConsumer
          omega
        simp [announce, isClosed, isConsumer, isOnce]
      · simp [announce, isClosed, isConsumer,
          List.count_eq_zero_of_not_mem isConsumer]

end Trace

namespace TracedBroker

def IsRegistration (traced : TracedBroker) (queueName : String)
    (channel : ChannelId) : Option Registration → Prop
  | none => ∀ index point, ¬ traced.Registers index queueName channel point
  | some (index, point) => traced.Registers index queueName channel point

/-- A queue as a channel with the given registration sees it. -/
def feed (traced : TracedBroker) (queueName : String) (channel : ChannelId)
    (registration : Option Registration) : Feed Stamped where
  log := traced.trace.log queueName
  queue := traced.trace.queues queueName
  unannounced := announcing traced.broker.calls queueName
  phase := registration.elim .outside fun made => made.2.phase
  backlog := registration.elim [] traced.trace.backlog
  sent := registration.elim [] fun _ => traced.trace.sent channel

theorem feed_new (maxQueueSize : Nat) (queueName : String)
    (channel : ChannelId) :
    (new maxQueueSize).feed queueName channel none = Feed.new := by
  have noneAnnounced : announcing [] queueName = ∅ := by
    ext entry
    simp [announcing]
  simp [feed, Feed.new, new, Trace.new, Broker.new, noneAnnounced]

/-- The broker's event behind a push or a join of a feed. -/
def Underlies (traced : TracedBroker) (event : Broker.Event)
    (queueName : String) : Feed.Event Stamped → Prop
  | .push _ _ => ∃ index reading request targets queueSet remaining,
      event = .advance index reading ∧
        traced.broker.calls[index]? = some (.publish request
          (.enqueue targets queueSet (queueName :: remaining)))
  | .join => ∃ index reading channel, event = .advance index reading ∧
      traced.Registers index queueName channel .addConsumer
  | _ => True

/-- A step of the broker as a step of a feed. -/
def Followed (before after : TracedBroker) (event : Broker.Event)
    (queueName : String) (channel : ChannelId)
    (registration : Option Registration) : Prop :=
  ∃ following, after.IsRegistration queueName channel following ∧
    (after.feed queueName channel following =
        before.feed queueName channel registration ∨
      ∃ feedEvent, before.Underlies event queueName feedEvent ∧
        (before.feed queueName channel registration).step feedEvent =
          some (after.feed queueName channel following))

section Followed

variable {traced : TracedBroker} {queueName : String} {channel : ChannelId}
  {registration : Option Registration}

theorem followed_invoke (registrations : traced.Registrations)
    {invocation : Invocation}
    (isNew : traced.RegistersOnce (.invoke invocation))
    (registered : traced.IsRegistration queueName channel registration) :
    Followed traced ⟨⟨traced.broker.shared,
      traced.broker.calls ++ [invocation.start]⟩, traced.trace⟩
      (.invoke invocation) queueName channel registration := by
  cases registration with
  | some made =>
      refine ⟨some made, getElem?_append_kept registered _, .inl ?_⟩
      simp only [feed, announcing_invoke]
  | none =>
      by_cases isRegister :
          invocation = .registerConsumer queueName channel
      · subst isRegister
        have unregistered : ∀ index other point,
            ¬ traced.Registers index other channel point := by
          intro index other point registers
          exact isNew _ (List.mem_of_getElem? registers) rfl
        refine ⟨some (traced.broker.calls.length, .declareQueue), ?_,
          .inl ?_⟩
        · simp [IsRegistration, Registers, Invocation.start]
        · simp only [feed, announcing_invoke, Option.elim_some,
            Option.elim_none, registrations.silent channel unregistered]
          rfl
      · refine ⟨none, ?_, .inl ?_⟩
        · intro index point registers
          rcases getElem?_concat_cases registers with old | ⟨-, isStart⟩
          · exact registered index point old
          · cases invocation <;> cases isStart
            exact isRegister rfl
        · simp only [feed, announcing_invoke, Option.elim_none]

section Turn

variable {index : Nat} {call next : Call} {shared : ServerState}
  {trace : Trace} {reading : Reading}
  (found : traced.broker.calls[index]? = some call)
  (turn : TracedTurn traced.broker.shared traced.trace index call shared
    next trace)

include found turn

/-- The registration itself moves: it joins, captures the queue, keeps or
passes over an entry, or leaves its copy to a task. -/
theorem followed_ownTurn (faithful : traced.Faithful)
    {point : RegisterPoint}
    (isCall : call = .registerConsumer queueName channel point) :
    Followed traced ⟨⟨shared, traced.broker.calls.set index next⟩, trace⟩
      (.advance index reading) queueName channel (some (index, point)) := by
  have moved := getElem?_set_moved found next
  have sameAnnounced : announcing (traced.broker.calls.set index next)
      queueName = announcing traced.broker.calls queueName := by
    obtain ⟨following, isNext, -⟩ := turn.next_register isCall
    apply announcing_set_same found
    intro entry
    rw [isNext, isCall]
    rfl
  cases turn with
  | plain _ _ _ isPlain =>
      rw [isCall] at isPlain
      cases isPlain
  | declareFirst =>
      cases isCall
      refine ⟨some (index, .addConsumer), moved, .inl ?_⟩
      simp only [feed, sameAnnounced]
      rfl
  | join =>
      cases isCall
      refine ⟨some (index, .readQueue), moved, .inr ⟨.join,
        ⟨index, reading, channel, rfl, found⟩, ?_⟩⟩
      rw [Feed.step_join _ rfl]
      simp only [feed, sameAnnounced]
      rfl
  | capture _ _ queue =>
      cases isCall
      refine ⟨some (index, .readStatus [] queue), moved,
        .inr ⟨.capture, trivial, ?_⟩⟩
      rw [Feed.step_capture _ rfl]
      simp [feed, sameAnnounced, RegisterPoint.phase, Trace.backlog,
        Trace.readQueue]
  | captureNone _ _ isEmpty =>
      cases isCall
      have noEntries : traced.trace.queues queueName = [] :=
        List.map_eq_nil_iff.mp ((faithful.queues queueName).trans isEmpty)
      refine ⟨some (index, .returned none), moved,
        .inr ⟨.capture, trivial, ?_⟩⟩
      rw [Feed.step_capture _ rfl]
      simp [feed, sameAnnounced, RegisterPoint.phase, Trace.backlog,
        Trace.readQueue, noEntries]
  | readStatus _ _ captured entry unread =>
      cases isCall
      have shorter : ∀ live : Bool,
          ((traced.trace.captured index ++
              if live then (traced.trace.unread index).take 1 else []) ++
            (traced.trace.unread index).drop 1).Sublist
          (traced.trace.captured index ++ traced.trace.unread index) := by
        intro live
        rw [List.append_assoc]
        refine (List.Sublist.refl _).append ?_
        cases live with
        | false => exact List.drop_sublist 1 _
        | true =>
            rw [if_pos rfl, List.take_append_drop]
      refine ⟨some (index, _), moved, .inr ⟨.shrink
        (traced.trace.queues queueName) _, trivial,
        (Feed.step_shrink _ (List.Sublist.refl _)
          (shorter (traced.broker.shared.deliverable entry))).trans ?_⟩⟩
      simp [feed, sameAnnounced, RegisterPoint.phase, Trace.backlog,
        Trace.readStatus]
  | spawn _ _ captured =>
      cases isCall
      obtain ⟨-, allRead⟩ := faithful.reads _ _ _ _ _ found
      have sameLength := congrArg List.length faithful.tasks
      simp only [List.length_map] at sameLength
      have atEnd : (traced.trace.tasks ++ [traced.trace.captured index])[
          traced.broker.shared.deliveryTasks.length]? =
          some (traced.trace.captured index) := by
        rw [← sameLength]
        exact List.getElem?_concat_length
      refine ⟨some (index, _), moved, .inl ?_⟩
      simp [feed, sameAnnounced, RegisterPoint.phase, Trace.backlog,
        Trace.spawn, List.map_eq_nil_iff.mp allRead, atEnd]
  | declare | remove | publish | push | skip | announce => cases isCall

theorem backlog_of_ne (faithful : traced.Faithful)
    (registrations : traced.Registrations)
    (registered : traced.IsRegistration queueName channel registration)
    (notOwn : ∀ point, registration ≠ some (index, point)) :
    IsRegistration ⟨⟨shared, traced.broker.calls.set index next⟩, trace⟩
        queueName channel registration ∧
      registration.elim [] trace.backlog =
        registration.elim [] traced.trace.backlog := by
  cases registration with
  | none =>
      refine ⟨?_, rfl⟩
      intro other point registers
      obtain ⟨earlier, wasRegistered⟩ := registers.before_turn found turn
      exact registered other earlier wasRegistered
  | some made =>
      obtain ⟨other, point⟩ := made
      have different : other ≠ index := by
        rintro rfl
        exact notOwn point rfl
      refine ⟨(List.getElem?_set_ne (Ne.symm different)).trans registered, ?_⟩
      cases point with
      | readStatus captured unread =>
          obtain ⟨sameCaptured, sameUnread⟩ := turn.reads_of_ne different
          simp only [Option.elim_some, Trace.backlog, sameCaptured,
            sameUnread]
      | returned position =>
          cases position with
          | none => rfl
          | some position =>
              obtain ⟨remaining, isTask⟩ :=
                registrations.spawned _ _ _ _ registered
              obtain ⟨inRange, -⟩ := List.getElem?_eq_some_iff.mp isTask
              have sameLength := congrArg List.length faithful.tasks
              simp only [List.length_map] at sameLength
              cases turn with
              | spawn =>
                  simp only [Option.elim_some, Trace.backlog, Trace.spawn]
                  rw [List.getElem?_append_left (by omega)]
              | _ => rfl
      | declareQueue | addConsumer | readQueue => rfl

omit found in
/-- Only the notification of its own queue sends on a channel. -/
theorem sent_of_ne (registrations : traced.Registrations)
    (registered : traced.IsRegistration queueName channel registration)
    (notNotified : ∀ request remaining,
      call ≠ .publish request (.notify (queueName :: remaining))) :
    registration.elim [] (fun _ => trace.sent channel) =
      registration.elim [] (fun _ => traced.trace.sent channel) := by
  cases registration with
  | none => rfl
  | some made =>
      rcases turn.sent_cases channel with
        same | ⟨request, other, remaining, isCall, member⟩
      · exact same
      · obtain ⟨index, point, registers, -⟩ :=
          registrations.consumer other channel member
        have sameIndex := registrations.once registers registered
        rw [Registers, sameIndex] at registers
        rw [IsRegistration, Registers, registers] at registered
        cases registered
        exact absurd isCall (notNotified request remaining)

/-- Another call moves: the queue may change and its consumers may be
notified. -/
theorem followed_otherTurn (faithful : traced.Faithful)
    (placement : traced.Placement) (registrations : traced.Registrations)
    (registered : traced.IsRegistration queueName channel registration)
    (notOwn : ∀ point, registration ≠ some (index, point)) :
    Followed traced ⟨⟨shared, traced.broker.calls.set index next⟩, trace⟩
      (.advance index reading) queueName channel registration := by
  obtain ⟨stays, sameBacklog⟩ :=
    backlog_of_ne found turn faithful registrations registered notOwn
  have sameSent := sent_of_ne turn registrations registered
  have queueTurn := turn.queueTurn (fun request point isCall =>
    placement.placed index request point (isCall ▸ found)) queueName
  refine ⟨registration, stays, ?_⟩
  cases queueTurn with
  | quiet sameLog sameQueue sameAnnounces notNotified =>
      left
      simp only [feed, sameLog, sameQueue, sameBacklog,
        announcing_set_same found sameAnnounces, sameSent notNotified]
  | push request targets queueSet remaining kept isCall isKept isLog isQueue
      announces =>
      subst isCall
      right
      have isNew : (index, request.message.messageId, request.message) ∉
          traced.trace.log queueName := by
        intro member
        obtain ⟨other, point, isPublish, -, past⟩ :=
          placement.logged queueName _ member
        rw [found] at isPublish
        cases isPublish
        exact past (List.mem_cons_self ..)
      have notYet : ∀ entry, ¬ Call.Announces queueName entry
          (.publish request
            (.enqueue targets queueSet (queueName :: remaining))) := by
        rintro entry ⟨-, -, notRemaining⟩
        exact notRemaining (List.mem_cons_self ..)
      refine ⟨.push (index, request.message.messageId, request.message) kept,
        ⟨index, reading, request, targets, queueSet, remaining, rfl, found⟩,
        (Feed.step_push _ isNew isKept).trans ?_⟩
      simp only [feed, isLog, isQueue, sameBacklog,
        announcing_set_insert found notYet announces,
        sameSent fun _ _ isNotify => by cases isNotify]
  | remove sameLog isQueue nextSilent callSilent =>
      right
      have notNotified : ∀ request remaining, call ≠
          .publish request (.notify (queueName :: remaining)) := by
        rintro request remaining rfl
        exact callSilent _ ⟨rfl, List.mem_cons_self ..⟩
      refine ⟨.shrink (trace.queues queueName)
        (registration.elim [] traced.trace.backlog), trivial,
        (Feed.step_shrink _ isQueue (List.Sublist.refl _)).trans ?_⟩
      simp only [feed, sameLog, sameBacklog, sameSent notNotified,
        announcing_set_same found fun entry =>
          iff_of_false (nextSilent entry) (callSilent entry)]
  | announce request remaining isCall isTrace nextSilent =>
      subst isCall isTrace
      right
      have isAnnounced :
          (index, request.message.messageId, request.message) ∈
            announcing traced.broker.calls queueName :=
        (mem_announcing_at found rfl).mpr ⟨rfl, List.mem_cons_self ..⟩
      have isRemoved := announcing_set_remove found
        (fun other (announces : Call.Announces queueName other _) =>
          announces.1) nextSilent
      cases registration with
      | none =>
          refine ⟨.announce _ false, trivial,
            (Feed.step_announce _ isAnnounced (by simp)).trans ?_⟩
          simp only [feed, isRemoved, Option.elim_none]
          rfl
      | some made =>
          refine ⟨.announce _
            (decide ((traced.broker.shared.channels channel).closed = false ∧
              channel ∈
                (traced.broker.shared.consumers queueName).getD [])),
            trivial, (Feed.step_announce _ isAnnounced ?_).trans ?_⟩
          · -- who is notified has joined
            intro isReceived
            obtain ⟨-, member⟩ := of_decide_eq_true isReceived
            obtain ⟨other, point, registers, joined⟩ :=
              registrations.consumer queueName channel member
            have same := registrations.once registers registered
            subst same
            rw [IsRegistration, Registers, registers] at registered
            obtain ⟨_, madePoint⟩ := made
            cases registered
            exact RegisterPoint.phase_ne_outside joined
          · simp only [feed, isRemoved, Option.elim_some, sameBacklog,
              Trace.sent_announce traced.trace _
                (registrations.count_le queueName channel),
              decide_eq_true_eq]
            rfl

end Turn

theorem backlog_otherTask (registrations : traced.Registrations)
    {index : Nat} {task : DeliveryTask}
    (found : traced.broker.shared.deliveryTasks[index]? = some task)
    {made : Registration}
    (registered : traced.IsRegistration queueName channel (some made))
    (notChannel : channel ≠ task.channel) (left : List Stamped)
    (sent : ChannelId → List Stamped) :
    Trace.backlog { traced.trace with
      tasks := traced.trace.tasks.set index left
      sent := sent } made = traced.trace.backlog made := by
  obtain ⟨other, point⟩ := made
  cases point with
  | returned position =>
      cases position with
      | none => rfl
      | some position =>
          have different : index ≠ position := by
            rintro rfl
            obtain ⟨remaining, isTask⟩ :=
              registrations.spawned _ _ _ _ registered
            rw [found] at isTask
            cases isTask
            exact notChannel rfl
          simp only [Trace.backlog, List.getElem?_set_ne different]
  | declareQueue | addConsumer | readQueue | readStatus => rfl

/-- A task runs: it sends the next entry of the backlog, or gives it up. -/
theorem followed_runTask (faithful : traced.Faithful)
    (registrations : traced.Registrations) (index : Nat)
    (registered : traced.IsRegistration queueName channel registration) :
    Followed traced ⟨⟨traced.broker.shared.runDeliveryTask index,
      traced.broker.calls⟩, traced.trace.runTask traced.broker.shared index⟩
      (.runDeliveryTask index) queueName channel registration := by
  refine ⟨registration, registered, ?_⟩
  rcases runTask_cases faithful.tasks index with
    ⟨sameState, sameTrace⟩ |
    ⟨task, entry, rest, found, stamped, -, isState, isTrace⟩
  · left
    simp only [sameTrace, feed]
  · obtain ⟨owner, owns⟩ := registrations.task index task found
    cases registration with
    | none =>
        left
        simp only [feed, isTrace, Option.elim_none]
        split <;> rfl
    | some made =>
        obtain ⟨other, point⟩ := made
        by_cases isChannel : channel = task.channel
        · -- the task was spawned by this registration
          subst isChannel
          have same := registrations.once owns registered
          subst same
          rw [IsRegistration, Registers, owns] at registered
          cases registered
          right
          have isBacklog :
              (traced.feed task.source task.channel
                (some (owner, .returned (some index)))).backlog =
                entry :: rest := by
            simp [feed, Trace.backlog, stamped]
          by_cases isClosed :
              (traced.broker.shared.channels task.channel).closed
          · refine ⟨.shrink (traced.trace.queues task.source) [], trivial,
              (Feed.step_shrink _ (List.Sublist.refl _)
                (List.nil_sublist _)).trans ?_⟩
            simp [feed, isTrace, isClosed, Trace.backlog,
              getElem?_set_moved stamped]
          · refine ⟨.deliver, trivial,
              (Feed.step_deliver _ isBacklog).trans ?_⟩
            simp [feed, isTrace, isClosed, Trace.backlog,
              getElem?_set_moved stamped]
        · left
          have sameBacklog :=
            backlog_otherTask registrations found registered isChannel
          simp only [feed, isTrace, Option.elim_some]
          split
          · exact congrArg (fun backlog => Feed.mk _ _ _ _ backlog _)
              (sameBacklog [] traced.trace.sent)
          · simp only [sameBacklog, Function.update_of_ne isChannel]

end Followed

structure Tracked (traced : TracedBroker) : Prop where
  faithful : traced.Faithful
  placement : traced.Placement
  registrations : traced.Registrations

theorem tracked_new (maxQueueSize : Nat) : (new maxQueueSize).Tracked :=
  ⟨faithful_new maxQueueSize, placement_new maxQueueSize,
    registrations_new maxQueueSize⟩

theorem Tracked.step {before after : TracedBroker} {event : Broker.Event}
    (tracked : before.Tracked) (isNew : before.RegistersOnce event)
    (stepTo : before.step event = some after) : after.Tracked :=
  ⟨tracked.faithful.step stepTo,
    tracked.placement.step tracked.faithful stepTo,
    tracked.registrations.step tracked.faithful isNew stepTo⟩

/-- Every step of the broker is a step of the feed or leaves it as it is. -/
theorem Tracked.followed {before after : TracedBroker}
    {event : Broker.Event} {queueName : String} {channel : ChannelId}
    {registration : Option Registration} (tracked : before.Tracked)
    (isNew : before.RegistersOnce event)
    (registered : before.IsRegistration queueName channel registration)
    (stepTo : before.step event = some after) :
    Followed before after event queueName channel registration := by
  obtain ⟨faithful, placement, registrations⟩ := tracked
  rcases step_cases stepTo with
    ⟨invocation, rfl, rfl⟩ |
    ⟨index, reading, call, shared, next, trace, rfl, found, turn, rfl⟩ |
    ⟨index, rfl, rfl⟩ | ⟨other, -, rfl⟩ | ⟨shared, flow, rfl⟩
  · exact followed_invoke registrations isNew registered
  · by_cases isOwn : ∃ point, registration = some (index, point)
    · obtain ⟨point, rfl⟩ := isOwn
      rw [IsRegistration, Registers, found] at registered
      exact followed_ownTurn found turn faithful
        (Option.some.inj registered)
    · exact followed_otherTurn found turn faithful placement registrations
        registered fun point isOwnPoint => isOwn ⟨point, isOwnPoint⟩
  · exact followed_runTask faithful registrations index registered
  · exact ⟨registration, registered, .inl rfl⟩
  · exact ⟨registration, registered, .inl rfl⟩

/-- A run of the broker is followed by a run of every feed. -/
theorem feed_reachable {allowed : TracedBroker → Broker.Event → Prop}
    {feedAllowed : Feed Stamped → Feed.Event Stamped → Prop}
    {maxQueueSize : Nat} {traced : TracedBroker} {queueName : String}
    {channel : ChannelId}
    (registersOnce : ∀ traced event, allowed traced event →
      traced.RegistersOnce event)
    (permits : ∀ traced event registration feedEvent,
      traced.Tracked → allowed traced event →
        traced.IsRegistration queueName channel registration →
          traced.Underlies event queueName feedEvent →
            feedAllowed (traced.feed queueName channel registration)
              feedEvent)
    (reached : ReachableWhile step allowed (new maxQueueSize) traced) :
    traced.Tracked ∧ ∃ registration,
      traced.IsRegistration queueName channel registration ∧
        ReachableWhile Feed.step feedAllowed Feed.new
          (traced.feed queueName channel registration) := by
  have simulated : ∃ view, (traced.Tracked ∧ ∃ registration,
      traced.IsRegistration queueName channel registration ∧
        view = traced.feed queueName channel registration) ∧
      ReachableWhile Feed.step feedAllowed Feed.new view := by
    refine reached.simulate (fun traced view => traced.Tracked ∧
      ∃ registration, traced.IsRegistration queueName channel registration ∧
        view = traced.feed queueName channel registration)
      ⟨tracked_new maxQueueSize, none, ?_, (feed_new _ _ _).symm⟩ ?_
    · simp [IsRegistration, Registers, new, Broker.new]
    · rintro before event after view
        ⟨tracked, registration, registered, rfl⟩ isAllowed stepTo
      have isNew := registersOnce before event isAllowed
      obtain ⟨following, stays, same | ⟨feedEvent, underlies, feedStep⟩⟩ :=
        tracked.followed isNew registered stepTo
      · exact ⟨_, ⟨tracked.step isNew stepTo, following, stays, rfl⟩,
          .inl same⟩
      · exact ⟨_, ⟨tracked.step isNew stepTo, following, stays, rfl⟩,
          .inr ⟨feedEvent, permits before event registration feedEvent
            tracked isAllowed registered underlies, feedStep⟩⟩
  obtain ⟨view, ⟨tracked, registration, registered, rfl⟩, viewReached⟩ :=
    simulated
  exact ⟨tracked, registration, registered, viewReached⟩

end TracedBroker

end CipherMQ
