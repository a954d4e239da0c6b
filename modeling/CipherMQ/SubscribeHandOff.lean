import CipherMQ.CallEffects
import CipherMQ.CallRefinement
import CipherMQ.DuplicateSuppression

/-!
# Hand-off between a publish and a new consumer

A publish appends its message, records its status and then notifies the
consumers of the queue; a registration adds its consumer and then copies the
queue, keeping what has a live status.  In whichever way their accesses
interleave, one of the two hands the message over: if the notification misses
the consumer, the consumer was added after it, and then the copy is taken after
it as well.  Other calls may run in between, as long as they neither evict nor
acknowledge the message and the consumer's channel stays open.
-/

namespace CipherMQ

open ServerState

namespace Broker

/-- The step leaves a message alone and keeps a channel open. -/
def Undisturbed (messageId : String) (channel : ChannelId)
    (broker : Broker) : Event → Prop
  | .advance index _ =>
      ∀ call ∈ broker.calls[index]?, ¬ Disturbs messageId broker.shared call
  | .dropReceiver other => other ≠ channel
  | _ => True

instance (messageId : String) (channel : ChannelId) (broker : Broker)
    (event : Event) :
    Decidable (Undisturbed messageId channel broker event) :=
  match event with
  | .advance index _ =>
      inferInstanceAs (Decidable (∀ call ∈ broker.calls[index]?,
        ¬ Disturbs messageId broker.shared call))
  | .dropReceiver other => inferInstanceAs (Decidable (other ≠ channel))
  | .invoke _ => instDecidableTrue
  | .markDelivered _ _ => instDecidableTrue
  | .runDeliveryTask _ => instDecidableTrue
  | .bookkeep _ _ => instDecidableTrue

/-- A call after a step is as before, or it is the one that advanced. -/
theorem call_after_step {before after : Broker} {event : Event} {index : Nat}
    {call : Call} (found : before.calls[index]? = some call)
    (stepTo : before.step event = some after) :
    after.calls[index]? = some call ∨
      ∃ reading, event = .advance index reading ∧
        after.calls[index]? =
          some (call.advance reading before.shared).2 ∧
        after.shared = (call.advance reading before.shared).1 := by
  rcases step_cases stepTo with
    ⟨invocation, -, rfl⟩ |
    ⟨other, reading, otherCall, rfl, otherFound, -, rfl⟩ |
    ⟨messageId, reading, -, rfl⟩ | ⟨channel, -, rfl⟩ | ⟨other, -, rfl⟩ |
    ⟨_, _, -, rfl⟩
  · left
    exact getElem?_append_kept found _
  · by_cases same : index = other
    · subst same
      rw [found] at otherFound
      cases otherFound
      right
      exact ⟨reading, rfl, getElem?_set_moved found _, rfl⟩
    · left
      exact (List.getElem?_set_ne (Ne.symm same)).trans found
  · exact Or.inl found
  · exact Or.inl found
  · exact Or.inl found
  · exact Or.inl found

section HandOff

variable (queueName : String) (channel : ChannelId) (entry : QueueEntry)

def Stored (state : ServerState) : Prop :=
  ∃ queue, state.queues queueName = some queue ∧ entry ∈ queue

def Pending (state : ServerState) (position : Nat) : Prop :=
  ∃ task, state.deliveryTasks[position]? = some task ∧
    task.channel = channel ∧ task.source = queueName ∧
      entry ∈ task.remaining

/-- The entry was sent on behalf of the queue after `initial`. -/
def SentSince (initial sent : List Delivery) : Prop :=
  ∃ more, sent = initial ++ more ∧ ⟨queueName, entry.1, entry.2⟩ ∈ more

/-- What every undisturbed step leaves in place. -/
structure Frame (before after : ServerState) : Prop where
  stored : Stored queueName entry before → Stored queueName entry after
  live : before.deliverable entry = true → after.deliverable entry = true
  consumer : channel ∈ (before.consumers queueName).getD [] →
    channel ∈ (after.consumers queueName).getD []
  stays_open : (after.channels channel).closed = false
  sent_grows : ∃ more, (after.channels channel).sent =
    (before.channels channel).sent ++ more
  bound : ∀ exchangeName routingKey,
    before.Bound exchangeName routingKey queueName →
      after.Bound exchangeName routingKey queueName
  present : (before.queues queueName).isSome →
    (after.queues queueName).isSome
  pending : ∀ position, Pending queueName channel entry before position →
    Pending queueName channel entry after position ∨
      SentSince queueName entry (before.channels channel).sent
        (after.channels channel).sent

variable {queueName channel entry}

theorem SentSince.append {initial sent : List Delivery}
    (handed : SentSince queueName entry initial sent)
    (more : List Delivery) :
    SentSince queueName entry initial (sent ++ more) := by
  obtain ⟨already, rfl, member⟩ := handed
  exact ⟨already ++ more, List.append_assoc _ _ _,
    List.mem_append_left _ member⟩

theorem push_sent {source : Channel} (isOpen : source.closed = false)
    (deliveries : List Delivery) :
    (source.push deliveries).sent = source.sent ++ deliveries := by
  simp [Channel.push, isOpen]

theorem frame_advance {state : ServerState} {call : Call}
    (reading : Reading) (isOpen : (state.channels channel).closed = false)
    (undisturbed : ¬ Disturbs entry.1 state call) :
    Frame queueName channel entry state
      (call.advance reading state).1 := by
  have access := access_advance reading state call
  obtain ⟨more, pushed⟩ := access.channel_push channel
  obtain ⟨tasks, spawned⟩ := access.tasks_append
  constructor
  case stored => exact access.entry_kept undisturbed
  case live => exact access.deliverable_kept undisturbed
  case consumer => exact access.consumer_kept isOpen
  case stays_open => rw [pushed, Channel.push_closed, isOpen]
  case sent_grows => exact ⟨more, by rw [pushed, push_sent isOpen]⟩
  case bound => exact fun _ _ => access.bound
  case present => exact access.queues_isSome
  case pending =>
    rintro position ⟨task, found, isTask⟩
    left
    refine ⟨task, ?_, isTask⟩
    rw [spawned]
    exact getElem?_append_kept found _

/-- Stepping tasks keeps an entry waiting unless it is the one sent. -/
theorem frame_runDeliveryTask {state : ServerState} (index : Nat)
    (isOpen : (state.channels channel).closed = false) :
    Frame queueName channel entry state (state.runDeliveryTask index) := by
  rcases runDeliveryTask_cases state index with
    same | ⟨task, front, rest, found, remaining, ran⟩
  · rw [same]
    exact ⟨id, id, id, isOpen, ⟨[], by simp⟩, fun _ _ => id, id,
      fun _ => Or.inl⟩
  · rw [ran]
    constructor
    case stored => exact id
    case live => exact id
    case consumer => exact id
    case bound => exact fun _ _ => id
    case present => exact id
    case stays_open =>
      by_cases same : channel = task.channel
      · subst same
        simpa using isOpen
      · simpa [same] using isOpen
    case sent_grows =>
      by_cases same : channel = task.channel
      · subst same
        exact ⟨[⟨task.source, front.1, front.2⟩], by
          simp [push_sent isOpen]⟩
      · exact ⟨[], by simp [same]⟩
    case pending =>
      rintro position ⟨waiting, waitingFound, sameChannel, sameSource, member⟩
      by_cases same : position = index
      · subst same
        rw [found] at waitingFound
        cases waitingFound
        rw [remaining] at member
        rcases List.mem_cons.mp member with rfl | inRest
        · right
          refine ⟨[⟨task.source, entry.1, entry.2⟩], ?_, ?_⟩
          · subst sameChannel
            simp [push_sent isOpen]
          · simp [sameSource]
        · left
          refine ⟨_, getElem?_set_moved found _, sameChannel, sameSource,
            ?_⟩
          subst sameChannel
          simpa [isOpen] using inRest
      · left
        refine ⟨waiting, ?_, sameChannel, sameSource, member⟩
        exact (List.getElem?_set_ne (Ne.symm same)).trans waitingFound

theorem frame_step {before after : Broker} {event : Event}
    (isOpen : (before.shared.channels channel).closed = false)
    (undisturbed : Undisturbed entry.1 channel before event)
    (stepTo : before.step event = some after) :
    Frame queueName channel entry before.shared after.shared := by
  have unchanged : Frame queueName channel entry before.shared
      before.shared :=
    ⟨id, id, id, isOpen, ⟨[], by simp⟩, fun _ _ => id, id, fun _ => Or.inl⟩
  rcases step_cases stepTo with
    ⟨invocation, -, rfl⟩ | ⟨index, reading, call, rfl, found, -, rfl⟩ |
    ⟨messageId, reading, -, rfl⟩ | ⟨other, rfl, rfl⟩ | ⟨index, -, rfl⟩ |
    ⟨_, _, -, rfl⟩
  · exact unchanged
  · exact frame_advance reading isOpen (undisturbed call found)
  · obtain ⟨messageStatus, storage, marked, sameStatus⟩ :=
      markDelivered_frame before.shared messageId reading.now reading.time
    rw [marked]
    refine { unchanged with live := ?_ }
    intro live
    simpa only [deliverable, sameStatus] using live
  · have different : channel ≠ other := Ne.symm undisturbed
    have same : (before.shared.dropReceiver other).channels channel =
        before.shared.channels channel := by
      simp [ServerState.dropReceiver, different]
    refine ⟨id, id, id, ?_, ?_, fun _ _ => id, id, fun _ => Or.inl⟩
    · rw [same]
      exact isOpen
    · exact ⟨[], by simp [same]⟩
  · exact frame_runDeliveryTask index isOpen
  · exact { unchanged with }

/-! ## The registration -/

def RegisterAdded : RegisterPoint → Prop
  | .declareQueue => False
  | .addConsumer => False
  | _ => True

/-- The registration still gets hold of an entry that is in the queue with a
live status from now on, or it has it already. -/
def Captures (queueName : String) (channel : ChannelId) (entry : QueueEntry)
    (state : ServerState) : RegisterPoint → Prop
  | .declareQueue => True
  | .addConsumer => True
  | .readQueue => True
  | .readStatus captured unread => entry ∈ captured ∨ entry ∈ unread
  | .returned (some position) =>
      Pending queueName channel entry state position
  | .returned none => False

structure Subscribing (queueName : String) (channel : ChannelId)
    (index : Nat) (initial : List Delivery) (point : RegisterPoint)
    (broker : Broker) : Prop where
  at_point : broker.calls[index]? =
    some (.registerConsumer queueName channel point)
  stays_open : (broker.shared.channels channel).closed = false
  sent_grows : ∃ more,
    (broker.shared.channels channel).sent = initial ++ more
  consumer : RegisterAdded point →
    channel ∈ (broker.shared.consumers queueName).getD []

theorem consumer_registerConsumerStep {state after : ServerState}
    {point next : RegisterPoint}
    (advances : state.registerConsumerStep queueName channel point =
      (after, next))
    (consumer : RegisterAdded point →
      channel ∈ (state.consumers queueName).getD []) :
    RegisterAdded next →
      channel ∈ (after.consumers queueName).getD [] := by
  intro added
  cases point with
  | declareQueue =>
      cases advances
      exact added.elim
  | addConsumer =>
      cases advances
      simp [ServerState.addConsumer]
  | readQueue =>
      simp only [registerConsumerStep] at advances
      split at advances
      · split at advances
        · cases advances
          exact consumer trivial
        · cases advances
          exact consumer trivial
      · cases advances
        exact consumer trivial
  | readStatus captured unread =>
      cases unread with
      | nil =>
          cases advances
          exact consumer trivial
      | cons front unread =>
          simp only [registerConsumerStep] at advances
          split at advances
          · cases advances
            exact consumer trivial
          · cases advances
            exact consumer trivial
  | returned task =>
      cases advances
      exact consumer trivial

theorem Subscribing.step {before after : Broker} {event : Event}
    {index : Nat} {initial : List Delivery} {point : RegisterPoint}
    (subscribing :
      Subscribing queueName channel index initial point before)
    (carried : QueueEntry)
    (undisturbed : Undisturbed carried.1 channel before event)
    (stepTo : before.step event = some after) :
    (after.calls[index]? = before.calls[index]? ∧
      Subscribing queueName channel index initial point after) ∨
    ∃ reading next, event = .advance index reading ∧
      before.shared.registerConsumerStep queueName channel point =
        (after.shared, next) ∧
      Subscribing queueName channel index initial next after := by
  have frame : Frame queueName channel carried before.shared after.shared :=
    frame_step subscribing.stays_open undisturbed stepTo
  have grown : ∃ more,
      (after.shared.channels channel).sent = initial ++ more := by
    obtain ⟨already, sentBefore⟩ := subscribing.sent_grows
    obtain ⟨more, sentAfter⟩ := frame.sent_grows
    exact ⟨already ++ more, by
      rw [sentAfter, sentBefore, List.append_assoc]⟩
  rcases call_after_step subscribing.at_point stepTo with
    kept | ⟨reading, rfl, moved, shared⟩
  · left
    exact ⟨kept.trans subscribing.at_point.symm, kept, frame.stays_open,
      grown, fun added => frame.consumer (subscribing.consumer added)⟩
  · right
    have advances : before.shared.registerConsumerStep queueName channel
        point = (after.shared, (before.shared.registerConsumerStep queueName
          channel point).2) := by
      rw [shared]
      rfl
    exact ⟨reading, _, rfl, advances, moved, frame.stays_open, grown,
      consumer_registerConsumerStep advances subscribing.consumer⟩

/-! ## The publish -/

def Pushed (queueName : String) : PublishPoint → Prop
  | .enqueue _ _ remaining => queueName ∉ remaining
  | .evictIndex _ _ remaining _ _ => queueName ∉ remaining
  | .evictStatus _ _ remaining _ => queueName ∉ remaining
  | .insertStatus _ => True
  | .notify _ => True
  | .returned (.ok ()) => True
  | _ => False

def Recorded : PublishPoint → Prop
  | .notify _ => True
  | .returned (.ok ()) => True
  | _ => False

def Notified (queueName : String) : PublishPoint → Prop
  | .notify remaining => queueName ∉ remaining
  | .returned (.ok ()) => True
  | _ => False

def Routed (queueName : String) (request : PublishRequest)
    (state : ServerState) : PublishPoint → Prop
  | .findTargets =>
      state.Bound request.exchangeName request.routingKey queueName
  | .enqueue targets _ _ => queueName ∈ targets
  | .evictIndex targets _ _ _ _ => queueName ∈ targets
  | .evictStatus targets _ _ _ => queueName ∈ targets
  | .insertStatus targets => queueName ∈ targets
  | .notify _ => True
  | .returned _ => True
  | _ => False

/-- How far the publish and the registration have got with the message. -/
structure Progress (queueName : String) (channel : ChannelId)
    (request : PublishRequest) (initial : List Delivery)
    (registerPoint : RegisterPoint) (state : ServerState)
    (point : PublishPoint) : Prop where
  present : (state.queues queueName).isSome
  routed : Routed queueName request state point
  stored : Pushed queueName point →
    Stored queueName (request.message.messageId, request.message) state
  live : Recorded point →
    state.deliverable (request.message.messageId, request.message) = true
  handed : Notified queueName point →
    SentSince queueName (request.message.messageId, request.message) initial
        (state.channels channel).sent ∨
      Captures queueName channel
        (request.message.messageId, request.message) state registerPoint

theorem Routed.frame {request : PublishRequest} {before after : ServerState}
    {point : PublishPoint}
    (frame : Frame queueName channel entry before after)
    (routed : Routed queueName request before point) :
    Routed queueName request after point := by
  cases point with
  | findTargets => exact frame.bound _ _ routed
  | _ => exact routed

theorem handed_frame {before after : ServerState} {initial : List Delivery}
    {registerPoint : RegisterPoint}
    (frame : Frame queueName channel entry before after)
    (grown : ∃ more, (before.channels channel).sent = initial ++ more)
    (handed : SentSince queueName entry initial
        (before.channels channel).sent ∨
      Captures queueName channel entry before registerPoint) :
    SentSince queueName entry initial (after.channels channel).sent ∨
      Captures queueName channel entry after registerPoint := by
  rcases handed with sent | captures
  · left
    obtain ⟨more, grows⟩ := frame.sent_grows
    rw [grows]
    exact sent.append more
  · cases registerPoint with
    | returned task =>
        cases task with
        | none => exact captures.elim
        | some position =>
            rcases frame.pending position captures with pending | sent
            · exact Or.inr pending
            · left
              obtain ⟨already, sentBefore⟩ := grown
              obtain ⟨more, sentAfter, member⟩ := sent
              refine ⟨already ++ more, ?_, List.mem_append_right _ member⟩
              rw [sentAfter, sentBefore, List.append_assoc]
    | _ => exact Or.inr captures

/-- Notifying a queue reaches every consumer registered on it. -/
theorem sentSince_notified {state : ServerState}
    {message : EncryptedInputData} {initial : List Delivery}
    (isOpen : (state.channels channel).closed = false)
    (grown : ∃ more, (state.channels channel).sent = initial ++ more)
    (registered : channel ∈ (state.consumers queueName).getD []) :
    SentSince queueName (message.messageId, message) initial
      ((state.notified message [queueName]).channels channel).sent := by
  obtain ⟨already, sentBefore⟩ := grown
  refine ⟨already ++ state.copies message [queueName] channel, ?_, ?_⟩
  · change ((state.channels channel).push _).sent = _
    rw [push_sent isOpen, sentBefore, List.append_assoc]
  · refine List.mem_append_right _ ?_
    simp only [copies, List.flatMap_cons, List.flatMap_nil, List.append_nil,
      List.mem_replicate, and_true]
    exact Nat.pos_iff_ne_zero.mp (List.count_pos_iff.mpr registered)

section Steps

variable {request : PublishRequest} {initial : List Delivery}
  {registerPoint : RegisterPoint} {before after : ServerState}
  {point : PublishPoint}
  (progress : Progress queueName channel request initial registerPoint before
    point)
  (frame : Frame queueName channel
    (request.message.messageId, request.message) before after)

include progress frame

theorem Progress.of_frame
    (grown : ∃ more, (before.channels channel).sent = initial ++ more) :
    Progress queueName channel request initial registerPoint after point where
  present := frame.present progress.present
  routed := progress.routed.frame frame
  stored pushed := frame.stored (progress.stored pushed)
  live recorded := frame.live (progress.live recorded)
  handed notified := handed_frame frame grown (progress.handed notified)

theorem Progress.register_step {next : RegisterPoint}
    (advances : before.registerConsumerStep queueName channel registerPoint =
      (after, next)) :
    Progress queueName channel request initial next after point := by
  refine ⟨frame.present progress.present, progress.routed.frame frame,
    fun pushed => frame.stored (progress.stored pushed),
    fun recorded => frame.live (progress.live recorded), ?_⟩
  intro notified
  have recorded : Recorded point ∧ Pushed queueName point := by
    cases point with
    | notify remaining => exact ⟨trivial, trivial⟩
    | returned result =>
        cases result with
        | error error => exact notified.elim
        | ok value => exact ⟨trivial, trivial⟩
    | _ => exact notified.elim
  have stored := progress.stored recorded.2
  have live := progress.live recorded.1
  rcases progress.handed notified with sent | captures
  · left
    obtain ⟨more, grows⟩ := frame.sent_grows
    rw [grows]
    exact sent.append more
  · right
    cases registerPoint with
    | declareQueue =>
        cases advances
        trivial
    | addConsumer =>
        cases advances
        trivial
    | readQueue =>
        -- The copy is taken while the entry is in the queue.
        obtain ⟨queue, found, member⟩ := stored
        simp only [registerConsumerStep, found,
          List.length_pos_of_mem member, if_true] at advances
        cases advances
        exact Or.inr member
    | readStatus captured unread =>
        cases unread with
        | nil =>
            cases advances
            refine ⟨⟨channel, queueName, captured⟩, ?_, rfl, rfl, ?_⟩
            · simp [ServerState.spawn]
            · simpa [Captures] using captures
        | cons front unread =>
            simp only [registerConsumerStep] at advances
            split at advances
            · cases advances
              rcases captures with already | later
              · exact Or.inl (List.mem_append_left _ already)
              · rcases List.mem_cons.mp later with rfl | still
                · exact Or.inl (by simp)
                · exact Or.inr still
            · rename_i notLive
              cases advances
              rcases captures with already | later
              · exact Or.inl already
              · rcases List.mem_cons.mp later with rfl | still
                · exact (notLive live).elim
                · exact Or.inr still
    | returned task =>
        cases advances
        exact captures

theorem Progress.publish_step {reading : Reading} {next : PublishPoint}
    (isOpen : (before.channels channel).closed = false)
    (grown : ∃ more, (before.channels channel).sent = initial ++ more)
    (consumer : RegisterAdded registerPoint →
      channel ∈ (before.consumers queueName).getD [])
    (advances : before.publishStep request reading point = (after, next)) :
    Progress queueName channel request initial registerPoint after next := by
  have present := frame.present progress.present
  cases point with
  | checkDuplicate => exact progress.routed.elim
  | saveMetadata => exact progress.routed.elim
  | findTargets =>
      have target := (mem_targetQueues before _ _ _).mpr progress.routed
      simp only [publishStep] at advances
      split at advances
      · rename_i unbound
        simp only [List.isEmpty_iff] at unbound
        rw [unbound] at target
        cases target
      · cases advances
        exact ⟨present, target, fun pushed => (pushed target).elim, False.elim,
          False.elim⟩
  | enqueue targets queueSet remaining =>
      cases remaining with
      | nil =>
          cases advances
          exact ⟨present, progress.routed,
            fun _ => frame.stored (progress.stored (by simp [Pushed])),
            False.elim, False.elim⟩
      | cons front remaining =>
          have stored : queueName ∉ remaining →
              Stored queueName (request.message.messageId, request.message)
                after := by
            intro visited
            by_cases same : queueName = front
            · subst same
              obtain ⟨queue, found⟩ :=
                Option.isSome_iff_exists.mp progress.present
              simp only [publishStep, found] at advances
              split at advances
              · cases advances
                exact ⟨_, by simp; rfl, by simp⟩
              · cases advances
                exact ⟨_, by simp; rfl, by simp⟩
            · exact frame.stored
                (progress.stored (by simp [Pushed, same, visited]))
          have routed : queueName ∈ targets := progress.routed
          simp only [publishStep] at advances
          split at advances
          · cases advances
            exact ⟨present, routed, stored, False.elim, False.elim⟩
          · split at advances
            · cases advances
              exact ⟨present, routed, stored, False.elim, False.elim⟩
            · cases advances
              exact ⟨present, routed, stored, False.elim, False.elim⟩
  | evictIndex targets queueSet remaining front oldMessageId =>
      cases advances
      exact ⟨present, progress.routed,
        fun pushed => frame.stored (progress.stored pushed),
        False.elim, False.elim⟩
  | evictStatus targets queueSet remaining oldMessageId =>
      cases advances
      exact ⟨present, progress.routed,
        fun pushed => frame.stored (progress.stored pushed),
        False.elim, False.elim⟩
  | insertStatus targets =>
      cases advances
      refine ⟨present, trivial,
        fun _ => frame.stored (progress.stored trivial), ?_, ?_⟩
      · intro _
        simp [deliverable]
      · intro notified
        exact (notified progress.routed).elim
  | notify remaining =>
      have stored := frame.stored (progress.stored trivial)
      have live := frame.live (progress.live trivial)
      cases remaining with
      | nil =>
          cases advances
          refine ⟨present, trivial, fun _ => stored, fun _ => live, ?_⟩
          intro _
          exact progress.handed (by simp [Notified])
      | cons front remaining =>
          simp only [publishStep, notifyConsumers_eq] at advances
          cases advances
          refine ⟨present, trivial, fun _ => stored, fun _ => live, ?_⟩
          intro visited
          by_cases same : queueName = front
          · subst same
            by_cases added : RegisterAdded registerPoint
            · left
              exact sentSince_notified isOpen grown (consumer added)
            · right
              -- The consumer is added, and the queue copied, only later.
              cases registerPoint with
              | declareQueue => trivial
              | addConsumer => trivial
              | _ => exact (added trivial).elim
          · have before : Notified queueName
                (.notify (front :: remaining)) := by
              simpa [Notified, same] using visited
            exact handed_frame frame grown (progress.handed before)
  | returned result =>
      cases advances
      exact progress

end Steps

/-- The publish and the registration on their way, somewhere in their
programs. -/
def HandOff (queueName : String) (channel : ChannelId)
    (request : PublishRequest) (publisher subscriber : Nat)
    (initial : List Delivery) (broker : Broker) : Prop :=
  ∃ point registerPoint,
    broker.calls[publisher]? = some (.publish request point) ∧
      Subscribing queueName channel subscriber initial registerPoint broker ∧
      Progress queueName channel request initial registerPoint broker.shared
        point

theorem HandOff.step {request : PublishRequest} {publisher subscriber : Nat}
    {initial : List Delivery} {before after : Broker} {event : Event}
    (handOff : HandOff queueName channel request publisher subscriber initial
      before)
    (undisturbed :
      Undisturbed request.message.messageId channel before event)
    (stepTo : before.step event = some after) :
    HandOff queueName channel request publisher subscriber initial after := by
  obtain ⟨point, registerPoint, publishing, subscribing, progress⟩ := handOff
  have frame : Frame queueName channel
      (request.message.messageId, request.message) before.shared
        after.shared :=
    frame_step subscribing.stays_open undisturbed stepTo
  have different : publisher ≠ subscriber := by
    rintro rfl
    have same := publishing.symm.trans subscribing.at_point
    cases same
  have registered := subscribing.step
    (request.message.messageId, request.message) undisturbed stepTo
  rcases call_after_step publishing stepTo with
    kept | ⟨reading, rfl, moved, shared⟩
  · rcases registered with
      ⟨-, subscribing'⟩ | ⟨reading, next, -, advances, subscribing'⟩
    · exact ⟨point, registerPoint, kept, subscribing',
        progress.of_frame frame subscribing.sent_grows⟩
    · exact ⟨point, next, kept, subscribing',
        progress.register_step frame advances⟩
  · rcases registered with ⟨-, subscribing'⟩ | ⟨_, _, sameEvent, -⟩
    · have advances : before.shared.publishStep request reading point =
          (after.shared,
            (before.shared.publishStep request reading point).2) := by
        rw [shared]
        rfl
      exact ⟨_, registerPoint, moved, subscribing',
        progress.publish_step frame subscribing.stays_open
          subscribing.sent_grows subscribing.consumer advances⟩
    · cases sameEvent
      exact (different rfl).elim

/-- In every interleaving of a publish and a registration on one of its target
queues, with any other calls beside them that leave the message alone, the
message is on the consumer's channel once both have finished. -/
theorem sent_of_handOff {maxQueueSize : Nat} {start reading final : Broker}
    (reached : Reachable step (new maxQueueSize) start)
    {request : PublishRequest} {publisher subscriber : Nat}
    (subscribes : start.calls[subscriber]? =
      some (.registerConsumer queueName channel .declareQueue))
    (isOpen : (start.shared.channels channel).closed = false)
    (first : ReachableWhile step
      (Undisturbed request.message.messageId channel) start reading)
    (readsBindings : reading.calls[publisher]? =
      some (.publish request .findTargets))
    (bound : reading.shared.Bound request.exchangeName request.routingKey
      queueName)
    (rest : ReachableWhile step
      (Undisturbed request.message.messageId channel) reading final)
    (published : final.calls[publisher]? =
      some (.publish request (.returned (.ok ()))))
    {task : Option Nat}
    (subscribed : final.calls[subscriber]? =
      some (.registerConsumer queueName channel (.returned task)))
    (drained : ∀ position spawned, task = some position →
      final.shared.deliveryTasks[position]? = some spawned →
        spawned.remaining = []) :
    ∃ more, (final.shared.channels channel).sent =
        (start.shared.channels channel).sent ++ more ∧
      ⟨queueName, request.message.messageId, request.message⟩ ∈ more := by
  -- Up to the reading of the bindings only the registration matters.
  have subscribing : ∃ registerPoint, Subscribing queueName channel subscriber
      (start.shared.channels channel).sent registerPoint reading := by
    refine first.invariant
      (fun broker => ∃ registerPoint, Subscribing queueName channel subscriber
        (start.shared.channels channel).sent registerPoint broker)
      ⟨.declareQueue, subscribes, isOpen, ⟨[], by simp⟩, False.elim⟩ ?_
    rintro before event after ⟨registerPoint, subscribing⟩ undisturbed stepTo
    rcases subscribing.step (request.message.messageId, request.message)
        undisturbed stepTo with ⟨-, kept⟩ | ⟨-, next, -, -, moved⟩
    · exact ⟨registerPoint, kept⟩
    · exact ⟨next, moved⟩
  obtain ⟨registerPoint, subscribing⟩ := subscribing
  have readingReached : Reachable step (new maxQueueSize) reading :=
    reached.trans (first.mono fun _ _ _ => trivial)
  have topology := (wellFormed_of_reachable readingReached).topology
  have atReading : HandOff queueName channel request publisher subscriber
      (start.shared.channels channel).sent reading :=
    ⟨.findTargets, registerPoint, readsBindings, subscribing,
      topology.bound_exists _ _ _ bound, bound,
      False.elim, False.elim, False.elim⟩
  obtain ⟨point, finalPoint, publishing, finalSubscribing, progress⟩ :=
    rest.invariant _ atReading
      fun before event after handOff undisturbed stepTo =>
        handOff.step undisturbed stepTo
  rw [published] at publishing
  cases publishing
  have samePoint := finalSubscribing.at_point
  rw [subscribed] at samePoint
  cases samePoint
  rcases progress.handed trivial with sent | captures
  · exact sent
  · cases task with
    | none => exact captures.elim
    | some position =>
        obtain ⟨spawned, found, -, -, member⟩ := captures
        rw [drained position spawned rfl found] at member
        cases member

end HandOff

/-- A publish and a registration on a bound queue, both about to start. -/
def handOffStart : List Event :=
  [.invoke (.declareQueue "q"), .advance 0 savedReading,
    .invoke (.declareExchange "e"), .advance 1 savedReading,
    .invoke (.bindQueue "q" "e" "k")] ++ accesses 2 3 ++
  [.invoke (.publish (sampleRequest "m" "sender_1")),
    .invoke (.registerConsumer "q" 0)]

/-- The notification comes before the consumer is added, and the registration
picks the message up from the queue. -/
theorem sent_of_handOff_lateConsumer :
    ∃ start final, Reachable step (new 10) start ∧
      ReachableWhile step (Undisturbed "m" 0) start final ∧
      ∃ more, (final.shared.channels 0).sent =
          (start.shared.channels 0).sent ++ more ∧
        ⟨"q", "m", sampleMessage "m"⟩ ∈ more := by
  have ran : ((executeWhile step (fun _ _ => True) (new 10)
      handOffStart).bind fun start =>
        (executeWhile step (Undisturbed "m" 0) start
          (accesses 3 2)).bind fun reading =>
          (executeWhile step (Undisturbed "m" 0) reading
            (accesses 3 6 ++ accesses 4 5 ++
              [.runDeliveryTask 0])).map fun final =>
            ((start.calls[4]?, (start.shared.channels 0).closed),
              (reading.calls[3]?, reading.shared.bindings "e"),
              final.calls[3]?, final.calls[4]?,
              final.shared.deliveryTasks.map DeliveryTask.remaining)) =
      some ((some (.registerConsumer "q" 0 .declareQueue), false),
        (some (.publish (sampleRequest "m" "sender_1") .findTargets),
          some [("q", "k")]),
        some (.publish (sampleRequest "m" "sender_1") (.returned (.ok ()))),
        some (.registerConsumer "q" 0 (.returned (some 0))), [[]]) := by
    rfl
  obtain ⟨start, started, ran⟩ := Option.bind_eq_some_iff.mp ran
  obtain ⟨reading, read, ran⟩ := Option.bind_eq_some_iff.mp ran
  obtain ⟨final, rest, ran⟩ := exists_reachableWhile_of_map ran
  simp only [Prod.mk.injEq] at ran
  obtain ⟨⟨subscribes, isOpen⟩, ⟨readsBindings, bindings⟩, published,
    subscribed, tasks⟩ := ran
  have reached : Reachable step (new 10) start :=
    reachableWhile_of_executeWhile started
  have first := reachableWhile_of_executeWhile read
  refine ⟨start, final, reached, first.trans rest, ?_⟩
  refine sent_of_handOff reached subscribes isOpen first readsBindings
    ⟨_, bindings, by simp [sampleRequest]⟩ rest published subscribed ?_
  intro position spawned _ found
  have member : spawned.remaining ∈
      final.shared.deliveryTasks.map DeliveryTask.remaining :=
    List.mem_map_of_mem (List.mem_of_getElem? found)
  rw [tasks, List.mem_singleton] at member
  exact member

end Broker

end CipherMQ
