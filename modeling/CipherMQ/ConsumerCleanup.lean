import CipherMQ.CallEffects
import CipherMQ.Registrations

/-!
# Cleaning up dead consumers

A task goes over the lists of consumers from time to time.  It drops the
closed senders from every list and remembers the queues whose lists are empty
then; once it has seen all lists it removes those of the queues it remembers,
by their names.  A consumer that registers in between is on a list that was
found empty, and goes with it: its connection stays open and is sent nothing.

The lists keep every consumer with an open channel along exactly those runs in
which each list that is removed still holds no open sender.
-/

namespace CipherMQ

open ServerState

/-- Where the task stands.  `emptyQueues` are the queues whose lists it has
found to be empty. -/
inductive CleanupPoint where
  | sleeping
  | scanning (visited emptyQueues : List String)
  | removing (emptyQueues : List String)
  deriving DecidableEq, Repr

structure CleanedBroker where
  broker : Broker
  cleanup : CleanupPoint

namespace ServerState

def retainOpen (state : ServerState) (queueName : String) : ServerState :=
  { state with
    consumers := state.consumers.modify queueName state.openSenders }

def removeConsumers (state : ServerState) (queueName : String) :
    ServerState :=
  { state with consumers := state.consumers.remove queueName }

end ServerState

/-- The consumers of a queue, of which there are none without a list. -/
def Broker.consumersOf (broker : Broker) (queueName : String) :
    List ChannelId :=
  (broker.shared.consumers queueName).getD []

namespace CleanedBroker

def new (maxQueueSize : Nat) : CleanedBroker :=
  ⟨.new maxQueueSize, .sleeping⟩

/-- What can happen next: something in the broker, or the task goes on.  The
task comes to every list at most once, and to one that is added while it looks
at the lists or not. -/
inductive Event where
  | broker (event : Broker.Event)
  | startPass
  | retain (queueName : String)
  | endScan
  | removeNext

def step (cleaned : CleanedBroker) : Event → Option CleanedBroker
  | .broker event =>
      (cleaned.broker.step event).map fun broker =>
        { cleaned with broker := broker }
  | .startPass =>
      match cleaned.cleanup with
      | .sleeping => some { cleaned with cleanup := .scanning [] [] }
      | _ => none
  | .retain queueName =>
      match cleaned.cleanup, cleaned.broker.shared.consumers queueName with
      | .scanning visited emptyQueues, some senders =>
          if queueName ∈ visited then
            none
          else
            some
              { broker :=
                  { cleaned.broker with
                    shared := cleaned.broker.shared.retainOpen queueName }
                cleanup := .scanning (visited ++ [queueName])
                  (if (cleaned.broker.shared.openSenders senders).isEmpty then
                    emptyQueues ++ [queueName]
                  else
                    emptyQueues) }
      | _, _ => none
  | .endScan =>
      match cleaned.cleanup with
      | .scanning _ emptyQueues =>
          some { cleaned with cleanup := .removing emptyQueues }
      | _ => none
  | .removeNext =>
      match cleaned.cleanup with
      | .removing (queueName :: emptyQueues) =>
          some
            { broker :=
                { cleaned.broker with
                  shared :=
                    cleaned.broker.shared.removeConsumers queueName }
              cleanup := .removing emptyQueues }
      | .removing [] => some { cleaned with cleanup := .sleeping }
      | _ => none

/-- Every consumer that was added to a queue and whose channel is open is on
the list of the queue. -/
def KeepsConsumers (cleaned : CleanedBroker) : Prop :=
  ∀ queueName sender point,
    .registerConsumer queueName sender point ∈ cleaned.broker.calls →
      point.hasJoined = true →
        (cleaned.broker.shared.channels sender).closed = false →
          sender ∈ cleaned.broker.consumersOf queueName

def RemovesDead (cleaned : CleanedBroker) : Event → Prop
  | .removeNext =>
      match cleaned.cleanup with
      | .removing (queueName :: _) =>
          ∀ sender ∈ cleaned.broker.consumersOf queueName,
            (cleaned.broker.shared.channels sender).closed = true
      | _ => True
  | _ => True

def Listed (cleaned : CleanedBroker) : Prop :=
  ∀ queueName, ∀ sender ∈ cleaned.broker.consumersOf queueName,
    ∃ point, .registerConsumer queueName sender point ∈
      cleaned.broker.calls ∧ point.hasJoined = true

end CleanedBroker

/-! ## What the calls do to the lists -/

/-- An access adds a consumer to a list only for its registration. -/
theorem Access.consumer_cases {before after : ServerState} {call : Call}
    (access : Access before call after) {queueName : String}
    {sender : ChannelId}
    (listed : sender ∈ (after.consumers queueName).getD []) :
    sender ∈ (before.consumers queueName).getD [] ∨
      call = .registerConsumer queueName sender .addConsumer := by
  cases access with
  | notify request other remaining =>
      left
      cases found : before.consumers queueName with
      | none => simp [notified, found] at listed
      | some senders =>
          simp only [notified, found, Option.map_some] at listed
          split at listed
          · exact (List.mem_filter.mp listed).1
          · exact listed
  | addConsumer other added =>
      by_cases same : queueName = other
      · subst same
        simp only [ServerState.addConsumer, KeyMap.insert_self,
          Option.getD_some, List.mem_append, List.mem_singleton] at listed
        rcases listed with old | rfl
        · exact .inl old
        · exact .inr rfl
      · left
        simpa [ServerState.addConsumer, same] using listed
  | _ => exact .inl listed

/-- A registration that advances stays one.  It has joined the queue if it had
before or was about to. -/
theorem Call.advance_register (reading : Reading) (state : ServerState)
    (queueName : String) (sender : ChannelId) (point : RegisterPoint) :
    ∃ following,
      (Call.advance reading state
          (.registerConsumer queueName sender point)).2 =
        .registerConsumer queueName sender following ∧
      (following.hasJoined = true ↔
        point.hasJoined = true ∨ point = .addConsumer) := by
  refine ⟨(state.registerConsumerStep queueName sender point).2, rfl, ?_⟩
  cases point with
  | declareQueue => simp [registerConsumerStep, RegisterPoint.hasJoined]
  | addConsumer => simp [registerConsumerStep, RegisterPoint.hasJoined]
  | readQueue =>
      simp only [registerConsumerStep]
      split
      · split <;> simp [RegisterPoint.hasJoined]
      · simp [RegisterPoint.hasJoined]
  | readStatus captured unread =>
      cases unread with
      | nil => simp [registerConsumerStep, RegisterPoint.hasJoined]
      | cons entry unread =>
          simp only [registerConsumerStep]
          split <;> simp [RegisterPoint.hasJoined]
  | returned task => simp [registerConsumerStep, RegisterPoint.hasJoined]

theorem Call.register_of_advance {reading : Reading} {state : ServerState}
    {call : Call} {queueName : String} {sender : ChannelId}
    {following : RegisterPoint}
    (isRegister : (call.advance reading state).2 =
      .registerConsumer queueName sender following) :
    ∃ point, call = .registerConsumer queueName sender point := by
  cases call with
  | registerConsumer otherName otherSender point =>
      cases isRegister
      exact ⟨point, rfl⟩
  | declareQueue name point => cases point <;> cases isRegister
  | declareExchange name point => cases point <;> cases isRegister
  | bindQueue => cases isRegister
  | publish => cases isRegister
  | acknowledge => cases isRegister

namespace Broker

/-- The lists of consumers over a step of the broker: open channels were open,
registrations stay, and those who join are put on the list. -/
structure ListsConsumers (before after : Broker) : Prop where
  isOpen : ∀ sender, (after.shared.channels sender).closed = false →
    (before.shared.channels sender).closed = false
  kept : ∀ queueName, ∀ sender ∈ before.consumersOf queueName,
    (before.shared.channels sender).closed = false →
      sender ∈ after.consumersOf queueName
  joined : ∀ queueName sender point,
    .registerConsumer queueName sender point ∈ after.calls →
      point.hasJoined = true →
        sender ∈ after.consumersOf queueName ∨
          ∃ earlier, .registerConsumer queueName sender earlier ∈
            before.calls ∧ earlier.hasJoined = true
  stays : ∀ queueName sender point,
    .registerConsumer queueName sender point ∈ before.calls →
      point.hasJoined = true →
        ∃ later, .registerConsumer queueName sender later ∈ after.calls ∧
          later.hasJoined = true
  listed : ∀ queueName, ∀ sender ∈ after.consumersOf queueName,
    sender ∈ before.consumersOf queueName ∨
      ∃ point, .registerConsumer queueName sender point ∈ after.calls ∧
        point.hasJoined = true

theorem listsConsumers_advance {broker : Broker} {index : Nat} {call : Call}
    (found : broker.calls[index]? = some call) (reading : Reading) :
    ListsConsumers broker ⟨(call.advance reading broker.shared).1,
      broker.calls.set index (call.advance reading broker.shared).2⟩ := by
  have access := access_advance reading broker.shared call
  have isMember := List.mem_of_getElem? found
  have isAdvanced : (call.advance reading broker.shared).2 ∈
      broker.calls.set index (call.advance reading broker.shared).2 :=
    List.mem_of_getElem? (getElem?_set_moved found _)
  -- A registration that joins the queue now.
  have joins : ∀ queueName sender,
      call = .registerConsumer queueName sender .addConsumer →
        ∃ point, .registerConsumer queueName sender point ∈
          broker.calls.set index (call.advance reading broker.shared).2 ∧
            point.hasJoined = true := by
    intro queueName sender isJoin
    obtain ⟨following, isFollowing, hasJoined⟩ := Call.advance_register
      reading broker.shared queueName sender .addConsumer
    rw [← isJoin] at isFollowing
    rw [isFollowing] at isAdvanced ⊢
    exact ⟨following, isAdvanced, hasJoined.mpr (.inr rfl)⟩
  constructor
  · intro sender isOpen
    obtain ⟨more, pushed⟩ := access.channel_push sender
    dsimp only at isOpen
    rwa [pushed, Channel.push_closed] at isOpen
  · intro queueName sender listed isOpen
    exact access.consumer_kept isOpen listed
  · intro queueName sender point member hasJoined
    rcases List.mem_or_eq_of_mem_set member with old | isThis
    · exact .inr ⟨point, old, hasJoined⟩
    · obtain ⟨earlier, rfl⟩ := Call.register_of_advance isThis.symm
      obtain ⟨following, isFollowing, joined⟩ := Call.advance_register
        reading broker.shared queueName sender earlier
      rw [isFollowing] at isThis
      cases isThis
      rcases joined.mp hasJoined with already | rfl
      · exact .inr ⟨earlier, isMember, already⟩
      · left
        simp [consumersOf, Call.advance, registerConsumerStep, addConsumer]
  · intro queueName sender point member hasJoined
    obtain ⟨position, atPosition⟩ := List.getElem?_of_mem member
    by_cases isThis : position = index
    · subst isThis
      rw [found] at atPosition
      cases atPosition
      obtain ⟨following, isFollowing, joined⟩ := Call.advance_register
        reading broker.shared queueName sender point
      rw [isFollowing] at isAdvanced ⊢
      exact ⟨following, isAdvanced, joined.mpr (.inl hasJoined)⟩
    · refine ⟨point, ?_, hasJoined⟩
      apply List.mem_of_getElem? (i := position)
      rw [List.getElem?_set_ne (Ne.symm isThis)]
      exact atPosition
  · intro queueName sender listed
    rcases access.consumer_cases listed with old | isJoin
    · exact .inl old
    · exact .inr (joins queueName sender isJoin)

theorem listsConsumers_of_same {before after : Broker}
    (isOpen : ∀ sender, (after.shared.channels sender).closed = false →
      (before.shared.channels sender).closed = false)
    (consumers : after.shared.consumers = before.shared.consumers)
    (calls : after.calls = before.calls) :
    ListsConsumers before after := by
  have sameLists : ∀ queueName,
      after.consumersOf queueName = before.consumersOf queueName := by
    intro queueName
    unfold consumersOf
    rw [consumers]
  constructor
  · exact isOpen
  · intro queueName sender listed _
    rwa [sameLists]
  · intro queueName sender point member hasJoined
    rw [calls] at member
    exact .inr ⟨point, member, hasJoined⟩
  · intro queueName sender point member hasJoined
    rw [calls]
    exact ⟨point, member, hasJoined⟩
  · intro queueName sender listed
    rw [sameLists] at listed
    exact .inl listed

theorem listsConsumers_step {before after : Broker} {event : Event}
    (stepTo : before.step event = some after) :
    ListsConsumers before after := by
  rcases step_cases stepTo with
    ⟨invocation, -, rfl⟩ | ⟨index, reading, call, -, found, -, rfl⟩ |
    ⟨messageId, reading, -, rfl⟩ | ⟨channel, -, rfl⟩ | ⟨index, -, rfl⟩ |
    ⟨_, _, -, rfl⟩
  · constructor
    · exact fun _ isOpen => isOpen
    · exact fun _ _ listed _ => listed
    · intro queueName sender point member hasJoined
      rcases List.mem_append.mp member with old | started
      · exact .inr ⟨point, old, hasJoined⟩
      · rw [List.mem_singleton] at started
        cases invocation <;> cases started
        cases hasJoined
    · intro queueName sender point member hasJoined
      exact ⟨point, List.mem_append_left _ member, hasJoined⟩
    · exact fun _ _ listed => .inl listed
  · exact listsConsumers_advance found reading
  · obtain ⟨messageStatus, storage, marked, -⟩ :=
      markDelivered_frame before.shared messageId reading.now reading.time
    rw [marked]
    exact listsConsumers_of_same (fun _ isOpen => isOpen) rfl rfl
  · refine listsConsumers_of_same ?_ rfl rfl
    intro sender isOpen
    by_cases isThis : sender = channel
    · simp [dropReceiver, isThis] at isOpen
    · simpa [dropReceiver, isThis] using isOpen
  · rcases runDeliveryTask_cases before.shared index with
      same | ⟨task, entry, rest, -, -, ran⟩
    · rw [same]
      exact listsConsumers_of_same (fun _ isOpen => isOpen) rfl rfl
    · rw [ran]
      refine listsConsumers_of_same ?_ rfl rfl
      intro sender isOpen
      by_cases isThis : sender = task.channel
      · subst isThis
        simpa using isOpen
      · simpa [isThis] using isOpen
  · exact listsConsumers_of_same (fun _ isOpen => isOpen) rfl rfl

end Broker

namespace CleanedBroker

variable {before after : CleanedBroker} {event : Event}

/-- The shapes of a step: the broker moves, the task looks around, cleans a
list or removes one. -/
theorem step_cases (stepTo : before.step event = some after) :
    (∃ brokerEvent, event = .broker brokerEvent ∧
      before.broker.step brokerEvent = some after.broker) ∨
    (before.RemovesDead event ∧ after.broker = before.broker) ∨
    (∃ queueName, event = .retain queueName ∧
      after.broker =
        { before.broker with
          shared := before.broker.shared.retainOpen queueName }) ∨
    (∃ queueName emptyQueues, event = .removeNext ∧
      before.cleanup = .removing (queueName :: emptyQueues) ∧
      after.broker =
        { before.broker with
          shared := before.broker.shared.removeConsumers queueName }) := by
  cases event with
  | broker brokerEvent =>
      obtain ⟨broker, stepped, rfl⟩ := Option.map_eq_some_iff.mp stepTo
      exact .inl ⟨brokerEvent, rfl, stepped⟩
  | startPass =>
      simp only [step] at stepTo
      split at stepTo
      · cases stepTo
        exact .inr (.inl ⟨trivial, rfl⟩)
      · cases stepTo
  | retain queueName =>
      simp only [step] at stepTo
      split at stepTo
      · split at stepTo
        · cases stepTo
        · cases stepTo
          exact .inr (.inr (.inl ⟨queueName, rfl, rfl⟩))
      · cases stepTo
  | endScan =>
      simp only [step] at stepTo
      split at stepTo
      · cases stepTo
        exact .inr (.inl ⟨trivial, rfl⟩)
      · cases stepTo
  | removeNext =>
      simp only [step] at stepTo
      split at stepTo
      · rename_i queueName emptyQueues isRemoving
        cases stepTo
        exact .inr (.inr (.inr ⟨queueName, emptyQueues, rfl, isRemoving,
          rfl⟩))
      · rename_i isRemoving
        cases stepTo
        exact .inr (.inl ⟨by simp [RemovesDead, isRemoving], rfl⟩)
      · cases stepTo

theorem mem_consumersOf_retainOpen (broker : Broker)
    (queueName other : String) (sender : ChannelId) :
    sender ∈ Broker.consumersOf
        { broker with shared := broker.shared.retainOpen queueName } other ↔
      sender ∈ broker.consumersOf other ∧
        (other = queueName → (broker.shared.channels sender).closed =
          false) := by
  simp only [Broker.consumersOf, retainOpen, KeyMap.modify_apply]
  cases broker.shared.consumers other with
  | none => simp
  | some senders =>
      by_cases same : other = queueName
      · simp [same, openSenders]
      · simp [same]

theorem mem_consumersOf_removeConsumers (broker : Broker)
    (queueName other : String) (sender : ChannelId) :
    sender ∈ Broker.consumersOf
        { broker with shared := broker.shared.removeConsumers queueName }
        other ↔
      sender ∈ broker.consumersOf other ∧ other ≠ queueName := by
  simp only [Broker.consumersOf, removeConsumers, KeyMap.remove_apply]
  by_cases same : other = queueName
  · simp [same]
  · simp [same]

theorem listed_step (listed : Listed before)
    (stepTo : before.step event = some after) : Listed after := by
  intro queueName sender isListed
  rcases step_cases stepTo with ⟨brokerEvent, -, stepped⟩ | ⟨-, same⟩ |
    ⟨cleaned, -, isAfter⟩ | ⟨removed, _, -, -, isAfter⟩
  · have lists := Broker.listsConsumers_step stepped
    rcases lists.listed queueName sender isListed with old | joined
    · obtain ⟨point, member, hasJoined⟩ := listed queueName sender old
      exact lists.stays queueName sender point member hasJoined
    · exact joined
  · rw [same] at isListed ⊢
    exact listed queueName sender isListed
  · rw [isAfter] at isListed ⊢
    have wasListed :=
      (mem_consumersOf_retainOpen _ _ _ _).mp isListed |>.1
    exact listed queueName sender wasListed
  · rw [isAfter] at isListed ⊢
    have wasListed :=
      (mem_consumersOf_removeConsumers _ _ _ _).mp isListed |>.1
    exact listed queueName sender wasListed

/-- A step leaves every open consumer on its list exactly if the list it
removes holds none. -/
theorem keepsConsumers_step_iff (listed : Listed before)
    (keeps : KeepsConsumers before)
    (stepTo : before.step event = some after) :
    KeepsConsumers after ↔ before.RemovesDead event := by
  rcases step_cases stepTo with ⟨brokerEvent, rfl, stepped⟩ |
    ⟨removesDead, same⟩ | ⟨cleaned, rfl, isAfter⟩ |
    ⟨removed, emptyQueues, rfl, isRemoving, isAfter⟩
  · have lists := Broker.listsConsumers_step stepped
    refine iff_of_true ?_ trivial
    intro queueName sender point member hasJoined isOpen
    have wasOpen := lists.isOpen sender isOpen
    rcases lists.joined queueName sender point member hasJoined with
      isListed | ⟨earlier, wasMember, hadJoined⟩
    · exact isListed
    · exact lists.kept queueName sender
        (keeps queueName sender earlier wasMember hadJoined wasOpen) wasOpen
  · refine iff_of_true ?_ removesDead
    unfold KeepsConsumers
    rw [same]
    exact keeps
  · refine iff_of_true ?_ trivial
    intro queueName sender point member hasJoined isOpen
    rw [isAfter] at member isOpen ⊢
    exact (mem_consumersOf_retainOpen _ _ _ _).mpr
      ⟨keeps queueName sender point member hasJoined isOpen, fun _ => isOpen⟩
  · simp only [RemovesDead, isRemoving]
    constructor
    · intro keepsAfter sender isListed
      obtain ⟨point, member, hasJoined⟩ := listed removed sender isListed
      by_contra isOpen
      rw [Bool.not_eq_true] at isOpen
      have stillListed := keepsAfter removed sender point
        (by rw [isAfter]; exact member) hasJoined
        (by rw [isAfter]; exact isOpen)
      rw [isAfter] at stillListed
      exact ((mem_consumersOf_removeConsumers _ _ _ _).mp stillListed).2 rfl
    · intro allDead queueName sender point member hasJoined isOpen
      rw [isAfter] at member isOpen ⊢
      have wasListed :=
        keeps queueName sender point member hasJoined isOpen
      refine (mem_consumersOf_removeConsumers _ _ _ _).mpr ⟨wasListed, ?_⟩
      rintro rfl
      have isDead := allDead sender wasListed
      dsimp only [removeConsumers] at isOpen
      rw [isDead] at isOpen
      cases isOpen

theorem listed_new (maxQueueSize : Nat) : Listed (new maxQueueSize) := by
  intro queueName sender isListed
  cases isListed

theorem keepsConsumers_new (maxQueueSize : Nat) :
    KeepsConsumers (new maxQueueSize) := by
  intro queueName sender point member
  cases member

/-- While every list that is removed holds no open sender, no consumer with an
open channel is lost; the first other removal loses one. -/
theorem keepsConsumers_of_removesDead {maxQueueSize : Nat}
    {cleaned : CleanedBroker}
    (reached : ReachableWhile step RemovesDead (new maxQueueSize) cleaned) :
    KeepsConsumers cleaned ∧ ∀ event after,
      cleaned.step event = some after →
        (KeepsConsumers after ↔ cleaned.RemovesDead event) :=
  reached.exact_invariant Listed (keepsConsumers_new maxQueueSize)
    (listed_new maxQueueSize)
    (fun _ _ _ listed stepTo => listed_step listed stepTo)
    (fun _ _ _ listed keeps stepTo =>
      keepsConsumers_step_iff listed keeps stepTo)

instance (cleaned : CleanedBroker) (event : Event) :
    Decidable (cleaned.RemovesDead event) := by
  unfold RemovesDead
  split
  · split <;> infer_instance
  · infer_instance

def registration (call : Nat) (queueName : String) (sender : ChannelId) :
    List Event :=
  .broker (.invoke (.registerConsumer queueName sender)) ::
    List.replicate 3 (.broker (.advance call ⟨.ok (), 1, "t"⟩))

def cleaningRun : List Event :=
  registration 0 "q" 0 ++ registration 1 "r" 1 ++
    [.broker (.dropReceiver 1), .startPass, .retain "q", .retain "r",
      .endScan, .removeNext, .removeNext]

theorem keepsConsumers_cleaningRun :
    ∃ cleaned, ReachableWhile step RemovesDead (new 10) cleaned ∧
      cleaned.cleanup = .sleeping ∧
      cleaned.broker.shared.consumers "r" = none ∧
      0 ∈ cleaned.broker.consumersOf "q" := by
  have ran : (executeWhile step RemovesDead (new 10) cleaningRun).map
      (fun cleaned => (cleaned.cleanup,
        cleaned.broker.shared.consumers "r",
        (cleaned.broker.shared.channels 0).closed,
        decide (.registerConsumer "q" 0 (.returned none) ∈
          cleaned.broker.calls))) =
      some (.sleeping, none, false, true) := by
    decide +kernel
  obtain ⟨cleaned, reached, seen⟩ := exists_reachableWhile_of_map ran
  simp only [Prod.mk.injEq, decide_eq_true_eq] at seen
  obtain ⟨isSleeping, removed, isOpen, member⟩ := seen
  exact ⟨cleaned, reached, isSleeping, removed,
    (keepsConsumers_of_removesDead reached).1 "q" 0 _ member rfl isOpen⟩

/-- A consumer registers after the list of its queue was found empty. -/
def lateRegistration : List Event :=
  registration 0 "q" 0 ++
    [.broker (.dropReceiver 0), .startPass, .retain "q", .endScan] ++
    registration 1 "q" 1 ++ [.removeNext, .removeNext]

theorem not_keepsConsumers_lateRegistration :
    ∃ cleaned, Reachable step (new 10) cleaned ∧
      cleaned.cleanup = .sleeping ∧
      .registerConsumer "q" 1 (.returned none) ∈ cleaned.broker.calls ∧
      (cleaned.broker.shared.channels 1).closed = false ∧
      1 ∉ cleaned.broker.consumersOf "q" := by
  have ran : (executeWhile step (fun _ _ => True) (new 10)
      lateRegistration).map
      (fun cleaned => (cleaned.cleanup,
        decide (.registerConsumer "q" 1 (.returned none) ∈
          cleaned.broker.calls),
        (cleaned.broker.shared.channels 1).closed,
        cleaned.broker.consumersOf "q")) =
      some (.sleeping, true, false, []) := by
    decide +kernel
  obtain ⟨cleaned, reached, seen⟩ := exists_reachableWhile_of_map ran
  simp only [Prod.mk.injEq, decide_eq_true_eq] at seen
  obtain ⟨isSleeping, member, isOpen, noConsumers⟩ := seen
  refine ⟨cleaned, reached, isSleeping, member, isOpen, ?_⟩
  rw [noConsumers]
  exact List.not_mem_nil

end CleanedBroker

end CipherMQ
