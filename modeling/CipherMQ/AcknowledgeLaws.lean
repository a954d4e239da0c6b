import CipherMQ.OperationEffects

/-!
# The laws of acknowledging

An acknowledgement walks the queues that the index lists for its message,
which may be none, several, or fewer than hold the message.  On the maps of
the broker it is still idempotent, it commutes with every other
acknowledgement, and it leaves what belongs to other messages alone.
-/

namespace CipherMQ

namespace ServerState

variable (state : ServerState) (messageId : String) (now : Nat)
  (ackTime : String)

def messageMaps (state : ServerState) :
    KeyMap String (List QueueEntry) × KeyMap String (List String) ×
      KeyMap String MessageStatus :=
  (state.queues, state.messageQueues, state.messageStatus)

/-- An acknowledgement of the message takes it out of the queue. -/
def AcksFrom (queueName : String) : Prop :=
  (state.messageStatus messageId).isSome ∧
    queueName ∈ (state.messageQueues messageId).getD []

instance (queueName : String) :
    Decidable (state.AcksFrom messageId queueName) :=
  inferInstanceAs (Decidable (_ ∧ _))

def othersIn (messageId : String) (queue : List QueueEntry) :
    List QueueEntry :=
  queue.filter fun entry => entry.1 ≠ messageId

theorem othersIn_comm (first second : String) (queue : List QueueEntry) :
    othersIn first (othersIn second queue) =
      othersIn second (othersIn first queue) := by
  unfold othersIn
  rw [List.filter_filter, List.filter_filter]
  apply List.filter_congr
  intro entry _
  exact Bool.and_comm _ _

theorem othersIn_idem (queue : List QueueEntry) :
    othersIn messageId (othersIn messageId queue) =
      othersIn messageId queue := by
  unfold othersIn
  rw [List.filter_filter]
  simp

/-! ## The maps after an acknowledgement -/

theorem acknowledge_messageStatus :
    (state.acknowledge messageId now ackTime).messageStatus =
      state.messageStatus.remove messageId := by
  by_cases tracked : (state.messageStatus messageId).isSome
  · rw [acknowledge_eq state messageId now ackTime tracked]
  · have untracked : state.messageStatus messageId = none := by
      simpa using tracked
    rw [acknowledge_untracked state messageId now ackTime untracked]
    funext other
    by_cases same : other = messageId
    · simp [same, untracked]
    · simp [same]

theorem acknowledge_messageQueues (other : String) :
    (state.acknowledge messageId now ackTime).messageQueues other =
      if other = messageId ∧ (state.messageStatus messageId).isSome then
        none
      else
        state.messageQueues other := by
  by_cases tracked : (state.messageStatus messageId).isSome
  · rw [acknowledge_eq state messageId now ackTime tracked]
    simp [tracked]
  · rw [acknowledge_untracked state messageId now ackTime
      (by simpa using tracked)]
    simp [tracked]

theorem acknowledge_queues (queueName : String) :
    (state.acknowledge messageId now ackTime).queues queueName =
      if state.AcksFrom messageId queueName then
        (state.queues queueName).map (othersIn messageId)
      else
        state.queues queueName := by
  by_cases tracked : (state.messageStatus messageId).isSome
  · rw [acknowledge_eq state messageId now ackTime tracked]
    simp only [AcksFrom, tracked, true_and]
    rfl
  · rw [acknowledge_untracked state messageId now ackTime
      (by simpa using tracked)]
    simp [AcksFrom, tracked]

/-- Nothing but the maps of messages and the storage changes. -/
theorem acknowledge_frame :
    ∃ queues messageQueues messageStatus storage,
      state.acknowledge messageId now ackTime =
        { state with
          queues := queues
          messageQueues := messageQueues
          messageStatus := messageStatus
          storage := storage } := by
  by_cases tracked : (state.messageStatus messageId).isSome
  · exact ⟨_, _, _, _, acknowledge_eq state messageId now ackTime tracked⟩
  · exact ⟨_, _, _, _, acknowledge_untracked state messageId now ackTime
      (by simpa using tracked)⟩

/-- Acknowledging one message does not change what an acknowledgement of
another would do. -/
theorem acksFrom_acknowledge {first second : String}
    (different : second ≠ first) (queueName : String) :
    (state.acknowledge first now ackTime).AcksFrom second queueName ↔
      state.AcksFrom second queueName := by
  simp [AcksFrom, acknowledge_messageStatus, acknowledge_messageQueues,
    different]

/-! ## The three laws -/

theorem acknowledge_idem (nowAgain : Nat) (ackTimeAgain : String) :
    (state.acknowledge messageId now ackTime).acknowledge messageId nowAgain
        ackTimeAgain =
      state.acknowledge messageId now ackTime := by
  apply acknowledge_untracked
  rw [acknowledge_messageStatus]
  simp

theorem messageMaps_acknowledge_of_eq (nowAgain : Nat)
    (ackTimeAgain : String) :
    (state.acknowledge messageId now ackTime).messageMaps =
      (state.acknowledge messageId nowAgain ackTimeAgain).messageMaps := by
  unfold messageMaps
  refine Prod.ext ?_ (Prod.ext ?_ ?_)
  · funext queueName
    simp only [acknowledge_queues]
  · funext other
    simp only [acknowledge_messageQueues]
  · simp only [acknowledge_messageStatus]

theorem messageMaps_acknowledge_comm (first second : String)
    (nowFirst nowSecond : Nat) (timeFirst timeSecond : String) :
    ((state.acknowledge first nowFirst timeFirst).acknowledge second nowSecond
        timeSecond).messageMaps =
      ((state.acknowledge second nowSecond timeSecond).acknowledge first
        nowFirst timeFirst).messageMaps := by
  by_cases same : second = first
  · subst same
    rw [acknowledge_idem, acknowledge_idem]
    exact state.messageMaps_acknowledge_of_eq second nowFirst timeFirst
      nowSecond timeSecond
  have different : first ≠ second := fun isSame => same isSame.symm
  unfold messageMaps
  refine Prod.ext ?_ (Prod.ext ?_ ?_)
  · funext queueName
    simp only [acknowledge_queues, acksFrom_acknowledge state _ _ same,
      acksFrom_acknowledge state _ _ different]
    -- Whether each of the two takes the message out is decided by `state`.
    by_cases fromFirst : state.AcksFrom first queueName <;>
      by_cases fromSecond : state.AcksFrom second queueName
    · simp [fromFirst, fromSecond, Function.comp_def,
        othersIn_comm first second]
    all_goals simp [fromFirst, fromSecond]
  · funext other
    simp only [acknowledge_messageQueues, acknowledge_messageStatus,
      KeyMap.remove_apply, if_neg same, if_neg different]
    by_cases isFirst : other = first
    · simp [isFirst, different]
    · simp [isFirst]
  · funext other
    simp only [acknowledge_messageStatus, KeyMap.remove_apply]
    by_cases isFirst : other = first
    · simp [isFirst]
    · simp [isFirst]

/-- What belongs to messages other than `messageId` is the same in both
states. -/
structure SameOthers (before after : ServerState) : Prop where
  queues : ∀ queueName,
    (after.queues queueName).map (othersIn messageId) =
      (before.queues queueName).map (othersIn messageId)
  messageQueues : ∀ other, other ≠ messageId →
    after.messageQueues other = before.messageQueues other
  messageStatus : ∀ other, other ≠ messageId →
    after.messageStatus other = before.messageStatus other
  bindings : after.bindings = before.bindings
  exchanges : after.exchanges = before.exchanges
  consumers : after.consumers = before.consumers
  channels : after.channels = before.channels
  deliveryTasks : after.deliveryTasks = before.deliveryTasks

theorem sameOthers_acknowledge :
    SameOthers messageId state
      (state.acknowledge messageId now ackTime) := by
  obtain ⟨queues, messageQueues, messageStatus, storage, framed⟩ :=
    state.acknowledge_frame messageId now ackTime
  constructor
  case queues =>
    intro queueName
    rw [acknowledge_queues]
    split
    · simp [Function.comp_def, othersIn_idem]
    · rfl
  case messageQueues =>
    intro other different
    simp [acknowledge_messageQueues, different]
  case messageStatus =>
    intro other different
    simp [acknowledge_messageStatus, different]
  all_goals rw [framed]

/-- Acknowledging is idempotent, commutative and local, in every state and at
any times. -/
theorem acknowledge_laws (first second : String) (nowFirst nowSecond : Nat)
    (timeFirst timeSecond : String) :
    (state.acknowledge first nowFirst timeFirst).acknowledge first nowSecond
        timeSecond =
      state.acknowledge first nowFirst timeFirst ∧
    ((state.acknowledge first nowFirst timeFirst).acknowledge second
        nowSecond timeSecond).messageMaps =
      ((state.acknowledge second nowSecond timeSecond).acknowledge first
        nowFirst timeFirst).messageMaps ∧
    SameOthers first state (state.acknowledge first nowFirst timeFirst) :=
  ⟨state.acknowledge_idem first nowFirst timeFirst nowSecond timeSecond,
    state.messageMaps_acknowledge_comm first second nowFirst nowSecond
      timeFirst timeSecond,
    state.sameOthers_acknowledge first nowFirst timeFirst⟩

end ServerState

end CipherMQ
