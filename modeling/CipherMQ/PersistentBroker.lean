import CipherMQ.CallOwners
import CipherMQ.StorageWorker

/-!
# The broker and its storage worker

A broker together with the storage worker its calls talk to.  A publish asks
the worker to save a row and waits for the reply, while acknowledgement times
are only reported and reach the row later.  So the row of a message and its
status in the broker change at different times and by different rules; the
lemmas below say what a step of the broker does to statuses, to the calls that
are about to report, and to the commands on their way to the worker.
-/

namespace CipherMQ

open ServerState

/-- A broker and its worker.  A command waits in the channel with the call
that waits for its reply, if there is one.  `submitted` holds the time under
which a publish asked for its row, and `replies` the answers. -/
structure PersistentBroker where
  broker : Broker
  channel : List (StorageCommand × Option Nat)
  submitted : KeyMap Nat String
  replies : KeyMap Nat (Except StorageError Unit)
  worker : StorageWorker

namespace PersistentBroker

def new (maxQueueSize : Nat)
    (messageMetadata : Table MessageMetadata.messageId)
    (publicKeys : Table PublicKeyRow.clientId) : PersistentBroker where
  broker := .new maxQueueSize
  channel := []
  submitted := KeyMap.empty
  replies := KeyMap.empty
  worker := .new messageMetadata publicKeys

/-- What can happen next: a publish asks for its row, the broker takes a step,
a handler puts a query, or the worker takes a command, loses one because it
cannot reconnect, or flushes its buffers. -/
inductive Event where
  | submit (call : Nat) (time : String)
  | broker (event : Broker.Event)
  | query (command : StorageCommand)
  | work (nonce : List UInt8) (statement : Except String Unit)
  | lose
  | tick (delivered acknowledged : Except String Unit)

def rowAsked (time : String) : Call → Option MessageMetadata
  | .publish request .saveMetadata =>
      some (publishMetadata request.exchangeName request.routingKey
        request.message request.clientId time)
  | _ => none

/-- Whether a step of the broker fits in with the worker: a publish goes on
with the answer to its own request, and the commands that are not part of a
call are put by `query`. -/
def Answered (state : PersistentBroker) : Broker.Event → Prop
  | .advance index reading =>
      ((state.broker.calls[index]?).bind (rowAsked reading.time)).isSome →
        state.submitted index = some reading.time ∧
          state.replies index = some reading.reply
  | .bookkeep _ storage => storage = state.broker.shared.storage
  | _ => True

instance (state : PersistentBroker) (event : Broker.Event) :
    Decidable (state.Answered event) :=
  match event with
  | .advance _ _ => inferInstanceAs (Decidable (_ → _))
  | .bookkeep _ storage =>
      inferInstanceAs (Decidable (storage = state.broker.shared.storage))
  | .invoke _ => instDecidableTrue
  | .markDelivered _ _ => instDecidableTrue
  | .dropReceiver _ => instDecidableTrue
  | .runDeliveryTask _ => instDecidableTrue

def isQuery : StorageCommand → Bool
  | .getClientIdForMessage _ => true
  | .savePublicKey _ => true
  | .getPublicKey _ => true
  | _ => false

def savesMetadata : StorageCommand → Bool
  | .saveMetadata _ => true
  | _ => false

/-- The commands a step of the broker has put on the channel.  The rows of
publishes are asked for by `submit`. -/
def reported (before after : Broker) : List StorageCommand :=
  (after.shared.storage.sender.drop
    before.shared.storage.sender.length).filter fun command =>
      !savesMetadata command

def receiveReply (replies : KeyMap Nat (Except StorageError Unit)) :
    Option Nat → Option StorageWorker.Reply →
      KeyMap Nat (Except StorageError Unit)
  | some call, some (.saved result) => replies.insert call result
  | _, _ => replies

def step (cipher : KeyCipher) (state : PersistentBroker) :
    Event → Option PersistentBroker
  | .submit call time =>
      if state.submitted call = none then
        ((state.broker.calls[call]?).bind (rowAsked time)).map fun metadata =>
          { state with
            channel :=
              state.channel ++ [(.saveMetadata metadata, some call)]
            submitted := state.submitted.insert call time }
      else
        none
  | .broker event =>
      if state.Answered event then
        (state.broker.step event).map fun broker =>
          { state with
            broker := broker
            channel := state.channel ++
              (reported state.broker broker).map fun command =>
                (command, none) }
      else
        none
  | .query command =>
      if isQuery command then
        some { state with channel := state.channel ++ [(command, none)] }
      else
        none
  | .work nonce statement =>
      match state.channel with
      | [] => none
      | (command, caller) :: rest =>
          (state.worker.handle cipher nonce statement command).map
            fun handled =>
              { state with
                channel := rest
                replies := receiveReply state.replies caller handled.2
                worker := handled.1 }
  | .lose =>
      match state.channel with
      | [] => none
      | (_, caller) :: rest =>
          some { state with
            channel := rest
            replies := receiveReply state.replies caller
              (some (.saved (.error .channelReceive))) }
  | .tick delivered acknowledged =>
      some { state with worker := state.worker.tick delivered acknowledged }

theorem step_cases {cipher : KeyCipher} {state after : PersistentBroker}
    {event : Event} (stepTo : state.step cipher event = some after) :
    (∃ call time metadata, event = .submit call time ∧
      (state.broker.calls[call]?).bind (rowAsked time) = some metadata ∧
      after = { state with
        channel := state.channel ++ [(.saveMetadata metadata, some call)]
        submitted := state.submitted.insert call time }) ∨
    (∃ brokerEvent broker, event = .broker brokerEvent ∧
      state.Answered brokerEvent ∧
      state.broker.step brokerEvent = some broker ∧
      after = { state with
        broker := broker
        channel := state.channel ++
          (reported state.broker broker).map fun command =>
            (command, none) }) ∨
    (∃ command, event = .query command ∧ isQuery command = true ∧
      after = { state with
        channel := state.channel ++ [(command, none)] }) ∨
    (∃ nonce statement command caller rest handled,
      event = .work nonce statement ∧
      state.channel = (command, caller) :: rest ∧
      state.worker.handle cipher nonce statement command = some handled ∧
      after = { state with
        channel := rest
        replies := receiveReply state.replies caller handled.2
        worker := handled.1 }) ∨
    (∃ entry rest, event = .lose ∧ state.channel = entry :: rest ∧
      after = { state with
        channel := rest
        replies := receiveReply state.replies entry.2
          (some (.saved (.error .channelReceive))) }) ∨
    ∃ delivered acknowledged, event = .tick delivered acknowledged ∧
      after = { state with
        worker := state.worker.tick delivered acknowledged } := by
  cases event with
  | submit call time =>
      simp only [step] at stepTo
      split at stepTo
      · obtain ⟨metadata, asks, rfl⟩ := Option.map_eq_some_iff.mp stepTo
        exact .inl ⟨call, time, metadata, rfl, asks, rfl⟩
      · cases stepTo
  | broker event =>
      simp only [step] at stepTo
      split at stepTo
      · rename_i answered
        obtain ⟨broker, stepped, rfl⟩ := Option.map_eq_some_iff.mp stepTo
        exact .inr (.inl ⟨event, broker, rfl, answered, stepped, rfl⟩)
      · cases stepTo
  | query command =>
      simp only [step] at stepTo
      split at stepTo
      · rename_i isQuery
        cases stepTo
        exact .inr (.inr (.inl ⟨command, rfl, isQuery, rfl⟩))
      · cases stepTo
  | work nonce statement =>
      simp only [step] at stepTo
      split at stepTo
      · cases stepTo
      · rename_i command caller rest next
        obtain ⟨handled, handles, rfl⟩ := Option.map_eq_some_iff.mp stepTo
        exact .inr (.inr (.inr (.inl ⟨nonce, statement, command, caller,
          rest, handled, rfl, next, handles, rfl⟩)))
  | lose =>
      simp only [step] at stepTo
      split at stepTo
      · cases stepTo
      · rename_i command caller rest next
        cases stepTo
        exact .inr (.inr (.inr (.inr (.inl ⟨(command, caller), rest, rfl,
          next, rfl⟩))))
  | tick delivered acknowledged =>
      cases stepTo
      exact .inr (.inr (.inr (.inr (.inr ⟨delivered, acknowledged, rfl,
        rfl⟩))))

/-! ## Acknowledgements and statuses -/

def acknowledges (messageId : String) : StorageCommand → Bool
  | .updateAcknowledgedTimeAsync other _ => other = messageId
  | _ => false

def insertedId : Call → Option String
  | .publish request (.insertStatus _) => some request.message.messageId
  | _ => none

def Unacknowledged (state : ServerState) (messageId : String) : Prop :=
  (state.messageStatus messageId).map MessageStatus.canDeliver = some true

end PersistentBroker

/-! ## What a step of the broker does to statuses and commands -/

open PersistentBroker

/-- A status is left alone, dropped, or marked as acknowledged, unless it is
inserted. -/
theorem Access.status_cases {before after : ServerState} {call : Call}
    (access : Access before call after) {messageId : String}
    (notInserted : insertedId call ≠ some messageId) :
    (after.messageStatus messageId).map MessageStatus.canDeliver =
        (before.messageStatus messageId).map MessageStatus.canDeliver ∨
      after.messageStatus messageId = none ∨
      (before.messageStatus messageId).isSome ∧
        ¬ Unacknowledged after messageId := by
  cases access with
  | evictStatus request targets queueSet remaining oldMessageId =>
      by_cases same : messageId = oldMessageId
      · right
        left
        simp [ServerState.evictStatus, same]
      · left
        simp [ServerState.evictStatus, same]
  | insertStatus request targets =>
      have different : messageId ≠ request.message.messageId := by
        rintro rfl
        exact notInserted rfl
      left
      simp [different]
  | markAcknowledged other now =>
      by_cases same : messageId = other
      · subst same
        cases tracked : before.messageStatus messageId with
        | none =>
            left
            simp [ServerState.markAcknowledged, tracked]
        | some status =>
            right
            right
            simp [Unacknowledged, ServerState.markAcknowledged, tracked,
              MessageStatus.canDeliver, MessageStatus.acknowledged]
      · left
        simp [ServerState.markAcknowledged, same]
  | removeStatus other =>
      by_cases same : messageId = other
      · right
        left
        simp [same]
      · left
        simp [same]
  | _ => exact Or.inl rfl

theorem not_unacknowledged_markAcknowledged (state : ServerState)
    (messageId : String) (now : Nat) :
    ¬ Unacknowledged (state.markAcknowledged messageId now) messageId := by
  unfold Unacknowledged markAcknowledged
  cases tracked : state.messageStatus messageId with
  | none => simp [tracked]
  | some status =>
      simp [tracked, MessageStatus.canDeliver, MessageStatus.acknowledged]

theorem storage_advance (reading : Reading) (state : ServerState)
    {call : Call}
    (notSave : ∀ request, call ≠ .publish request .saveMetadata)
    (notReport : ∀ messageId, call ≠ .acknowledge messageId .report) :
    (call.advance reading state).1.storage = state.storage := by
  cases call with
  | declareQueue queueName point => cases point <;> rfl
  | declareExchange exchangeName point => cases point <;> rfl
  | bindQueue queueName exchangeName routingKey point =>
      cases point with
      | checkQueue =>
          simp only [Call.advance, bindQueueStep]
          split <;> rfl
      | checkExchange =>
          simp only [Call.advance, bindQueueStep]
          split <;> rfl
      | insertBinding => rfl
      | returned => rfl
  | publish request point =>
      cases point with
      | saveMetadata => exact (notSave request rfl).elim
      | checkDuplicate =>
          simp only [Call.advance, publishStep]
          split <;> rfl
      | findTargets =>
          simp only [Call.advance, publishStep]
          split <;> rfl
      | enqueue targets queueSet remaining =>
          cases remaining with
          | nil => rfl
          | cons queueName remaining =>
              simp only [Call.advance, publishStep]
              split
              · rfl
              · split <;> rfl
      | notify remaining =>
          cases remaining with
          | nil => rfl
          | cons queueName remaining =>
              simp only [Call.advance, publishStep, notifyConsumers_eq]
              rfl
      | _ => rfl
  | registerConsumer queueName sender point =>
      cases point with
      | readQueue =>
          simp only [Call.advance, registerConsumerStep]
          split
          · split <;> rfl
          · rfl
      | readStatus captured unread =>
          cases unread with
          | nil => rfl
          | cons entry unread =>
              simp only [Call.advance, registerConsumerStep]
              split <;> rfl
      | _ => rfl
  | acknowledge messageId point =>
      cases point with
      | report => exact (notReport messageId rfl).elim
      | checkStatus =>
          simp only [Call.advance, acknowledgeStep]
          split <;> rfl
      | removeFrom remaining =>
          cases remaining with
          | nil => rfl
          | cons queueName remaining =>
              simp only [Call.advance, acknowledgeStep]
              split <;> rfl
      | _ => rfl

section Reported

variable {before after : Broker} {event : Broker.Event}

/-- A step of the broker puts at most one command on the channel.  A delivery
is reported for a message with a status, and an acknowledgement by a call that
has marked it. -/
theorem storage_step (stepTo : before.step event = some after)
    (sameStorage : ∀ count storage, event = .bookkeep count storage →
      storage = before.shared.storage) :
    after.shared.storage = before.shared.storage ∨
    (∃ metadata, after.shared.storage =
      before.shared.storage.send (.saveMetadata metadata)) ∨
    (∃ messageId time, after.shared.storage =
        before.shared.storage.send
          (.updateDeliveredTimeAsync messageId time) ∧
      (before.shared.messageStatus messageId).isSome) ∨
    ∃ messageId time, after.shared.storage =
        before.shared.storage.send
          (.updateAcknowledgedTimeAsync messageId time) ∧
      .acknowledge messageId .report ∈ before.calls := by
  rcases Broker.step_cases stepTo with
    ⟨invocation, -, rfl⟩ | ⟨index, reading, call, -, found, -, rfl⟩ |
    ⟨messageId, reading, -, rfl⟩ | ⟨channel, -, rfl⟩ | ⟨index, -, rfl⟩ |
    ⟨count, storage, isBookkeep, rfl⟩
  · exact Or.inl rfl
  · by_cases saves : ∃ request, call = .publish request .saveMetadata
    · obtain ⟨request, rfl⟩ := saves
      simp only [Call.advance, publishStep, Storage.saveMetadata,
        Storage.request]
      split <;> split
      · exact Or.inl rfl
      · exact Or.inr (Or.inl ⟨_, rfl⟩)
      · exact Or.inl rfl
      · exact Or.inr (Or.inl ⟨_, rfl⟩)
    · by_cases reports : ∃ messageId, call = .acknowledge messageId .report
      · obtain ⟨messageId, rfl⟩ := reports
        exact Or.inr (Or.inr (Or.inr ⟨messageId, reading.time, rfl,
          List.mem_of_getElem? found⟩))
      · exact Or.inl (storage_advance reading before.shared
          (fun request isSave => saves ⟨request, isSave⟩)
          (fun messageId isReport => reports ⟨messageId, isReport⟩))
  · unfold markDelivered
    split
    · rename_i tracked
      split
      · exact Or.inr (Or.inr (Or.inl ⟨messageId, reading.time, rfl,
          by simp [tracked]⟩))
      · exact Or.inl rfl
    · exact Or.inl rfl
  · exact Or.inl rfl
  · obtain ⟨channels, deliveryTasks, ran⟩ :=
      runDeliveryTask_frame before.shared index
    rw [ran]
    exact Or.inl rfl
  · exact Or.inl (sameStorage count storage isBookkeep)

theorem reported_of_send {command : StorageCommand}
    (sent : after.shared.storage = before.shared.storage.send command) :
    reported before after =
      [command].filter fun command => !savesMetadata command := by
  simp [reported, sent, Storage.send]

theorem mem_reported {command : StorageCommand}
    (stepTo : before.step event = some after)
    (sameStorage : ∀ count storage, event = .bookkeep count storage →
      storage = before.shared.storage)
    (member : command ∈ reported before after) :
    savesMetadata command = false ∧
      ∀ messageId, acknowledges messageId command = true →
        .acknowledge messageId .report ∈ before.calls := by
  rcases storage_step stepTo sameStorage with same | ⟨metadata, sent⟩ |
    ⟨messageId, time, sent, -⟩ | ⟨messageId, time, sent, marked⟩
  · simp [reported, same] at member
  · simp [reported_of_send sent, savesMetadata] at member
  · simp only [reported_of_send sent, savesMetadata, Bool.not_false,
      List.filter_cons_of_pos, List.filter_nil, List.mem_singleton] at member
    subst member
    exact ⟨rfl, by simp [acknowledges]⟩
  · simp only [reported_of_send sent, savesMetadata, Bool.not_false,
      List.filter_cons_of_pos, List.filter_nil, List.mem_singleton] at member
    subst member
    refine ⟨rfl, ?_⟩
    intro other isAck
    have same : messageId = other := by simpa [acknowledges] using isAck
    exact same ▸ marked

end Reported

namespace Broker

variable {before after : Broker} {event : Event}
  (stepTo : before.step event = some after)

include stepTo

theorem invocation_kept {index : Nat} {invocation : Invocation}
    (made : (before.calls[index]?).map Call.invocation = some invocation) :
    (after.calls[index]?).map Call.invocation = some invocation := by
  obtain ⟨call, found, rfl⟩ := Option.map_eq_some_iff.mp made
  rcases step_cases stepTo with
    ⟨started, -, rfl⟩ | ⟨other, reading, advancing, -, advanced, -, rfl⟩ |
    ⟨_, _, -, rfl⟩ | ⟨_, -, rfl⟩ | ⟨_, -, rfl⟩ | ⟨_, _, -, rfl⟩
  · rw [getElem?_append_kept found]
    rfl
  · by_cases same : index = other
    · subst same
      rw [found] at advanced
      cases advanced
      rw [getElem?_set_moved found]
      simp
    · rw [List.getElem?_set_ne (Ne.symm same), found]
      rfl
  · simp [found]
  · simp [found]
  · simp [found]
  · simp [found]

theorem status_cases {messageId : String}
    (notInserted : ∀ index reading, event = .advance index reading →
      (before.calls[index]?).bind insertedId ≠ some messageId) :
    (after.shared.messageStatus messageId).map MessageStatus.canDeliver =
        (before.shared.messageStatus messageId).map
          MessageStatus.canDeliver ∨
      after.shared.messageStatus messageId = none ∨
      (before.shared.messageStatus messageId).isSome ∧
        ¬ Unacknowledged after.shared messageId := by
  rcases step_cases stepTo with
    ⟨invocation, -, rfl⟩ | ⟨index, reading, call, rfl, found, -, rfl⟩ |
    ⟨other, reading, -, rfl⟩ | ⟨channel, -, rfl⟩ | ⟨index, -, rfl⟩ |
    ⟨_, _, -, rfl⟩
  · exact Or.inl rfl
  · apply (access_advance reading before.shared call).status_cases
    have different := notInserted index reading rfl
    rwa [found] at different
  · obtain ⟨messageStatus, storage, marked, unchanged⟩ :=
      markDelivered_frame before.shared other reading.now reading.time
    rw [marked]
    exact Or.inl (unchanged messageId)
  · exact Or.inl rfl
  · obtain ⟨channels, deliveryTasks, ran⟩ :=
      runDeliveryTask_frame before.shared index
    rw [ran]
    exact Or.inl rfl
  · exact Or.inl rfl

/-- A call that is about to report an acknowledgement has just marked it. -/
theorem report_cases {messageId : String}
    (reports : .acknowledge messageId .report ∈ after.calls) :
    .acknowledge messageId .report ∈ before.calls ∨
      ¬ Unacknowledged after.shared messageId := by
  rcases step_cases stepTo with
    ⟨invocation, -, rfl⟩ | ⟨index, reading, call, -, found, -, rfl⟩ |
    ⟨_, _, -, rfl⟩ | ⟨_, -, rfl⟩ | ⟨_, -, rfl⟩ | ⟨_, _, -, rfl⟩
  · rcases List.mem_append.mp reports with old | started
    · exact Or.inl old
    · rw [List.mem_singleton] at started
      cases invocation <;> cases started
  · rcases List.mem_or_eq_of_mem_set reports with old | advanced
    · exact Or.inl old
    · cases call with
      | acknowledge other point =>
          cases point with
          | markAcknowledged =>
              cases advanced
              right
              exact not_unacknowledged_markAcknowledged _ _ _
          | checkStatus =>
              simp only [Call.advance, acknowledgeStep] at advanced
              split at advanced <;> cases advanced
          | removeFrom remaining =>
              cases remaining with
              | nil => cases advanced
              | cons queueName remaining =>
                  simp only [Call.advance, acknowledgeStep] at advanced
                  split at advanced <;> cases advanced
          | report => cases advanced
          | readQueueSet => cases advanced
          | removeIndex => cases advanced
          | removeStatus => cases advanced
          | returned => cases advanced
      | declareQueue _ point => cases point <;> cases advanced
      | declareExchange _ point => cases point <;> cases advanced
      | bindQueue => cases advanced
      | publish => cases advanced
      | registerConsumer => cases advanced
  · exact Or.inl reports
  · exact Or.inl reports
  · exact Or.inl reports
  · exact Or.inl reports

end Broker

namespace PersistentBroker

def hasRow : PublishPoint → Bool
  | .checkDuplicate => false
  | .saveMetadata => false
  | .returned _ => false
  | _ => true

theorem hasRow_publishStep {state : ServerState} {request : PublishRequest}
    {reading : Reading} {point : PublishPoint}
    (saved : hasRow (state.publishStep request reading point).2 = true) :
    hasRow point = true ∨
      point = .saveMetadata ∧ reading.reply = .ok () := by
  cases point with
  | checkDuplicate =>
      simp only [publishStep] at saved
      split at saved <;> cases saved
  | saveMetadata =>
      right
      refine ⟨rfl, ?_⟩
      simp only [publishStep, Storage.saveMetadata, Storage.request] at saved
      split at saved
      · cases saved
      · rename_i succeeded
        split at succeeded
        · cases succeeded
        · exact succeeded
  | returned result => cases saved
  | _ => exact Or.inl rfl

end PersistentBroker

/-- A publish goes past its row when it is told that the row is saved. -/
theorem Broker.hasRow_cases {before after : Broker} {event : Broker.Event}
    {request : PublishRequest} {point : PublishPoint}
    (stepTo : before.step event = some after)
    (member : .publish request point ∈ after.calls)
    (saved : hasRow point = true) :
    (∃ earlier, .publish request earlier ∈ before.calls ∧
      hasRow earlier = true) ∨
      ∃ index reading, event = .advance index reading ∧
        before.calls[index]? = some (.publish request .saveMetadata) ∧
        reading.reply = .ok () := by
  rcases step_cases stepTo with
    ⟨invocation, -, rfl⟩ | ⟨index, reading, call, rfl, found, -, rfl⟩ |
    ⟨_, _, -, rfl⟩ | ⟨_, -, rfl⟩ | ⟨_, -, rfl⟩ | ⟨_, _, -, rfl⟩
  · rcases List.mem_append.mp member with old | started
    · exact Or.inl ⟨point, old, saved⟩
    · rw [List.mem_singleton] at started
      cases invocation <;> cases started
      cases saved
  · rcases List.mem_or_eq_of_mem_set member with old | advanced
    · exact Or.inl ⟨point, old, saved⟩
    · cases call with
      | publish other earlier =>
          cases advanced
          rcases hasRow_publishStep saved with already | ⟨rfl, succeeded⟩
          · exact Or.inl ⟨earlier, List.mem_of_getElem? found, already⟩
          · exact Or.inr ⟨index, reading, rfl, found, succeeded⟩
      | declareQueue _ point => cases point <;> cases advanced
      | declareExchange _ point => cases point <;> cases advanced
      | bindQueue => cases advanced
      | registerConsumer => cases advanced
      | acknowledge => cases advanced
  · exact Or.inl ⟨point, member, saved⟩
  · exact Or.inl ⟨point, member, saved⟩
  · exact Or.inl ⟨point, member, saved⟩
  · exact Or.inl ⟨point, member, saved⟩

end CipherMQ
