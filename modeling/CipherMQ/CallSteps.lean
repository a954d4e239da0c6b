import CipherMQ.ServerState

/-!
# Calls in progress

Handlers of different clients run at the same time and share the broker state
without a common lock, so their calls interleave.  Here every access to one of
the shared maps is a step of its own, and so is the awaited database round
trip of a publish.  A call is a program point together with the local values
it carries, and a step of the broker advances one call.

While a publish makes room in a queue it holds that queue, so taking the
oldest entry off and appending the new one is a single access; the bookkeeping
of the evicted message concerns other maps and follows as separate steps.
-/

namespace CipherMQ

structure PublishRequest where
  exchangeName : String
  routingKey : String
  message : EncryptedInputData
  clientId : String
  receivedTime : Nat
  deriving DecidableEq, Repr

/-- The next access of a publish.  `targets` are the queues it found,
`queueSet` those it has appended to and `remaining` those still to come. -/
inductive PublishPoint where
  | checkDuplicate
  | saveMetadata
  | findTargets
  | enqueue (targets queueSet remaining : List String)
  | evictIndex (targets queueSet remaining : List String)
      (queueName oldMessageId : String)
  | evictStatus (targets queueSet remaining : List String)
      (oldMessageId : String)
  | insertStatus (targets : List String)
  | notify (remaining : List String)
  | returned (result : Except String Unit)
  deriving DecidableEq

/-- The next access of a consumer registration.  `captured` and `unread` split
the copy of the queue whose statuses are being looked up; `task` is the
position of the task it spawned. -/
inductive RegisterPoint where
  | declareQueue
  | addConsumer
  | readQueue
  | readStatus (captured unread : List QueueEntry)
  | returned (task : Option Nat)
  deriving DecidableEq, Repr

inductive AcknowledgePoint where
  | checkStatus
  | markAcknowledged
  | report
  | readQueueSet
  | removeFrom (remaining : List String)
  | removeIndex
  | removeStatus
  | returned
  deriving DecidableEq, Repr

inductive BindPoint where
  | checkQueue
  | checkExchange
  | insertBinding
  | returned
  deriving DecidableEq, Repr

inductive DeclarePoint where
  | declare
  | returned
  deriving DecidableEq, Repr

inductive Call where
  | declareQueue (queueName : String) (point : DeclarePoint)
  | declareExchange (exchangeName : String) (point : DeclarePoint)
  | bindQueue (queueName exchangeName routingKey : String) (point : BindPoint)
  | publish (request : PublishRequest) (point : PublishPoint)
  | registerConsumer (queueName : String) (sender : ChannelId)
      (point : RegisterPoint)
  | acknowledge (messageId : String) (point : AcknowledgePoint)
  deriving DecidableEq

/-- What a step may read from outside the broker: the storage worker's reply,
the monotonic clock and the wall clock. -/
structure Reading where
  reply : Except StorageError Unit
  now : Nat
  time : String

namespace ServerState

def publishStep (state : ServerState) (request : PublishRequest)
    (reading : Reading) : PublishPoint → ServerState × PublishPoint
  | .checkDuplicate =>
      if state.messageStatus.containsKey request.message.messageId then
        (state, .returned (.error
          ("Duplicate message " ++ request.message.messageId ++ " ignored")))
      else
        (state, .saveMetadata)
  | .saveMetadata =>
      let saved := state.storage.saveMetadata
        (publishMetadata request.exchangeName request.routingKey
          request.message request.clientId reading.time) reading.reply
      let state := { state with storage := saved.1 }
      match saved.2 with
      | .error error =>
          (state, .returned (.error
            ("Failed to save metadata: " ++ error.display)))
      | .ok () => (state, .findTargets)
  | .findTargets =>
      let targets :=
        state.targetQueues request.exchangeName request.routingKey
      if targets.isEmpty then
        (state, .returned (.error
          ("No queues bound to exchange '" ++ request.exchangeName ++
            "' with routing key '" ++ request.routingKey ++ "'")))
      else
        (state, .enqueue targets [] targets)
  | .enqueue targets queueSet (queueName :: remaining) =>
      match state.queues queueName with
      | none => (state, .enqueue targets queueSet remaining)
      | some queue =>
          let popped := popOldest state.maxQueueSize queue
          let state :=
            { state with
              queues := state.queues.insert queueName (popped.2 ++
                [(request.message.messageId, request.message)]) }
          match popped.1 with
          | some oldMessageId =>
              (state, .evictIndex targets (queueSet.insert queueName)
                remaining queueName oldMessageId)
          | none =>
              (state, .enqueue targets (queueSet.insert queueName) remaining)
  | .evictIndex targets queueSet remaining queueName oldMessageId =>
      (state.evictFromIndex queueName oldMessageId,
        .evictStatus targets queueSet remaining oldMessageId)
  | .evictStatus targets queueSet remaining oldMessageId =>
      (state.evictStatus oldMessageId, .enqueue targets queueSet remaining)
  | .enqueue targets queueSet [] =>
      ({ state with
          messageQueues :=
            state.messageQueues.insert request.message.messageId queueSet },
        .insertStatus targets)
  | .insertStatus targets =>
      ({ state with
          messageStatus :=
            state.messageStatus.insert request.message.messageId
              (.sent request.receivedTime) },
        .notify targets)
  | .notify (queueName :: remaining) =>
      (state.notifyConsumers request.message queueName, .notify remaining)
  | .notify [] => (state, .returned (.ok ()))
  | .returned result => (state, .returned result)

def registerConsumerStep (state : ServerState) (queueName : String)
    (sender : ChannelId) : RegisterPoint → ServerState × RegisterPoint
  | .declareQueue => (state.declareQueue queueName, .addConsumer)
  | .addConsumer => (state.addConsumer queueName sender, .readQueue)
  | .readQueue =>
      match state.queues queueName with
      | some queue =>
          if 0 < queue.length then
            (state, .readStatus [] queue)
          else
            (state, .returned none)
      | none => (state, .returned none)
  | .readStatus captured (entry :: unread) =>
      if state.deliverable entry then
        (state, .readStatus (captured ++ [entry]) unread)
      else
        (state, .readStatus captured unread)
  | .readStatus captured [] =>
      (state.spawn ⟨sender, queueName, captured⟩,
        .returned (some state.deliveryTasks.length))
  | .returned task => (state, .returned task)

/-- One access of an acknowledgement.  The queue set is walked while other
calls may still strike queues off it, and a queue struck off is passed
over. -/
def acknowledgeStep (state : ServerState) (messageId : String)
    (reading : Reading) : AcknowledgePoint → ServerState × AcknowledgePoint
  | .checkStatus =>
      if state.messageStatus.containsKey messageId then
        (state, .markAcknowledged)
      else
        (state, .returned)
  | .markAcknowledged =>
      (state.markAcknowledged messageId reading.now, .report)
  | .report =>
      ({ state with
          storage := state.storage.updateAcknowledgedTimeAsync messageId
            reading.time },
        .readQueueSet)
  | .readQueueSet =>
      (state, .removeFrom ((state.messageQueues messageId).getD []))
  | .removeFrom (queueName :: remaining) =>
      if queueName ∈ (state.messageQueues messageId).getD [] then
        (removeFromQueue messageId state queueName, .removeFrom remaining)
      else
        (state, .removeFrom remaining)
  | .removeFrom [] => (state, .removeIndex)
  | .removeIndex =>
      ({ state with messageQueues := state.messageQueues.remove messageId },
        .removeStatus)
  | .removeStatus =>
      ({ state with messageStatus := state.messageStatus.remove messageId },
        .returned)
  | .returned => (state, .returned)

def bindQueueStep (state : ServerState)
    (queueName exchangeName routingKey : String) :
    BindPoint → ServerState × BindPoint
  | .checkQueue =>
      if state.queues.containsKey queueName then
        (state, .checkExchange)
      else
        (state, .returned)
  | .checkExchange =>
      if state.exchanges.containsKey exchangeName then
        (state, .insertBinding)
      else
        (state, .returned)
  | .insertBinding =>
      (state.insertBinding queueName exchangeName routingKey, .returned)
  | .returned => (state, .returned)

end ServerState

namespace Call

def isReturned : Call → Bool
  | .declareQueue _ .returned => true
  | .declareExchange _ .returned => true
  | .bindQueue _ _ _ .returned => true
  | .publish _ (.returned _) => true
  | .registerConsumer _ _ (.returned _) => true
  | .acknowledge _ .returned => true
  | _ => false

def advance (reading : Reading) (state : ServerState) :
    Call → ServerState × Call
  | .declareQueue queueName .declare =>
      (state.declareQueue queueName, .declareQueue queueName .returned)
  | .declareQueue queueName .returned =>
      (state, .declareQueue queueName .returned)
  | .declareExchange exchangeName .declare =>
      (state.declareExchange exchangeName,
        .declareExchange exchangeName .returned)
  | .declareExchange exchangeName .returned =>
      (state, .declareExchange exchangeName .returned)
  | .bindQueue queueName exchangeName routingKey point =>
      (state.bindQueueStep queueName exchangeName routingKey point).map id
        (.bindQueue queueName exchangeName routingKey)
  | .publish request point =>
      (state.publishStep request reading point).map id (.publish request)
  | .registerConsumer queueName sender point =>
      (state.registerConsumerStep queueName sender point).map id
        (.registerConsumer queueName sender)
  | .acknowledge messageId point =>
      (state.acknowledgeStep messageId reading point).map id
        (.acknowledge messageId)

def result : Call → Option (Except String Unit)
  | .publish _ (.returned result) => some result
  | call => if call.isReturned then some (.ok ()) else none

end Call

inductive Invocation where
  | declareQueue (queueName : String)
  | declareExchange (exchangeName : String)
  | bindQueue (queueName exchangeName routingKey : String)
  | publish (request : PublishRequest)
  | registerConsumer (queueName : String) (sender : ChannelId)
  | acknowledge (messageId : String)
  deriving DecidableEq, Repr

def Invocation.start : Invocation → Call
  | .declareQueue queueName => .declareQueue queueName .declare
  | .declareExchange exchangeName => .declareExchange exchangeName .declare
  | .bindQueue queueName exchangeName routingKey =>
      .bindQueue queueName exchangeName routingKey .checkQueue
  | .publish request => .publish request .checkDuplicate
  | .registerConsumer queueName sender =>
      .registerConsumer queueName sender .declareQueue
  | .acknowledge messageId => .acknowledge messageId .checkStatus

/-- The broker with all calls ever made on it, in the order in which they were
made. -/
structure Broker where
  shared : ServerState
  calls : List Call

namespace Broker

inductive Event where
  | invoke (invocation : Invocation)
  | advance (index : Nat) (reading : Reading)
  | markDelivered (messageId : String) (reading : Reading)
  | dropReceiver (channel : ChannelId)
  | runDeliveryTask (index : Nat)
  | bookkeep (connectedClients : Nat) (storage : Storage)

def new (maxQueueSize : Nat) : Broker :=
  ⟨.new maxQueueSize, []⟩

/-- One step of the broker.  A call that has returned does not step.  The
client count and the requests that handlers put to the storage worker change
without touching a map. -/
def step (broker : Broker) : Event → Option Broker
  | .invoke invocation =>
      some { broker with calls := broker.calls ++ [invocation.start] }
  | .advance index reading =>
      match broker.calls[index]? with
      | some call =>
          if call.isReturned then
            none
          else
            let advanced := call.advance reading broker.shared
            some ⟨advanced.1, broker.calls.set index advanced.2⟩
      | none => none
  | .markDelivered messageId reading =>
      some { broker with
        shared :=
          broker.shared.markDelivered messageId reading.now reading.time }
  | .dropReceiver channel =>
      some { broker with shared := broker.shared.dropReceiver channel }
  | .runDeliveryTask index =>
      some { broker with shared := broker.shared.runDeliveryTask index }
  | .bookkeep connectedClients storage =>
      some { broker with
        shared :=
          { broker.shared with
            connectedClients := connectedClients
            storage := storage } }

/-- The shapes of a step: a call is made, a call advances, something happens
to a consumer channel, or the maps stay as they are. -/
theorem step_cases {before after : Broker} {event : Event}
    (stepTo : before.step event = some after) :
    (∃ invocation, event = .invoke invocation ∧
      after = { before with calls := before.calls ++ [invocation.start] }) ∨
    (∃ index reading call, event = .advance index reading ∧
      before.calls[index]? = some call ∧ call.isReturned = false ∧
      after = ⟨(call.advance reading before.shared).1,
        before.calls.set index (call.advance reading before.shared).2⟩) ∨
    (∃ messageId reading, event = .markDelivered messageId reading ∧
      after = { before with
        shared :=
          before.shared.markDelivered messageId reading.now
            reading.time }) ∨
    (∃ channel, event = .dropReceiver channel ∧
      after = { before with shared := before.shared.dropReceiver channel }) ∨
    (∃ index, event = .runDeliveryTask index ∧
      after = { before with
        shared := before.shared.runDeliveryTask index }) ∨
    (∃ connectedClients storage,
      event = .bookkeep connectedClients storage ∧
      after = { before with
        shared :=
          { before.shared with
            connectedClients := connectedClients
            storage := storage } }) := by
  cases event with
  | invoke invocation =>
      left
      exact ⟨invocation, rfl, (Option.some.inj stepTo).symm⟩
  | advance index reading =>
      right
      left
      simp only [step] at stepTo
      split at stepTo
      · rename_i call found
        split at stepTo
        · cases stepTo
        · rename_i running
          exact ⟨index, reading, call, rfl, found, by simpa using running,
            (Option.some.inj stepTo).symm⟩
      · cases stepTo
  | markDelivered messageId reading =>
      exact Or.inr (Or.inr (Or.inl
        ⟨messageId, reading, rfl, (Option.some.inj stepTo).symm⟩))
  | dropReceiver channel =>
      exact Or.inr (Or.inr (Or.inr (Or.inl
        ⟨channel, rfl, (Option.some.inj stepTo).symm⟩)))
  | runDeliveryTask index =>
      exact Or.inr (Or.inr (Or.inr (Or.inr (Or.inl
        ⟨index, rfl, (Option.some.inj stepTo).symm⟩))))
  | bookkeep connectedClients storage =>
      exact Or.inr (Or.inr (Or.inr (Or.inr (Or.inr
        ⟨connectedClients, storage, rfl, (Option.some.inj stepTo).symm⟩))))

end Broker

end CipherMQ
