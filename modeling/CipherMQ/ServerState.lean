import CipherMQ.KeyMap
import CipherMQ.Storage
import CipherMQ.TransitionSystem

/-!
# The broker state and its operations

`ServerState` holds the maps every client handler shares: the queues, the
index from a message to the queues that hold it, the bindings, the exchanges,
the consumers and the status of every live message.  The operations below are
the methods of `ServerState`, each run to completion.  Clock readings and
database replies are arguments.

Two fields stand for what the handles in the source point to.  `channels` is
the contents of the consumer channels, and `deliveryTasks` are the tasks
`register_consumer` spawns to hand a backlog to a new consumer.
-/

namespace CipherMQ

/-- A published message.  Everything but the identifiers is opaque to the
broker. -/
structure EncryptedInputData where
  messageId : String
  receiverClientId : String
  encSessionKey : String
  nonce : String
  ciphertext : String
  deriving DecidableEq, Repr

/-- The life of a message in the broker, by the instants at which it moved. -/
structure MessageStatus where
  sentTime : Option Nat
  deliveredTime : Option Nat
  acknowledgedTime : Option Nat
  deriving DecidableEq, Repr

namespace MessageStatus

def sent (time : Nat) : MessageStatus :=
  { sentTime := some time
    deliveredTime := none
    acknowledgedTime := none }

def delivered (status : MessageStatus) (time : Nat) : MessageStatus :=
  { status with deliveredTime := some time }

def acknowledged (status : MessageStatus) (time : Nat) : MessageStatus :=
  { status with acknowledgedTime := some time }

def canDeliver (status : MessageStatus) : Bool :=
  status.acknowledgedTime.isNone

@[simp]
theorem canDeliver_sent (time : Nat) : (sent time).canDeliver = true :=
  rfl

@[simp]
theorem canDeliver_delivered (status : MessageStatus) (time : Nat) :
    (status.delivered time).canDeliver = status.canDeliver :=
  rfl

end MessageStatus

/-- An entry of a queue: the identifier of a message with the message. -/
abbrev QueueEntry := String × EncryptedInputData

/-- The name of an unbounded consumer channel. -/
abbrev ChannelId := Nat

/-- A message put on a consumer channel.  `source` records the queue on whose
behalf it was sent; it is not part of the transmitted value. -/
structure Delivery where
  source : String
  messageId : String
  message : EncryptedInputData
  deriving DecidableEq, Repr

/-- The contents of a consumer channel: everything ever sent on it.  A channel
is closed once its receiving half is gone. -/
structure Channel where
  closed : Bool
  sent : List Delivery
  deriving DecidableEq, Repr

/-- A spawned task that still has `remaining` messages of a backlog to send. -/
structure DeliveryTask where
  channel : ChannelId
  source : String
  remaining : List QueueEntry
  deriving DecidableEq, Repr

/-- The shared state of the broker.  A queue is listed from its front, and a
set of queue names is kept as the list of its members. -/
@[ext]
structure ServerState where
  queues : KeyMap String (List QueueEntry)
  messageQueues : KeyMap String (List String)
  bindings : KeyMap String (List (String × String))
  exchanges : KeyMap String (List String)
  consumers : KeyMap String (List ChannelId)
  messageStatus : KeyMap String MessageStatus
  connectedClients : Nat
  storage : Storage
  maxQueueSize : Nat
  channels : ChannelId → Channel
  deliveryTasks : List DeliveryTask

namespace ServerState

def new (maxQueueSize : Nat) : ServerState where
  queues := KeyMap.empty
  messageQueues := KeyMap.empty
  bindings := KeyMap.empty
  exchanges := KeyMap.empty
  consumers := KeyMap.empty
  messageStatus := KeyMap.empty
  connectedClients := 0
  storage := ⟨[]⟩
  maxQueueSize := maxQueueSize
  channels := fun _ => ⟨false, []⟩
  deliveryTasks := []

/-! ## Topology -/

def declareQueue (state : ServerState) (queueName : String) : ServerState :=
  { state with queues := state.queues.orInsert queueName [] }

def declareExchange (state : ServerState) (exchangeName : String) :
    ServerState :=
  { state with exchanges := state.exchanges.orInsert exchangeName [] }

def insertBinding (state : ServerState)
    (queueName exchangeName routingKey : String) : ServerState :=
  let binding := (queueName, routingKey)
  { state with
    bindings := state.bindings.insert exchangeName
      (match state.bindings exchangeName with
        | some bindings =>
            if binding ∈ bindings then bindings else bindings ++ [binding]
        | none => [binding]) }

def bindQueue (state : ServerState)
    (queueName exchangeName routingKey : String) : ServerState :=
  if state.queues.containsKey queueName &&
      state.exchanges.containsKey exchangeName then
    state.insertBinding queueName exchangeName routingKey
  else
    state

/-! ## Publishing -/

def targetQueues (state : ServerState) (exchangeName routingKey : String) :
    List String :=
  match state.bindings exchangeName with
  | some bindings =>
      (bindings.filter fun binding => binding.2 = routingKey).map Prod.fst
  | none => []

def popOldest (maxQueueSize : Nat) (queue : List QueueEntry) :
    Option String × List QueueEntry :=
  if maxQueueSize ≤ queue.length then
    match queue with
    | [] => (none, [])
    | (oldMessageId, _) :: rest => (some oldMessageId, rest)
  else
    (none, queue)

def evictFromIndex (state : ServerState) (queueName oldMessageId : String) :
    ServerState :=
  { state with
    messageQueues := state.messageQueues.modify oldMessageId
      fun queueSet => queueSet.filter (· ≠ queueName) }

def evictStatus (state : ServerState) (oldMessageId : String) : ServerState :=
  { state with messageStatus := state.messageStatus.remove oldMessageId }

def evict (state : ServerState) (queueName : String) :
    Option String → ServerState
  | some oldMessageId =>
      (state.evictFromIndex queueName oldMessageId).evictStatus oldMessageId
  | none => state

/-- One round of the enqueue loop: make room in a full queue, append the
message and note the queue in the message's queue set. -/
def enqueue (message : EncryptedInputData) (state : ServerState)
    (queueSet : List String) (queueName : String) :
    ServerState × List String :=
  match state.queues queueName with
  | none => (state, queueSet)
  | some queue =>
      let popped := popOldest state.maxQueueSize queue
      let evicted := state.evict queueName popped.1
      ({ evicted with
          queues := evicted.queues.insert queueName
            (popped.2 ++ [(message.messageId, message)]) },
        queueSet.insert queueName)

def enqueueAll (message : EncryptedInputData) (state : ServerState)
    (queueSet targets : List String) : ServerState × List String :=
  targets.foldl
    (fun progress queueName => enqueue message progress.1 progress.2 queueName)
    (state, queueSet)

def send (state : ServerState) (channel : ChannelId) (delivery : Delivery) :
    ServerState × Bool :=
  if (state.channels channel).closed then
    (state, false)
  else
    ({ state with
        channels := Function.update state.channels channel
          { state.channels channel with
            sent := (state.channels channel).sent ++ [delivery] } },
      true)

/-- One round of the `retain` over a consumer list: a closed sender is
dropped, an open one is sent the message and kept when the send succeeds. -/
def notifySender (delivery : Delivery)
    (progress : ServerState × List ChannelId) (sender : ChannelId) :
    ServerState × List ChannelId :=
  if (progress.1.channels sender).closed then
    progress
  else
    match progress.1.send sender delivery with
    | (state, true) => (state, progress.2 ++ [sender])
    | (state, false) => (state, progress.2)

def notifyConsumers (message : EncryptedInputData) (state : ServerState)
    (queueName : String) : ServerState :=
  match state.consumers queueName with
  | none => state
  | some senders =>
      let notified := senders.foldl
        (notifySender ⟨queueName, message.messageId, message⟩) (state, [])
      { notified.1 with
        consumers := notified.1.consumers.insert queueName notified.2 }

def publishMetadata (exchangeName routingKey : String)
    (message : EncryptedInputData) (clientId sentTime : String) :
    MessageMetadata where
  messageId := message.messageId
  clientId := clientId
  exchangeName := exchangeName
  routingKey := routingKey
  sentTime := some sentTime
  deliveredTime := none
  acknowledgedTime := none

def track (state : ServerState) (message : EncryptedInputData)
    (queueSet : List String) (receivedTime : Nat) : ServerState :=
  { state with
    messageQueues := state.messageQueues.insert message.messageId queueSet
    messageStatus := state.messageStatus.insert message.messageId
      (.sent receivedTime) }

/-- What a publish does once its target queues are known. -/
def deliverTo (state : ServerState) (message : EncryptedInputData)
    (receivedTime : Nat) (targets : List String) : ServerState :=
  let enqueued := state.enqueueAll message [] targets
  targets.foldl (notifyConsumers message)
    (enqueued.1.track message enqueued.2 receivedTime)

/-- Publish a message.  `sentTime` is the wall-clock text saved with the
metadata, `receivedTime` the instant the request was handled, and `reply` the
storage worker's answer. -/
def publish (state : ServerState) (exchangeName routingKey : String)
    (message : EncryptedInputData) (clientId : String) (receivedTime : Nat)
    (sentTime : String) (reply : Except StorageError Unit) :
    ServerState × Except String Unit :=
  if state.messageStatus.containsKey message.messageId then
    (state, .error ("Duplicate message " ++ message.messageId ++ " ignored"))
  else
    let saved := state.storage.saveMetadata
      (publishMetadata exchangeName routingKey message clientId sentTime) reply
    let state := { state with storage := saved.1 }
    match saved.2 with
    | .error error =>
        (state, .error ("Failed to save metadata: " ++ error.display))
    | .ok () =>
        let targets := state.targetQueues exchangeName routingKey
        if targets.isEmpty then
          (state,
            .error ("No queues bound to exchange '" ++ exchangeName ++
              "' with routing key '" ++ routingKey ++ "'"))
        else
          (state.deliverTo message receivedTime targets, .ok ())

/-! ## Consuming and acknowledging -/

/-- The filter of a backlog: only messages with a live status are handed out. -/
def deliverable (state : ServerState) (entry : QueueEntry) : Bool :=
  ((state.messageStatus entry.1).map MessageStatus.canDeliver).getD false

def pendingMessages (state : ServerState) (queueName : String) :
    List QueueEntry :=
  ((state.queues queueName).getD []).filter state.deliverable

def addConsumer (state : ServerState) (queueName : String)
    (sender : ChannelId) : ServerState :=
  { state with
    consumers := state.consumers.insert queueName
      ((state.consumers queueName).getD [] ++ [sender]) }

def spawn (state : ServerState) (task : DeliveryTask) : ServerState :=
  { state with deliveryTasks := state.deliveryTasks ++ [task] }

def registerConsumer (state : ServerState) (queueName : String)
    (sender : ChannelId) : ServerState :=
  let state := (state.declareQueue queueName).addConsumer queueName sender
  match state.queues queueName with
  | some queue =>
      if 0 < queue.length then
        state.spawn ⟨sender, queueName, state.pendingMessages queueName⟩
      else
        state
  | none => state

def removeFromQueue (messageId : String) (state : ServerState)
    (queueName : String) : ServerState :=
  { state with
    queues := state.queues.modify queueName
      fun queue => queue.filter fun entry => entry.1 ≠ messageId }

def markAcknowledged (state : ServerState) (messageId : String)
    (now : Nat) : ServerState :=
  { state with
    messageStatus := state.messageStatus.modify messageId
      fun status => status.acknowledged now }

def forget (state : ServerState) (messageId : String) : ServerState :=
  { state with
    messageQueues := state.messageQueues.remove messageId
    messageStatus := state.messageStatus.remove messageId }

def acknowledge (state : ServerState) (messageId : String) (now : Nat)
    (ackTime : String) : ServerState :=
  if state.messageStatus.containsKey messageId then
    let marked := state.markAcknowledged messageId now
    let reported :=
      { marked with
        storage :=
          marked.storage.updateAcknowledgedTimeAsync messageId ackTime }
    let removed := ((reported.messageQueues messageId).getD []).foldl
      (removeFromQueue messageId) reported
    removed.forget messageId
  else
    state

/-! ## Consumer channels between the calls -/

/-- The update of a message's status after a copy of it was written to a
client.  Only the first delivery is timed and reported. -/
def markDelivered (state : ServerState) (messageId : String) (now : Nat)
    (deliveredTime : String) : ServerState :=
  match state.messageStatus messageId with
  | some status =>
      if status.deliveredTime.isNone then
        { state with
          messageStatus :=
            state.messageStatus.insert messageId (status.delivered now)
          storage :=
            state.storage.updateDeliveredTimeAsync messageId deliveredTime }
      else
        state
  | none => state

/-- The receiving half of a channel goes away when its connection ends. -/
def dropReceiver (state : ServerState) (channel : ChannelId) : ServerState :=
  { state with
    channels := Function.update state.channels channel
      { state.channels channel with closed := true } }

/-- A spawned task sends the next message of its backlog; it gives up when the
channel is closed. -/
def runDeliveryTask (state : ServerState) (index : Nat) : ServerState :=
  match state.deliveryTasks[index]? with
  | some ⟨channel, source, (messageId, message) :: rest⟩ =>
      match state.send channel ⟨source, messageId, message⟩ with
      | (sent, true) =>
          { sent with
            deliveryTasks :=
              sent.deliveryTasks.set index ⟨channel, source, rest⟩ }
      | (failed, false) =>
          { failed with
            deliveryTasks :=
              failed.deliveryTasks.set index ⟨channel, source, []⟩ }
  | _ => state

/-! ## Sequences of completed operations -/

/-- The operations clients invoke on the shared state, and what happens to
consumer channels and their messages between them. -/
inductive Operation where
  | declareQueue (queueName : String)
  | declareExchange (exchangeName : String)
  | bindQueue (queueName exchangeName routingKey : String)
  | publish (exchangeName routingKey : String) (message : EncryptedInputData)
      (clientId : String) (receivedTime : Nat) (sentTime : String)
      (reply : Except StorageError Unit)
  | registerConsumer (queueName : String) (sender : ChannelId)
  | acknowledge (messageId : String) (now : Nat) (ackTime : String)
  | markDelivered (messageId : String) (now : Nat) (deliveredTime : String)
  | dropReceiver (channel : ChannelId)
  | runDeliveryTask (index : Nat)

def apply (state : ServerState) : Operation → ServerState
  | .declareQueue queueName => state.declareQueue queueName
  | .declareExchange exchangeName => state.declareExchange exchangeName
  | .bindQueue queueName exchangeName routingKey =>
      state.bindQueue queueName exchangeName routingKey
  | .publish exchangeName routingKey message clientId receivedTime sentTime
      reply =>
      (state.publish exchangeName routingKey message clientId receivedTime
        sentTime reply).1
  | .registerConsumer queueName sender =>
      state.registerConsumer queueName sender
  | .acknowledge messageId now ackTime =>
      state.acknowledge messageId now ackTime
  | .markDelivered messageId now deliveredTime =>
      state.markDelivered messageId now deliveredTime
  | .dropReceiver channel => state.dropReceiver channel
  | .runDeliveryTask index => state.runDeliveryTask index

def after (maxQueueSize : Nat) (operations : List Operation) : ServerState :=
  runFrom apply (new maxQueueSize) operations

end ServerState

end CipherMQ
