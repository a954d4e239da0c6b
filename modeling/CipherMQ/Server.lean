import CipherMQ.ClientRequest
import CipherMQ.RateLimiter

/-!
# The server

The server runs one handler per client connection.  A handler waits for bytes
from its client and for messages on its channel; between two waits it checks a
request, makes calls on the broker, puts queries to the storage worker, or
writes a message to its client.  Handlers interleave with each other and with
the accesses of the calls they have made, so every wait and every write is a
step of its own.

What the network, the clocks, the database and the rate limiter answer is part
of the event.  A read that times out has no effect and is not an event.
-/

namespace CipherMQ

inductive Line where
  | reply (text : String)
  | message (delivery : Delivery)
  deriving DecidableEq, Repr

def Line.text (codec : Codec) : Line → String
  | .reply text => text
  | .message delivery =>
      "Message: " ++ delivery.messageId ++ " " ++
        codec.print delivery.message ++ "\n"

inductive DeliveryPoint where
  | checkStatus
  | checkDeliverable
  | write (retryCount : Nat)
  | flush (retryCount : Nat)
  | markWritten
  | markDelivered
  deriving DecidableEq, Repr

/-- What a handler is doing.  A handler that has returned still has to be
taken off the heartbeat monitor by the task that ran it. -/
inductive Activity where
  | waiting
  | calling (call : Nat) (next : Continuation)
  | querying (query : Query)
  | delivering (delivery : Delivery) (point : DeliveryPoint)
  | returned
  | ended
  deriving DecidableEq, Repr

/-- A client connection.  Its channel is named by its position among the
sessions, and `received` counts the messages taken off that channel. -/
structure Session where
  clientId : String
  ip : String
  role : Role
  intake : Intake
  received : Nat
  activity : Activity
  written : List Line
  deriving DecidableEq, Repr

namespace Session

def isOpen (session : Session) : Bool :=
  session.activity ≠ .returned ∧ session.activity ≠ .ended

def client (session : Session) (sender : ChannelId) : Client :=
  ⟨session.clientId, session.role, sender⟩

/-- A connection whose handler starts out with the given activity. -/
def new (clientId ip : String) (role : Role) (activity : Activity)
    (written : List Line) : Session :=
  ⟨clientId, ip, role, Intake.new, 0, activity, written⟩

/-- Write a line; a write that fails leaves nothing complete. -/
def write (session : Session) (line : Line) (succeeds : Bool) : Session :=
  if succeeds then
    { session with written := session.written ++ [line] }
  else
    session

end Session

structure Metrics where
  messagesPublished : UInt64
  messagesAcked : UInt64
  messagesDelivered : UInt64
  connectionsTotal : UInt64
  connectionsRejectedConnLimit : UInt64
  requestsRateLimited : UInt64
  deriving DecidableEq, Repr

structure ServerConfig where
  acl : AclManager
  limits : RateLimitConfig
  maxQueueSize : Nat
  codec : Codec

/-- What a step of a handler learns from outside: whether its write and its
flush succeed, the clocks, whether the rate limiter refuses the request, and
the answers of the storage worker. -/
structure Outcome where
  written : Bool
  flushed : Bool
  now : Nat
  time : String
  limited : Bool
  saved : Except StorageError Unit
  found : Except StorageError (Option String)

def Outcome.smooth : Outcome where
  written := true
  flushed := true
  now := 0
  time := "t"
  limited := false
  saved := .ok ()
  found := .ok none

structure Server where
  broker : Broker
  connections : Connections
  heartbeats : KeyMap String Nat
  metrics : Metrics
  sessions : List Session

namespace ServerState

def usizeMax : Nat := 2 ^ 64 - 1

def incrementClientCount (state : ServerState) : ServerState :=
  { state with
    connectedClients :=
      if state.connectedClients = usizeMax then 0
      else state.connectedClients + 1 }

/-- The counter wraps below zero. -/
def decrementClientCount (state : ServerState) : ServerState :=
  { state with
    connectedClients :=
      if state.connectedClients = 0 then usizeMax
      else state.connectedClients - 1 }

end ServerState

namespace Server

def new (config : ServerConfig) : Server where
  broker := .new config.maxQueueSize
  connections := .new
  heartbeats := KeyMap.empty
  metrics := ⟨0, 0, 0, 0, 0, 0⟩
  sessions := []

def recordHeartbeat (server : Server) (clientId : String) (now : Nat) :
    Server :=
  { server with heartbeats := server.heartbeats.insert clientId now }

def removeClient (server : Server) (clientId : String) : Server :=
  { server with heartbeats := server.heartbeats.remove clientId }

def updateShared (server : Server) (shared : ServerState) : Server :=
  { server with broker := { server.broker with shared := shared } }

def setSession (server : Server) (index : Nat) (session : Session) :
    Server :=
  { server with sessions := server.sessions.set index session }

def finish (server : Server) (index : Nat) (session : Session) : Server :=
  (server.updateShared
    (server.broker.shared.decrementClientCount.dropReceiver index)).setSession
      index { session with activity := .returned }

def reply (server : Server) (index : Nat) (session : Session)
    (outcome : Outcome) (text : String) : Server :=
  server.setSession index
    { session.write (.reply text) outcome.written with activity := .waiting }

def countPublished (server : Server) : Server :=
  { server with
    metrics :=
      { server.metrics with
        messagesPublished := server.metrics.messagesPublished + 1 } }

def perform (server : Server) (index : Nat) (session : Session)
    (outcome : Outcome) : Action → Server
  | .refuse text =>
      { server.reply index session outcome text with
        metrics :=
          { server.metrics with
            requestsRateLimited := server.metrics.requestsRateLimited + 1 } }
  | .write text => server.reply index session outcome text
  | .demand text =>
      if outcome.written then
        server.reply index session outcome text
      else
        server.finish index session
  | .heartbeat text =>
      (server.recordHeartbeat session.clientId outcome.now).reply index
        session outcome text
  | .call invocation next =>
      { server with
        broker :=
          { server.broker with
            calls := server.broker.calls ++ [invocation.start] }
        sessions := server.sessions.set index
          { session with
            activity := .calling server.broker.calls.length next } }
  | .query query =>
      server.setSession index { session with activity := .querying query }

def proceed (server : Server) (index : Nat) (session : Session)
    (outcome : Outcome) (result : Except String Unit) :
    Continuation → Server
  | .reply text => server.reply index session outcome text
  | .proceed =>
      server.setSession index { session with activity := .waiting }
  | .confirmAck messageId =>
      let server :=
        { server with
          metrics :=
            { server.metrics with
              messagesAcked := server.metrics.messagesAcked + 1 } }
      let session := session.write
        (.reply ("ACK confirmed " ++ messageId ++ "\n")) outcome.written
      if outcome.written && outcome.flushed then
        server.setSession index { session with activity := .waiting }
      else
        server.finish index session
  | .confirmPublish messageId =>
      match result with
      | .ok () =>
          server.countPublished.reply index session outcome
            ("ACK " ++ messageId ++ "\n")
      | .error error =>
          server.reply index session outcome ("Error: " ++ error ++ "\n")
  | .confirmBatch batch =>
      match result with
      | .ok () =>
          server.countPublished.perform index session outcome
            ((session.client index).nextOfBatch batch.exchangeName
              batch.routingKey
              (batch.acks ++ ["ACK " ++ batch.current.messageId])
              outcome.now batch.remaining)
      | .error error =>
          server.perform index session outcome
            ((session.client index).nextOfBatch batch.exchangeName
              batch.routingKey
              (batch.acks ++ ["Error: " ++ error ++ " for message " ++
                batch.current.messageId])
              outcome.now batch.remaining)

def answer (server : Server) (index : Nat) (session : Session)
    (outcome : Outcome) (query : Query) : Server :=
  let shared := server.broker.shared
  match query with
  | .resend messageId =>
      let asked := shared.storage.getClientIdForMessage messageId outcome.found
      (server.updateShared { shared with storage := asked.1 }).reply index
        session outcome
        (match asked.2 with
          | .ok (some targetClientId) =>
              if targetClientId = session.clientId then "Resend requested\n"
              else "Unauthorized resend request\n"
          | .ok none => "Message ID not found\n"
          | .error _ => "Error retrieving message metadata\n")
  | .registerPublicKey publicKey =>
      let asked := shared.storage.savePublicKey
        ⟨session.clientId, publicKey⟩ outcome.saved
      (server.updateShared { shared with storage := asked.1 }).reply index
        session outcome
        (match asked.2 with
          | .ok () => "Public key registered\n"
          | .error error =>
              "Error: Failed to save public key: " ++ error.display ++ "\n")
  | .getPublicKey clientId =>
      let asked := shared.storage.getPublicKey clientId outcome.found
      (server.updateShared { shared with storage := asked.1 }).reply index
        session outcome
        (match asked.2 with
          | .ok (some publicKey) => "Public key: " ++ publicKey ++ "\n"
          | .ok none => "Public key not found\n"
          | .error error =>
              "Error: Failed to get public key: " ++ error.display ++ "\n")

def maxRetries : Nat := 3

/-- One step of the delivery of a message.  The loop over retries is left for
the last update of the status after a flushed write, and also after the last
flush has failed; a last write that fails ends the connection. -/
def deliver (server : Server) (index : Nat) (session : Session)
    (outcome : Outcome) (delivery : Delivery) : DeliveryPoint → Server
  | .checkStatus =>
      server.setSession index
        { session with
          activity :=
            if server.broker.shared.messageStatus.containsKey
                delivery.messageId then
              .delivering delivery .checkDeliverable
            else
              .waiting }
  | .checkDeliverable =>
      server.setSession index
        { session with
          activity :=
            if server.broker.shared.deliverable
                (delivery.messageId, delivery.message) then
              .delivering delivery (.write 0)
            else
              .waiting }
  | .write retryCount =>
      if outcome.written then
        server.setSession index
          { session.write (.message delivery) true with
            activity := .delivering delivery (.flush retryCount) }
      else if retryCount + 1 < maxRetries then
        server.setSession index
          { session with
            activity := .delivering delivery (.write (retryCount + 1)) }
      else
        server.finish index session
  | .flush retryCount =>
      server.setSession index
        { session with
          activity := .delivering delivery
            (if outcome.flushed then .markWritten
              else if retryCount + 1 < maxRetries then
                .write (retryCount + 1)
              else .markDelivered) }
  | .markWritten =>
      (server.updateShared (server.broker.shared.markDelivered
        delivery.messageId outcome.now outcome.time)).setSession index
          { session with activity := .delivering delivery .markDelivered }
  | .markDelivered =>
      (server.updateShared (server.broker.shared.markDelivered
        delivery.messageId outcome.now outcome.time)).setSession index
          { session with activity := .waiting }

def connect (config : ServerConfig) (server : Server)
    (clientId ip : String) (outcome : Outcome) : Server :=
  let role := config.acl.resolveRole clientId
  if role = .unknown then
    { server with
      sessions := server.sessions ++
        [(Session.new clientId ip role .returned []).write
          (.reply "Access denied: unrecognized client identity\n")
          outcome.written] }
  else
    let checked := server.connections.checkConnection config.limits clientId ip
    if checked.2.isAllowed = false then
      { server with
        connections := checked.1
        metrics :=
          { server.metrics with
            connectionsRejectedConnLimit :=
              server.metrics.connectionsRejectedConnLimit + 1 }
        sessions := server.sessions ++
          [Session.new clientId ip role .returned []] }
    else
      ({ server with
          broker :=
            { server.broker with
              shared := server.broker.shared.incrementClientCount }
          connections := checked.1
          metrics :=
            { server.metrics with
              connectionsTotal := server.metrics.connectionsTotal + 1 }
          sessions := server.sessions ++
            [Session.new clientId ip role .waiting []] }).recordHeartbeat
        clientId outcome.now

/-- A read has returned: bytes, none at the end of the stream, or an error. -/
def read (config : ServerConfig) (server : Server) (index : Nat)
    (session : Session) (outcome : Outcome) : Option (List UInt8) → Server
  | none => (server.finish index session).removeClient session.clientId
  | some [] => (server.finish index session).removeClient session.clientId
  | some bytes =>
      (server.recordHeartbeat session.clientId outcome.now).perform index
        { session with intake := session.intake.receive bytes } outcome
        ((session.client index).handleRequest config.codec outcome.limited
          outcome.now (requestOf (session.intake.buffer ++ bytes)))

inductive HandlerEvent where
  | read (result : Option (List UInt8)) (outcome : Outcome)
  | receive
  | resume (outcome : Outcome)
  | deliver (outcome : Outcome)
  | channelClosed
  | close

def handle (config : ServerConfig) (server : Server) (index : Nat)
    (session : Session) (event : HandlerEvent) : Option Server :=
  match session.activity, event with
  | .waiting, .read result outcome =>
      some (server.read config index session outcome result)
  | .waiting, .receive =>
      ((server.broker.shared.channels index).sent[session.received]?).map
        fun delivery =>
          server.setSession index
            { session with
              received := session.received + 1
              activity := .delivering delivery .checkStatus }
  | .waiting, .channelClosed =>
      some ((server.finish index session).removeClient session.clientId)
  | .calling call next, .resume outcome =>
      ((server.broker.calls[call]?).bind Call.result).map
        fun result => server.proceed index session outcome result next
  | .querying query, .resume outcome =>
      some (server.answer index session outcome query)
  | .delivering delivery point, .deliver outcome =>
      some (server.deliver index session outcome delivery point)
  | .returned, .close =>
      some ((server.setSession index
        { session with activity := .ended }).removeClient session.clientId)
  | _, _ => none

inductive Event where
  | handshakeFailed
  | connect (clientId ip : String) (outcome : Outcome)
  | handler (index : Nat) (event : HandlerEvent)
  | advance (call : Nat) (reading : Reading)
  | runDeliveryTask (task : Nat)
  | shutdown

def step (config : ServerConfig) (server : Server) : Event → Option Server
  | .handshakeFailed =>
      some (server.updateShared server.broker.shared.decrementClientCount)
  | .connect clientId ip outcome =>
      some (server.connect config clientId ip outcome)
  | .handler index event =>
      (server.sessions[index]?).bind fun session =>
        server.handle config index session event
  | .advance call reading =>
      (server.broker.step (.advance call reading)).map fun broker =>
        { server with broker := broker }
  | .runDeliveryTask task =>
      (server.broker.step (.runDeliveryTask task)).map fun broker =>
        { server with broker := broker }
  | .shutdown =>
      some (server.updateShared server.broker.shared.decrementClientCount)

end Server

end CipherMQ
