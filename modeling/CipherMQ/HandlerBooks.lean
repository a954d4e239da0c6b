import CipherMQ.CallEffects
import CipherMQ.ServerEffects

/-!
# The books a handler keeps

Besides the broker a handler changes what the server knows about its clients:
how many are connected, when each name was last heard of, and the counters of
the metrics.  `Accounted` says for all handlers at once what a step enters
into these books.
-/

namespace CipherMQ

inductive Counter where
  | published
  | acked
  | limited
  deriving DecidableEq, Repr

def Metrics.count (metrics : Metrics) : Option Counter → Metrics
  | none => metrics
  | some .published =>
      { metrics with messagesPublished := metrics.messagesPublished + 1 }
  | some .acked => { metrics with messagesAcked := metrics.messagesAcked + 1 }
  | some .limited =>
      { metrics with requestsRateLimited := metrics.requestsRateLimited + 1 }

def Action.counter : Action → Option Counter
  | .refuse _ => some .limited
  | _ => none

/-- The counter a handler counts up when a call returns to it. -/
def Continuation.counter (result : Except String Unit) :
    Continuation → Option Counter
  | .confirmAck _ => some .acked
  | .confirmPublish _ | .confirmBatch _ =>
      match result with
      | .ok () => some .published
      | .error _ => none
  | .reply _ | .proceed => none

theorem Access.connectedClients_eq {before after : ServerState} {call : Call}
    (access : Access before call after) :
    after.connectedClients = before.connectedClients := by
  cases access <;> rfl

namespace Server

def counted (config : ServerConfig) (server : Server) (index : Nat)
    (session : Session) : HandlerEvent → Option Counter
  | .resume _ =>
      match session.activity with
      | .calling call next =>
          ((server.broker.calls[call]?).bind Call.result).bind fun result =>
            next.counter result
      | _ => none
  | event => (requestAction config index session event).bind Action.counter

/-- What a step of a handler enters under the name of its client in the
heartbeat monitor. -/
def beat (heartbeats : KeyMap String Nat) (clientId : String) :
    HandlerEvent → KeyMap String Nat
  | .read (some (_ :: _)) outcome => heartbeats.insert clientId outcome.now
  | .read _ _ => heartbeats.remove clientId
  | .channelClosed => heartbeats.remove clientId
  | .close => heartbeats.remove clientId
  | _ => heartbeats

/-- The events at which the name of a client is taken off the monitor. -/
def HandlerEvent.drops : HandlerEvent → Bool
  | .read (some (_ :: _)) _ => false
  | .read _ _ => true
  | .channelClosed => true
  | .close => true
  | _ => false

/-- A step in which a session moves on to `next`: the client is taken off the
count when the session ends, and `counter` and `heartbeats` are what the step
enters in the other books. -/
structure Accounted (before : Server) (index : Nat) (session next : Session)
    (counter : Option Counter) (heartbeats : KeyMap String Nat)
    (after : Server) : Prop where
  sessions : after.sessions = before.sessions.set index next
  clientId : next.clientId = session.clientId
  stays_closed : next.isOpen = true → session.isOpen = true
  connectedClients : after.broker.shared.connectedClients =
    if next.isOpen = session.isOpen then
      before.broker.shared.connectedClients
    else
      before.broker.shared.decrementClientCount.connectedClients
  metrics : after.metrics = before.metrics.count counter
  heartbeats : after.heartbeats = heartbeats

section Handlers

variable {session current : Session} (outcome : Outcome)
  (sameClient : current.clientId = session.clientId)
  (isOpen : session.isOpen = true) (server : Server) (index : Nat)

include sameClient isOpen

/-- A handler that goes on with another activity. -/
theorem accounted_setSession {activity : Activity}
    (goesOn : activity ≠ .returned ∧ activity ≠ .ended) :
    Accounted server index session { current with activity := activity }
      none server.heartbeats
      (server.setSession index { current with activity := activity }) := by
  have staysOpen :
      Session.isOpen { current with activity := activity } = true := by
    simp [Session.isOpen, goesOn.1, goesOn.2]
  constructor
  · rfl
  · exact sameClient
  · intro _
    exact isOpen
  · rw [staysOpen, isOpen, if_pos rfl]
    rfl
  · rfl
  · rfl

theorem accounted_reply (text : String) :
    Accounted server index session
      { current.write (.reply text) outcome.written with
        activity := .waiting }
      none server.heartbeats (server.reply index current outcome text) := by
  have written : (current.write (.reply text) outcome.written).clientId =
      session.clientId := by
    rw [← sameClient]
    unfold Session.write
    split <;> rfl
  exact accounted_setSession written isOpen server index (by simp)

theorem accounted_finish :
    Accounted server index session { current with activity := .returned }
      none server.heartbeats (server.finish index current) := by
  have ended :
      Session.isOpen { current with activity := .returned } = false := by
    simp [Session.isOpen]
  constructor
  · rfl
  · exact sameClient
  · intro _
    exact isOpen
  · rw [ended, isOpen, if_neg (by decide)]
    rfl
  · rfl
  · rfl

/-- An action other than a heartbeat leaves the monitor alone. -/
theorem accounted_perform (action : Action) :
    ∃ next, Accounted server index session next action.counter
      (match action with
        | .heartbeat _ =>
            server.heartbeats.insert current.clientId outcome.now
        | _ => server.heartbeats)
      (server.perform index current outcome action) := by
  have replied := accounted_reply outcome sameClient isOpen
  cases action with
  | refuse text =>
      exact ⟨_, { replied server index text with metrics := rfl }⟩
  | write text => exact ⟨_, replied server index text⟩
  | demand text =>
      simp only [perform]
      split
      · exact ⟨_, replied server index text⟩
      · exact ⟨_, accounted_finish sameClient isOpen server index⟩
  | heartbeat text =>
      exact ⟨_, { replied server index text with heartbeats := rfl }⟩
  | call invocation next =>
      have moved := @accounted_setSession session current sameClient isOpen
        server index (.calling server.broker.calls.length next) (by simp)
      exact ⟨_, { moved with }⟩
  | query query =>
      exact ⟨_, accounted_setSession sameClient isOpen server index
        (by simp)⟩

omit sameClient

theorem accounted_proceed (result : Except String Unit)
    (continuation : Continuation) :
    ∃ next, Accounted server index session next (continuation.counter result)
      server.heartbeats
      (server.proceed index session outcome result continuation) := by
  have replied := accounted_reply outcome (Eq.refl session.clientId) isOpen
  have nextOfBatch : ∀ (server : Server) exchangeName routingKey acks
      messages, ∃ next, Accounted server index session next none
        server.heartbeats
        (server.perform index session outcome
          ((session.client index).nextOfBatch exchangeName routingKey acks
            outcome.now messages)) := by
    intro server exchangeName routingKey acks messages
    cases messages with
    | nil => exact ⟨_, replied server index _⟩
    | cons message messages =>
        exact accounted_perform outcome rfl isOpen server index (.call _ _)
  cases continuation with
  | reply text => exact ⟨_, replied server index text⟩
  | proceed =>
      exact ⟨_, accounted_setSession rfl isOpen server index (by simp)⟩
  | confirmAck messageId =>
      have written : (session.write
          (.reply ("ACK confirmed " ++ messageId ++ "\n"))
          outcome.written).clientId = session.clientId := by
        unfold Session.write
        split <;> rfl
      have moved := @accounted_setSession session _ written isOpen server
        index .waiting (by simp)
      simp only [proceed]
      split
      · exact ⟨_, { moved with metrics := rfl }⟩
      · exact ⟨_, { accounted_finish written isOpen server index with
          metrics := rfl }⟩
  | confirmPublish messageId =>
      cases result with
      | ok _ =>
          exact ⟨_, { replied server.countPublished index _ with
            metrics := rfl }⟩
      | error error => exact ⟨_, replied server index _⟩
  | confirmBatch batch =>
      cases result with
      | ok _ =>
          obtain ⟨next, accounted⟩ := nextOfBatch server.countPublished
            batch.exchangeName batch.routingKey
            (batch.acks ++ ["ACK " ++ batch.current.messageId])
            batch.remaining
          exact ⟨next, { accounted with }⟩
      | error error => exact nextOfBatch server _ _ _ _

theorem accounted_answer (query : Query) :
    ∃ next, Accounted server index session next none server.heartbeats
      (server.answer index session outcome query) := by
  have replied : ∀ storage text, ∃ next,
      Accounted server index session next none server.heartbeats
        ((server.updateShared
          { server.broker.shared with storage := storage }).reply index
            session outcome text) := by
    intro storage text
    exact ⟨_, { accounted_reply outcome rfl isOpen server index text with }⟩
  cases query <;> exact replied _ _

/-- A delivery enters nothing; the messages it marks are not counted. -/
theorem accounted_deliver (delivery : Delivery) (point : DeliveryPoint) :
    ∃ next, Accounted server index session next none server.heartbeats
      (server.deliver index session outcome delivery point) := by
  have moved := @accounted_setSession session session rfl isOpen server index
  have marked : (server.broker.shared.markDelivered delivery.messageId
      outcome.now outcome.time).connectedClients =
        server.broker.shared.connectedClients := by
    unfold ServerState.markDelivered
    split
    · split <;> rfl
    · rfl
  have markedMoved : ∀ activity : Activity,
      activity ≠ .returned ∧ activity ≠ .ended →
        Accounted server index session
          { session with activity := activity } none server.heartbeats
          ((server.updateShared (server.broker.shared.markDelivered
            delivery.messageId outcome.now outcome.time)).setSession index
              { session with activity := activity }) := by
    intro activity goesOn
    have accounted := moved goesOn
    exact { accounted with
      connectedClients := marked.trans accounted.connectedClients }
  cases point with
  | checkStatus =>
      refine ⟨_, moved ?_⟩
      split <;> simp
  | checkDeliverable =>
      refine ⟨_, moved ?_⟩
      split <;> simp
  | write retryCount =>
      simp only [deliver]
      split
      · have written :
            (session.write (.message delivery) true).clientId =
              session.clientId :=
          rfl
        exact ⟨_, accounted_setSession written isOpen server index (by simp)⟩
      · split
        · exact ⟨_, moved (by simp)⟩
        · exact ⟨_, accounted_finish rfl isOpen server index⟩
  | flush retryCount => exact ⟨_, moved (by simp)⟩
  | markWritten => exact ⟨_, markedMoved _ (by simp)⟩
  | markDelivered => exact ⟨_, markedMoved _ (by simp)⟩

end Handlers

/-- What a step of a handler enters in the books. -/
theorem accounted_handle {config : ServerConfig} {before after : Server}
    {index : Nat} {session : Session} {event : HandlerEvent}
    (handles : before.handle config index session event = some after) :
    ∃ next, (event.drops = true → next.isOpen = false) ∧
      Accounted before index session next
        (counted config before index session event)
        (beat before.heartbeats session.clientId event) after := by
  have sameClient := Eq.refl session.clientId
  have leaves : Session.isOpen { session with activity := .returned } =
      false := by
    simp [Session.isOpen]
  unfold handle at handles
  split at handles
  · rename_i result outcome isWaiting
    have isOpen : session.isOpen = true := by simp [Session.isOpen, isWaiting]
    have left := accounted_finish sameClient isOpen before index
    cases handles
    rcases result with _ | _ | ⟨byte, bytes⟩
    · exact ⟨_, fun _ => leaves, { left with heartbeats := rfl }⟩
    · exact ⟨_, fun _ => leaves, { left with heartbeats := rfl }⟩
    · have received :
          ({ session with
            intake := session.intake.receive (byte :: bytes) } :
              Session).clientId = session.clientId :=
        rfl
      obtain ⟨next, accounted⟩ := accounted_perform outcome received isOpen
        (before.recordHeartbeat session.clientId outcome.now) index
        ((session.client index).handleRequest config.codec outcome.limited
          outcome.now (requestOf (session.intake.buffer ++ byte :: bytes)))
      refine ⟨next, fun drops => absurd drops (by simp [HandlerEvent.drops]),
        { accounted with metrics := ?_, heartbeats := ?_ }⟩
      · have asked : counted config before index session
            (.read (some (byte :: bytes)) outcome) =
            ((session.client index).handleRequest config.codec
              outcome.limited outcome.now
              (requestOf (session.intake.buffer ++
                byte :: bytes))).counter := by
          simp [counted, requestAction, isWaiting]
        rw [asked]
        exact accounted.metrics
      · have entered := accounted.heartbeats
        split at entered
        · exact entered.trans (KeyMap.insert_insert _ _ _ _)
        · exact entered
  · rename_i isWaiting
    have isOpen : session.isOpen = true := by simp [Session.isOpen, isWaiting]
    obtain ⟨delivery, -, rfl⟩ := Option.map_eq_some_iff.mp handles
    have taken :
        ({ session with received := session.received + 1 } :
          Session).clientId = session.clientId :=
      rfl
    exact ⟨_, fun drops => absurd drops (by simp [HandlerEvent.drops]),
      accounted_setSession taken isOpen before index (by simp)⟩
  · rename_i isWaiting
    have isOpen : session.isOpen = true := by simp [Session.isOpen, isWaiting]
    have left := accounted_finish sameClient isOpen before index
    cases handles
    exact ⟨_, fun _ => leaves, { left with heartbeats := rfl }⟩
  · rename_i call continuation outcome isCalling
    have isOpen : session.isOpen = true := by simp [Session.isOpen, isCalling]
    obtain ⟨result, returned, rfl⟩ := Option.map_eq_some_iff.mp handles
    have entered : counted config before index session (.resume outcome) =
        continuation.counter result := by
      simp [counted, isCalling, returned]
    obtain ⟨next, accounted⟩ := accounted_proceed outcome isOpen before index
      result continuation
    rw [entered]
    exact ⟨next, fun drops => absurd drops (by simp [HandlerEvent.drops]),
      accounted⟩
  · rename_i query outcome isQuerying
    have isOpen : session.isOpen = true := by
      simp [Session.isOpen, isQuerying]
    cases handles
    have entered : counted config before index session (.resume outcome) =
        none := by
      simp [counted, isQuerying]
    obtain ⟨next, accounted⟩ := accounted_answer outcome isOpen before index
      query
    rw [entered]
    exact ⟨next, fun drops => absurd drops (by simp [HandlerEvent.drops]),
      accounted⟩
  · rename_i delivery point outcome isDelivering
    have isOpen : session.isOpen = true := by
      simp [Session.isOpen, isDelivering]
    cases handles
    obtain ⟨next, accounted⟩ := accounted_deliver outcome isOpen before index
      delivery point
    exact ⟨next, fun drops => absurd drops (by simp [HandlerEvent.drops]),
      accounted⟩
  · rename_i isReturned
    cases handles
    refine ⟨{ session with activity := .ended },
      fun _ => by simp [Session.isOpen], rfl, rfl, ?_, ?_, rfl, rfl⟩
    · intro isOpen
      simp [Session.isOpen] at isOpen
    · rw [if_pos (by simp [Session.isOpen, isReturned])]
      rfl
  · cases handles

/-- The event at which the handler reads the given time from the clock. -/
def HandlerEvent.atTime (now : Nat) : HandlerEvent → HandlerEvent
  | .read result outcome => .read result { outcome with now := now }
  | .resume outcome => .resume { outcome with now := now }
  | .deliver outcome => .deliver { outcome with now := now }
  | event => event

def Event.atTime (now : Nat) : Event → Event
  | .connect clientId ip outcome =>
      .connect clientId ip { outcome with now := now }
  | .handler index event => .handler index (event.atTime now)
  | event => event

@[simp]
theorem HandlerEvent.drops_atTime (now : Nat) (event : HandlerEvent) :
    (event.atTime now).drops = event.drops := by
  cases event with
  | read result outcome =>
      match result with
      | none => rfl
      | some [] => rfl
      | some (_ :: _) => rfl
  | _ => rfl

/-- The accesses of calls and the deliveries of tasks, which enter nothing. -/
def Event.isBrokers : Event → Bool
  | .advance _ _ => true
  | .runDeliveryTask _ => true
  | _ => false

theorem brokers_step {config : ServerConfig} {before after : Server}
    {event : Event} (isBrokers : event.isBrokers = true)
    (stepTo : before.step config event = some after) :
    ∃ broker, after = { before with broker := broker } ∧
      broker.shared.connectedClients =
        before.broker.shared.connectedClients := by
  cases event with
  | advance call reading =>
      obtain ⟨broker, stepped, rfl⟩ := Option.map_eq_some_iff.mp stepTo
      refine ⟨broker, rfl, ?_⟩
      rcases Broker.step_cases stepped with ⟨_, isOther, -⟩ |
        ⟨index, reading, call, -, -, -, rfl⟩ | ⟨_, _, isOther, -⟩ |
        ⟨_, isOther, -⟩ | ⟨_, isOther, -⟩ | ⟨_, _, isOther, -⟩
      · cases isOther
      · exact (access_advance reading _ call).connectedClients_eq
      · cases isOther
      · cases isOther
      · cases isOther
      · cases isOther
  | runDeliveryTask task =>
      cases stepTo
      refine ⟨_, rfl, ?_⟩
      obtain ⟨channels, deliveryTasks, ran⟩ :=
        ServerState.runDeliveryTask_frame before.broker.shared task
      dsimp only
      rw [ran]
  | handshakeFailed => cases isBrokers
  | connect clientId ip outcome => cases isBrokers
  | handler index handlerEvent => cases isBrokers
  | shutdown => cases isBrokers

/-- What a step of the server enters in the books. -/
theorem step_books {config : ServerConfig} {before after : Server}
    {event : Event} (stepTo : before.step config event = some after) :
    ((event = .handshakeFailed ∨ event = .shutdown) ∧
      after = before.updateShared
        before.broker.shared.decrementClientCount) ∨
    (∃ clientId ip outcome, event = .connect clientId ip outcome ∧
      after = before.connect config clientId ip outcome) ∨
    (∃ index handlerEvent session next,
      event = .handler index handlerEvent ∧
      before.sessions[index]? = some session ∧
      before.handle config index session handlerEvent = some after ∧
      (handlerEvent.drops = true → next.isOpen = false) ∧
      Accounted before index session next
        (counted config before index session handlerEvent)
        (beat before.heartbeats session.clientId handlerEvent) after) ∨
    (∃ broker, event.isBrokers = true ∧
      after = { before with broker := broker } ∧
      broker.shared.connectedClients =
        before.broker.shared.connectedClients) := by
  cases event with
  | handshakeFailed =>
      cases stepTo
      exact .inl ⟨.inl rfl, rfl⟩
  | shutdown =>
      cases stepTo
      exact .inl ⟨.inr rfl, rfl⟩
  | connect clientId ip outcome =>
      cases stepTo
      exact .inr (.inl ⟨clientId, ip, outcome, rfl, rfl⟩)
  | handler index handlerEvent =>
      obtain ⟨session, found, handles⟩ := Option.bind_eq_some_iff.mp stepTo
      obtain ⟨next, closes, accounted⟩ := accounted_handle handles
      exact .inr (.inr (.inl ⟨index, handlerEvent, session, next, rfl, found,
        handles, closes, accounted⟩))
  | advance call reading =>
      obtain ⟨broker, isAfter, same⟩ := brokers_step rfl stepTo
      exact .inr (.inr (.inr ⟨broker, rfl, isAfter, same⟩))
  | runDeliveryTask task =>
      obtain ⟨broker, isAfter, same⟩ := brokers_step rfl stepTo
      exact .inr (.inr (.inr ⟨broker, rfl, isAfter, same⟩))

end Server

end CipherMQ
