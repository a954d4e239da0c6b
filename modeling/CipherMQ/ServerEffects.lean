import CipherMQ.Server
import CipherMQ.TransitionSystem

/-!
# What one step of a handler does

A step of a handler replaces its own session, leaves the tables of the limiter
alone, and acts on the broker only through broker steps.  `Handled` says so
once for all handlers; the results about whole runs of the server are derived
from it.
-/

namespace CipherMQ

/-- The broker steps in which every call made is one of the `permitted`. -/
def Broker.Invokes (permitted : Invocation → Prop) (_ : Broker)
    (event : Broker.Event) : Prop :=
  ∀ invocation, event = .invoke invocation → permitted invocation

namespace Server

open Broker (Invokes)

/-- A step in which the session at `index` moves on from `session` to `next`
and makes only calls of the `permitted` kind. -/
structure Handled (permitted : Invocation → Prop) (before : Server)
    (index : Nat) (session next : Session) (after : Server) : Prop where
  sessions : after.sessions = before.sessions.set index next
  connections : after.connections = before.connections
  broker :
    ReachableWhile Broker.step (Invokes permitted) before.broker after.broker
  clientId : next.clientId = session.clientId
  ip : next.ip = session.ip
  role : next.role = session.role
  stays_closed : next.isOpen = true → session.isOpen = true
  written : ∀ delivery, .message delivery ∈ next.written →
    .message delivery ∈ session.written ∨
      ∃ point, session.activity = .delivering delivery point
  delivering : ∀ delivery point,
    next.activity = .delivering delivery point →
      (∃ point, session.activity = .delivering delivery point) ∨
        delivery ∈ (before.broker.shared.channels index).sent

section Broker

variable (permitted : Invocation → Prop)

theorem reachable_bookkeep (broker : Broker) (connectedClients : Nat)
    (storage : Storage) :
    ReachableWhile Broker.step (Invokes permitted) broker
      { broker with
        shared :=
          { broker.shared with
            connectedClients := connectedClients
            storage := storage } } :=
  .next (.bookkeep connectedClients storage) .start
    (by intro invocation isInvoke; cases isInvoke) rfl

theorem reachable_markDelivered (broker : Broker) (messageId : String)
    (now : Nat) (time : String) :
    ReachableWhile Broker.step (Invokes permitted) broker
      { broker with
        shared := broker.shared.markDelivered messageId now time } :=
  .next (.markDelivered messageId ⟨.ok (), now, time⟩) .start
    (by intro invocation isInvoke; cases isInvoke) rfl

/-- The handler's last access: its client is no longer counted and its channel
closes. -/
theorem reachable_finish (broker : Broker) (channel : ChannelId) :
    ReachableWhile Broker.step (Invokes permitted) broker
      { broker with
        shared :=
          broker.shared.decrementClientCount.dropReceiver channel } :=
  .next (.dropReceiver channel)
    (reachable_bookkeep permitted broker
      broker.shared.decrementClientCount.connectedClients
      broker.shared.storage)
    (by intro invocation isInvoke; cases isInvoke) rfl

theorem reachable_invoke {invocation : Invocation} (broker : Broker)
    (isPermitted : permitted invocation) :
    ReachableWhile Broker.step (Invokes permitted) broker
      { broker with calls := broker.calls ++ [invocation.start] } :=
  .next (.invoke invocation) .start
    (by intro other isInvoke; cases isInvoke; exact isPermitted) rfl

end Broker

/-- The same connection, with nothing but replies added to what was
written. -/
structure Continues (session next : Session) : Prop where
  clientId : next.clientId = session.clientId
  ip : next.ip = session.ip
  role : next.role = session.role
  written : ∀ delivery, .message delivery ∈ next.written →
    .message delivery ∈ session.written

theorem Continues.refl (session : Session) : Continues session session :=
  ⟨rfl, rfl, rfl, fun _ => id⟩

theorem Continues.write {session current : Session}
    (continues : Continues session current) (text : String)
    (succeeds : Bool) :
    Continues session (current.write (.reply text) succeeds) := by
  cases succeeds with
  | false => exact continues
  | true =>
      refine ⟨continues.clientId, continues.ip, continues.role, ?_⟩
      intro delivery isWritten
      apply continues.written
      simpa [Session.write] using isWritten

@[simp]
theorem write_activity (session : Session) (line : Line) (succeeds : Bool) :
    (session.write line succeeds).activity = session.activity := by
  cases succeeds <;> rfl

section Handlers

variable {permitted : Invocation → Prop} {before after : Server} {index : Nat}
  {session current next : Session} (outcome : Outcome)

theorem Continues.handled (continues : Continues session current)
    (isOpen : session.isOpen = true) (activity : Activity)
    (settled : ∀ delivery point, activity ≠ .delivering delivery point)
    (sessions : after.sessions =
      before.sessions.set index { current with activity := activity })
    (connections : after.connections = before.connections)
    (broker : ReachableWhile Broker.step (Invokes permitted) before.broker
      after.broker) :
    Handled permitted before index session
      { current with activity := activity } after where
  sessions := sessions
  connections := connections
  broker := broker
  clientId := continues.clientId
  ip := continues.ip
  role := continues.role
  stays_closed _ := isOpen
  written delivery isWritten := Or.inl (continues.written delivery isWritten)
  delivering delivery point same := (settled delivery point same).elim

theorem handled_reply (continues : Continues session current)
    (isOpen : session.isOpen = true) (server : Server) (index : Nat)
    (text : String) :
    Handled permitted server index session
      { current.write (.reply text) outcome.written with
        activity := .waiting }
      (server.reply index current outcome text) := by
  have written := continues.write text outcome.written
  exact written.handled isOpen .waiting (by simp) rfl rfl .start

theorem handled_finish (continues : Continues session current)
    (isOpen : session.isOpen = true) (server : Server) (index : Nat) :
    Handled permitted server index session
      { current with activity := .returned }
      (server.finish index current) :=
  continues.handled isOpen .returned (by simp) rfl rfl
    (reachable_finish permitted server.broker index)

theorem handled_perform (continues : Continues session current)
    (isOpen : session.isOpen = true) (server : Server) (index : Nat)
    (action : Action)
    (isPermitted : ∀ invocation next, action = .call invocation next →
      permitted invocation) :
    ∃ next, Handled permitted server index session next
      (server.perform index current outcome action) := by
  cases action with
  | refuse text =>
      exact ⟨_,
        { handled_reply outcome continues isOpen server index text with }⟩
  | write text =>
      exact ⟨_, handled_reply outcome continues isOpen server index text⟩
  | demand text =>
      simp only [perform]
      split
      · exact ⟨_, handled_reply outcome continues isOpen server index text⟩
      · exact ⟨_, handled_finish continues isOpen server index⟩
  | heartbeat text =>
      exact ⟨_,
        { handled_reply outcome continues isOpen server index text with }⟩
  | call invocation next =>
      exact ⟨_, continues.handled isOpen (.calling _ next) (by simp) rfl rfl
        (reachable_invoke permitted server.broker
          (isPermitted invocation next rfl))⟩
  | query query =>
      exact ⟨_, continues.handled isOpen (.querying query) (by simp) rfl rfl
        .start⟩

/-- A call that returns leads to further calls only inside a batch. -/
theorem handled_proceed (isOpen : session.isOpen = true) (server : Server)
    (index : Nat) (result : Except String Unit) (continuation : Continuation)
    (isPermitted : ∀ request, permitted (.publish request)) :
    ∃ next, Handled permitted server index session next
      (server.proceed index session outcome result continuation) := by
  have same := Continues.refl session
  have nextOfBatch : ∀ (server : Server) exchangeName routingKey acks
      messages, ∃ next, Handled permitted server index session next
        (server.perform index session outcome
          ((session.client index).nextOfBatch exchangeName routingKey acks
            outcome.now messages)) := by
    intro server exchangeName routingKey acks messages
    apply handled_perform outcome same isOpen
    intro invocation next isCall
    cases messages with
    | nil => cases isCall
    | cons message messages =>
        cases isCall
        exact isPermitted _
  cases continuation with
  | reply text =>
      exact ⟨_, handled_reply outcome same isOpen server index text⟩
  | proceed =>
      exact ⟨_, same.handled isOpen .waiting (by simp) rfl rfl .start⟩
  | confirmAck messageId =>
      have written := same.write ("ACK confirmed " ++ messageId ++ "\n")
        outcome.written
      simp only [proceed]
      split
      · exact ⟨_, written.handled isOpen .waiting (by simp) rfl rfl .start⟩
      · exact ⟨_, { handled_finish written isOpen server index with }⟩
  | confirmPublish messageId =>
      cases result with
      | ok _ =>
          exact ⟨_, { handled_reply outcome same isOpen
            server.countPublished index _ with }⟩
      | error error =>
          exact ⟨_, handled_reply outcome same isOpen server index _⟩
  | confirmBatch batch =>
      cases result with
      | ok _ =>
          obtain ⟨next, handled⟩ := nextOfBatch server.countPublished
            batch.exchangeName batch.routingKey
            (batch.acks ++ ["ACK " ++ batch.current.messageId])
            batch.remaining
          exact ⟨next, { handled with }⟩
      | error error => exact nextOfBatch server _ _ _ _

theorem handled_answer (isOpen : session.isOpen = true) (server : Server)
    (index : Nat) (query : Query) :
    ∃ next, Handled permitted server index session next
      (server.answer index session outcome query) := by
  have replied : ∀ storage text, ∃ next,
      Handled permitted server index session next
        ((server.updateShared
          { server.broker.shared with storage := storage }).reply index
            session outcome text) := by
    intro storage text
    have written := (Continues.refl session).write text outcome.written
    exact ⟨_, written.handled isOpen .waiting (by simp) rfl rfl
      (reachable_bookkeep permitted server.broker _ storage)⟩
  cases query <;> exact replied _ _

/-- While a delivery is under way, a handler may write that message and move
on to another point of the same delivery. -/
theorem handled_of_delivering {delivery : Delivery} {point : DeliveryPoint}
    {server : Server} {written : List Line} {activity : Activity}
    (isDelivering : session.activity = .delivering delivery point)
    (sessions : after.sessions = server.sessions.set index
      { session with activity := activity, written := written })
    (connections : after.connections = server.connections)
    (broker : ReachableWhile Broker.step (Invokes permitted) server.broker
      after.broker)
    (onlyThis : ∀ other, .message other ∈ written →
      .message other ∈ session.written ∨ other = delivery)
    (sameDelivery : ∀ other otherPoint,
      activity = .delivering other otherPoint → other = delivery) :
    ∃ next, Handled permitted server index session next after := by
  have isOpen : session.isOpen = true := by
    simp [Session.isOpen, isDelivering]
  refine ⟨_, sessions, connections, broker, rfl, rfl, rfl, fun _ => isOpen,
    ?_, ?_⟩
  · intro other isWritten
    rcases onlyThis other isWritten with already | isThis
    · exact Or.inl already
    · exact Or.inr ⟨point, isThis ▸ isDelivering⟩
  · intro other otherPoint isOther
    left
    exact ⟨point, sameDelivery other otherPoint isOther ▸ isDelivering⟩

theorem handled_deliver {delivery : Delivery} {point : DeliveryPoint}
    (isDelivering : session.activity = .delivering delivery point)
    (server : Server) (index : Nat) :
    ∃ next, Handled permitted server index session next
      (server.deliver index session outcome delivery point) := by
  cases point with
  | checkStatus =>
      refine handled_of_delivering isDelivering rfl rfl .start ?_ ?_
      · exact fun _ => Or.inl
      · intro other otherPoint isOther
        split at isOther <;> cases isOther
        rfl
  | checkDeliverable =>
      refine handled_of_delivering isDelivering rfl rfl .start ?_ ?_
      · exact fun _ => Or.inl
      · intro other otherPoint isOther
        split at isOther <;> cases isOther
        rfl
  | write retryCount =>
      simp only [deliver]
      split
      · refine handled_of_delivering isDelivering rfl rfl .start ?_ ?_
        · intro other isWritten
          simpa [Session.write] using isWritten
        · intro other otherPoint isOther
          cases isOther
          rfl
      · split
        · refine handled_of_delivering isDelivering rfl rfl .start ?_ ?_
          · exact fun _ => Or.inl
          · intro other otherPoint isOther
            cases isOther
            rfl
        · have isOpen : session.isOpen = true := by
            simp [Session.isOpen, isDelivering]
          exact ⟨_, handled_finish (Continues.refl session) isOpen server
            index⟩
  | flush retryCount =>
      refine handled_of_delivering isDelivering rfl rfl .start ?_ ?_
      · exact fun _ => Or.inl
      · intro other otherPoint isOther
        cases isOther
        rfl
  | markWritten =>
      refine handled_of_delivering isDelivering rfl rfl
        (reachable_markDelivered permitted server.broker _ _ _) ?_ ?_
      · exact fun _ => Or.inl
      · intro other otherPoint isOther
        cases isOther
        rfl
  | markDelivered =>
      refine handled_of_delivering isDelivering rfl rfl
        (reachable_markDelivered permitted server.broker _ _ _) ?_ ?_
      · exact fun _ => Or.inl
      · intro other otherPoint isOther
        cases isOther

end Handlers

/-- What a handler makes of the bytes it reads. -/
def requestAction (config : ServerConfig) (index : Nat) (session : Session) :
    HandlerEvent → Option Action
  | .read (some (byte :: bytes)) outcome =>
      if session.activity = .waiting then
        some ((session.client index).handleRequest config.codec
          outcome.limited outcome.now
          (requestOf (session.intake.buffer ++ byte :: bytes)))
      else
        none
  | _ => none

/-- The calls a step of a handler can make: the one its client asked for, and
publishes that go on with a batch. -/
def Calls (config : ServerConfig) (index : Nat) (session : Session)
    (event : HandlerEvent) (invocation : Invocation) : Prop :=
  (∃ request, invocation = .publish request) ∨
    ∃ next, requestAction config index session event =
      some (.call invocation next)

theorem handled_handle {config : ServerConfig} {before after : Server}
    {index : Nat} {session : Session} {event : HandlerEvent}
    (handles : before.handle config index session event = some after) :
    ∃ next, Handled (Calls config index session event) before index session
      next after := by
  have same := Continues.refl session
  unfold handle at handles
  split at handles
  · rename_i result outcome isWaiting
    have isOpen : session.isOpen = true := by simp [Session.isOpen, isWaiting]
    cases handles
    match result with
    | none => exact ⟨_, { handled_finish same isOpen before index with }⟩
    | some [] => exact ⟨_, { handled_finish same isOpen before index with }⟩
    | some (byte :: bytes) =>
        have received : Continues session
            { session with
              intake := session.intake.receive (byte :: bytes) } :=
          { same with }
        obtain ⟨next, handled⟩ := handled_perform outcome received isOpen
          (before.recordHeartbeat session.clientId outcome.now) index
          ((session.client index).handleRequest config.codec outcome.limited
            outcome.now
            (requestOf (session.intake.buffer ++ byte :: bytes)))
          (fun invocation next isCall => show Calls config index session
              (.read (some (byte :: bytes)) outcome) invocation from
            Or.inr ⟨next, by simp [requestAction, isWaiting, isCall]⟩)
        exact ⟨next, { handled with }⟩
  · rename_i isWaiting
    have isOpen : session.isOpen = true := by simp [Session.isOpen, isWaiting]
    obtain ⟨delivery, isNext, rfl⟩ := Option.map_eq_some_iff.mp handles
    refine ⟨_, rfl, rfl, .start, rfl, rfl, rfl, fun _ => isOpen,
      fun _ => Or.inl, ?_⟩
    intro other point isOther
    cases isOther
    exact Or.inr (List.mem_of_getElem? isNext)
  · rename_i isWaiting
    have isOpen : session.isOpen = true := by simp [Session.isOpen, isWaiting]
    cases handles
    exact ⟨_, { handled_finish same isOpen before index with }⟩
  · rename_i call continuation outcome isCalling
    have isOpen : session.isOpen = true := by simp [Session.isOpen, isCalling]
    obtain ⟨result, -, rfl⟩ := Option.map_eq_some_iff.mp handles
    exact handled_proceed outcome isOpen before index result continuation
      fun request => Or.inl ⟨request, rfl⟩
  · rename_i query outcome isQuerying
    have isOpen : session.isOpen = true := by
      simp [Session.isOpen, isQuerying]
    cases handles
    exact handled_answer outcome isOpen before index query
  · rename_i delivery point outcome isDelivering
    cases handles
    exact handled_deliver outcome isDelivering before index
  · cases handles
    refine ⟨_, rfl, rfl, .start, rfl, rfl, rfl, ?_, fun _ => Or.inl, ?_⟩
    · intro isOpen
      simp [Session.isOpen] at isOpen
    · intro other point isOther
      cases isOther
  · cases handles

/-- A new connection.  Only an admitted one is counted by the limiter. -/
structure Connected (before : Server) (session : Session)
    (after : Server) : Prop where
  sessions : after.sessions = before.sessions ++ [session]
  connections : after.connections =
    if session.isOpen then
      ⟨Connections.increment before.connections.byIp session.ip,
        Connections.increment before.connections.byCn session.clientId⟩
    else
      before.connections
  broker : ReachableWhile Broker.step (Invokes fun _ => False) before.broker
    after.broker
  written : ∀ delivery, .message delivery ∉ session.written
  delivering : ∀ delivery point,
    session.activity ≠ .delivering delivery point

theorem connected_connect (config : ServerConfig) (before : Server)
    (clientId ip : String) (outcome : Outcome) :
    ∃ session, Connected before session
      (before.connect config clientId ip outcome) := by
  unfold connect
  dsimp only
  split
  · refine ⟨_, rfl, ?_, .start, ?_, ?_⟩
    · rw [if_neg (by simp [Session.isOpen, Session.new])]
    · intro delivery isWritten
      have already := (Continues.refl _).write _ _ |>.written _ isWritten
      simp [Session.new] at already
    · simp [Session.new]
  · split
    · rename_i refused
      have unchanged : (before.connections.checkConnection config.limits
          clientId ip).1 = before.connections := by
        unfold Connections.checkConnection at refused ⊢
        split
        · rfl
        · split
          · rfl
          · simp_all [RateLimitResult.isAllowed]
      refine ⟨_, rfl, ?_, .start, by simp [Session.new],
        by simp [Session.new]⟩
      rw [if_neg (by simp [Session.isOpen, Session.new])]
      exact unchanged
    · rename_i admitted
      have allowed : (before.connections.checkConnection config.limits
          clientId ip).2 = .allowed := by
        simpa [RateLimitResult.isAllowed] using admitted
      refine ⟨Session.new clientId ip _ .waiting [], rfl, ?_, ?_,
        by simp [Session.new], by simp [Session.new]⟩
      · rw [if_pos (by simp [Session.isOpen, Session.new])]
        exact Connections.checkConnection_allowed allowed
      · exact reachable_bookkeep _ before.broker
          before.broker.shared.incrementClientCount.connectedClients
          before.broker.shared.storage

/-- The shapes of a step: a client connects, a handler moves on, or neither
the sessions nor the limiter change. -/
theorem step_cases {config : ServerConfig} {before after : Server}
    {event : Event} (stepTo : before.step config event = some after) :
    (∃ session, Connected before session after) ∨
    (∃ index handlerEvent session next,
      event = .handler index handlerEvent ∧
      before.sessions[index]? = some session ∧
      Handled (Calls config index session handlerEvent) before index session
        next after) ∨
    (after.sessions = before.sessions ∧
      after.connections = before.connections ∧
      ReachableWhile Broker.step (Invokes fun _ => False) before.broker
        after.broker) := by
  have counted : ReachableWhile Broker.step (Invokes fun _ => False)
      before.broker
      { before.broker with
        shared := before.broker.shared.decrementClientCount } :=
    reachable_bookkeep _ before.broker
      before.broker.shared.decrementClientCount.connectedClients
      before.broker.shared.storage
  cases event with
  | handshakeFailed =>
      cases stepTo
      exact Or.inr (Or.inr ⟨rfl, rfl, counted⟩)
  | connect clientId ip outcome =>
      cases stepTo
      exact Or.inl (connected_connect config before clientId ip outcome)
  | handler index handlerEvent =>
      obtain ⟨session, found, handles⟩ := Option.bind_eq_some_iff.mp stepTo
      obtain ⟨next, handled⟩ := handled_handle handles
      exact Or.inr (Or.inl
        ⟨index, handlerEvent, session, next, rfl, found, handled⟩)
  | advance call reading =>
      obtain ⟨broker, stepped, rfl⟩ := Option.map_eq_some_iff.mp stepTo
      exact Or.inr (Or.inr ⟨rfl, rfl, .next _ .start
        (by intro invocation isInvoke; cases isInvoke) stepped⟩)
  | runDeliveryTask task =>
      cases stepTo
      exact Or.inr (Or.inr ⟨rfl, rfl, .next (.runDeliveryTask task) .start
        (by intro invocation isInvoke; cases isInvoke) rfl⟩)
  | shutdown =>
      cases stepTo
      exact Or.inr (Or.inr ⟨rfl, rfl, counted⟩)

/-- Every message written to a connection, or about to be, is `fit` for it. -/
structure Conveys (fit : Session → Delivery → Prop)
    (sessions : List Session) : Prop where
  delivering : ∀ session ∈ sessions, ∀ delivery point,
    session.activity = .delivering delivery point → fit session delivery
  written : ∀ session ∈ sessions, ∀ delivery,
    .message delivery ∈ session.written → fit session delivery

/-- A connection writes what it has taken from its channel, so it is enough
that the messages in the channels are fit. -/
theorem Conveys.step {fit : Session → Delivery → Prop}
    {config : ServerConfig} {before after : Server} {event : Event}
    (conveys : Conveys fit before.sessions)
    (stays : ∀ session next : Session, next.role = session.role →
      next.clientId = session.clientId →
        ∀ delivery, fit session delivery → fit next delivery)
    (sent : ∀ index session, before.sessions[index]? = some session →
      ∀ delivery ∈ (before.broker.shared.channels index).sent,
        fit session delivery)
    (stepTo : before.step config event = some after) :
    Conveys fit after.sessions := by
  rcases step_cases stepTo with ⟨session, connected⟩ |
    ⟨index, handlerEvent, session, next, rfl, found, handled⟩ |
    ⟨sessions, -, -⟩
  · rw [connected.sessions]
    constructor
    · intro other member delivery point isDelivering
      rcases List.mem_append.mp member with old | isNew
      · exact conveys.delivering other old delivery point isDelivering
      · rw [List.mem_singleton] at isNew
        subst isNew
        exact (connected.delivering delivery point isDelivering).elim
    · intro other member delivery isWritten
      rcases List.mem_append.mp member with old | isNew
      · exact conveys.written other old delivery isWritten
      · rw [List.mem_singleton] at isNew
        subst isNew
        exact (connected.written delivery isWritten).elim
  · have isMember := List.mem_of_getElem? found
    have staysFit := stays session next handled.role handled.clientId
    rw [handled.sessions]
    constructor
    · intro other member delivery point isDelivering
      rcases List.mem_or_eq_of_mem_set member with old | rfl
      · exact conveys.delivering other old delivery point isDelivering
      · apply staysFit
        rcases handled.delivering delivery point isDelivering with
          ⟨earlier, wasDelivering⟩ | fromChannel
        · exact conveys.delivering session isMember delivery earlier
            wasDelivering
        · exact sent index session found delivery fromChannel
    · intro other member delivery isWritten
      rcases List.mem_or_eq_of_mem_set member with old | rfl
      · exact conveys.written other old delivery isWritten
      · apply staysFit
        rcases handled.written delivery isWritten with
          wasWritten | ⟨point, isDelivering⟩
        · exact conveys.written session isMember delivery wasWritten
        · exact conveys.delivering session isMember delivery point
            isDelivering
  · rw [sessions]
    exact conveys

/-- What holds of every interleaving of calls on the broker holds of the
broker inside every run of the server. -/
theorem reachable_broker {config : ServerConfig} {server : Server}
    (reached : Reachable (step config) (new config) server) :
    Reachable Broker.step (Broker.new config.maxQueueSize) server.broker := by
  apply reached.invariant fun server : Server =>
    Reachable Broker.step (Broker.new config.maxQueueSize) server.broker
  · exact .start
  intro before event after reachedBroker _ stepTo
  have anyStep : ∀ {permitted : Invocation → Prop} {broker : Broker},
      ReachableWhile Broker.step (Invokes permitted) before.broker broker →
        Reachable Broker.step before.broker broker :=
    fun moved => moved.mono fun _ _ _ => trivial
  rcases step_cases stepTo with ⟨session, connected⟩ |
    ⟨index, handlerEvent, session, next, -, -, handled⟩ | ⟨-, -, broker⟩
  · exact reachedBroker.trans (anyStep connected.broker)
  · exact reachedBroker.trans (anyStep handled.broker)
  · exact reachedBroker.trans (anyStep broker)

end Server

end CipherMQ
