import CipherMQ.ServerEffects

/-!
# The connection limits over a run

The limits are documented to bound concurrent connections.  The limiter counts
a connection when its handler admits it, and no way out of the handler takes
it off the count again.  So the counts are the numbers of open connections in
exactly those runs in which no admitted connection has ended.
-/

namespace CipherMQ

/-- A reply that ends the connection if it cannot be written. -/
def Action.isDemand : Action → Bool
  | .demand _ => true
  | _ => false

namespace Server

def openConnections (server : Server) (key : Session → String)
    (name : String) : Nat :=
  server.sessions.countP fun session => session.isOpen && name == key session

/-- The limiter counts the open connections, and refuses none when there are
none. -/
structure CountsOpen (config : ServerConfig) (server : Server) : Prop where
  byCn : ∀ cn, (server.connections.byCn cn).getD 0 =
    server.openConnections Session.clientId cn
  byIp : ∀ ip, (server.connections.byIp ip).getD 0 =
    server.openConnections Session.ip ip
  admits : ∀ cn ip,
    server.openConnections Session.clientId cn = 0 →
      server.openConnections Session.ip ip = 0 →
        (server.connections.checkConnection config.limits cn ip).2 = .allowed

/-- The state after an event; an event that cannot happen changes nothing. -/
def next (config : ServerConfig) (server : Server) (event : Event) :
    Server :=
  (server.step config event).getD server

/-- The handler returns in this step: the stream has ended or failed, the
channel is closed, a demand or the confirmation of an acknowledgement cannot
be written, or the last attempt to write a message fails. -/
def HandlerEvent.ends (config : ServerConfig) (server : Server) (index : Nat)
    (session : Session) (event : HandlerEvent) : Bool :=
  match session.activity, event with
  | .waiting, .read (some (_ :: _)) outcome =>
      !outcome.written &&
        (requestAction config index session event).any Action.isDemand
  | .waiting, .read _ _ => true
  | .waiting, .channelClosed => true
  | .calling call (.confirmAck _), .resume outcome =>
      ((server.broker.calls[call]?).bind Call.result).isSome &&
        !(outcome.written && outcome.flushed)
  | .delivering _ (.write retryCount), .deliver outcome =>
      !outcome.written && !(retryCount + 1 < maxRetries : Bool)
  | _, _ => false

def KeepsOpen (config : ServerConfig) (server : Server) : Event → Prop
  | .handler index event =>
      ∀ session ∈ server.sessions[index]?,
        event.ends config server index session = false
  | _ => True

section Ends

variable {config : ServerConfig} {before after : Server} {index : Nat}
  {session : Session}

theorem isOpen_perform (found : before.sessions[index]? = some session)
    (current : Session) (outcome : Outcome) (action : Action) :
    ((before.perform index current outcome action).sessions[index]?).map
        Session.isOpen =
      some (outcome.written || !action.isDemand) := by
  have moved := fun next : Session => getElem?_set_moved found next
  cases action with
  | demand text =>
      cases isWritten : outcome.written <;>
        simp [perform, isWritten, reply, finish, setSession, updateShared,
          moved, Session.isOpen, Action.isDemand]
  | _ =>
      simp [perform, reply, setSession, recordHeartbeat, moved,
        Session.isOpen, Action.isDemand]

theorem isOpen_proceed (found : before.sessions[index]? = some session)
    (outcome : Outcome) (result : Except String Unit) (next : Continuation) :
    ((before.proceed index session outcome result next).sessions[index]?).map
        Session.isOpen =
      some (match next with
        | .confirmAck _ => outcome.written && outcome.flushed
        | _ => true) := by
  have moved := fun next : Session => getElem?_set_moved found next
  have batch : ∀ (server : Server) exchangeName routingKey acks messages,
      server.sessions = before.sessions →
      ((server.perform index session outcome
        ((session.client index).nextOfBatch exchangeName routingKey acks
          outcome.now messages)).sessions[index]?).map Session.isOpen =
        some true := by
    intro server exchangeName routingKey acks messages same
    rw [isOpen_perform (same ▸ found)]
    cases messages <;> simp [Client.nextOfBatch, Action.isDemand]
  cases next with
  | reply text => simp [proceed, reply, setSession, moved, Session.isOpen]
  | proceed => simp [proceed, setSession, moved, Session.isOpen]
  | confirmAck messageId =>
      cases isDone : outcome.written && outcome.flushed <;>
        simp [proceed, isDone, setSession, finish, updateShared, moved,
          Session.isOpen]
  | confirmPublish messageId =>
      cases result <;>
        simp [proceed, reply, countPublished, setSession, moved,
          Session.isOpen]
  | confirmBatch current =>
      cases result with
      | ok _ => exact batch before.countPublished _ _ _ _ rfl
      | error error => exact batch before _ _ _ _ rfl

theorem isOpen_deliver (found : before.sessions[index]? = some session)
    (outcome : Outcome) (delivery : Delivery) (point : DeliveryPoint) :
    ((before.deliver index session outcome delivery
        point).sessions[index]?).map Session.isOpen =
      some (match point with
        | .write retryCount =>
            outcome.written || decide (retryCount + 1 < maxRetries)
        | _ => true) := by
  have moved := fun next : Session => getElem?_set_moved found next
  cases point with
  | write retryCount =>
      by_cases again : retryCount + 1 < maxRetries <;>
        cases isWritten : outcome.written <;>
          simp [deliver, isWritten, again, finish, updateShared, setSession,
            moved, Session.isOpen]
  | checkStatus | checkDeliverable =>
      simp only [deliver, setSession, moved, Option.map_some, Session.isOpen]
      split <;> simp
  | _ => simp [deliver, updateShared, setSession, moved, Session.isOpen]

/-- An open connection stays open exactly if the step does not end it. -/
theorem isOpen_handle {event : HandlerEvent}
    (found : before.sessions[index]? = some session)
    (handles : before.handle config index session event = some after) :
    (after.sessions[index]?).map Session.isOpen =
      some (session.isOpen && !event.ends config before index session) := by
  have moved := fun next : Session => getElem?_set_moved found next
  cases isActivity : session.activity with
  | waiting =>
      cases event with
      | read result outcome =>
          simp only [handle, isActivity, Option.some.injEq] at handles
          subst handles
          match result with
          | none | some [] =>
              simp [read, finish, updateShared, setSession, removeClient,
                moved, HandlerEvent.ends, isActivity, Session.isOpen]
          | some (byte :: bytes) =>
              have seen : (before.recordHeartbeat session.clientId
                  outcome.now).sessions[index]? = some session := found
              refine (isOpen_perform seen _ outcome _).trans ?_
              simp [HandlerEvent.ends, requestAction, isActivity,
                Session.isOpen]
      | receive =>
          simp only [handle, isActivity] at handles
          obtain ⟨delivery, -, rfl⟩ := Option.map_eq_some_iff.mp handles
          simp [setSession, moved, HandlerEvent.ends, isActivity,
            Session.isOpen]
      | channelClosed =>
          simp only [handle, isActivity, Option.some.injEq] at handles
          subst handles
          simp [finish, updateShared, setSession, removeClient, moved,
            HandlerEvent.ends, isActivity, Session.isOpen]
      | _ => simp [handle, isActivity] at handles
  | calling call next =>
      cases event with
      | resume outcome =>
          simp only [handle, isActivity] at handles
          obtain ⟨result, returned, rfl⟩ := Option.map_eq_some_iff.mp handles
          rw [isOpen_proceed found]
          cases next <;>
            simp [HandlerEvent.ends, isActivity, returned, Session.isOpen]
      | _ => simp [handle, isActivity] at handles
  | querying query =>
      cases event with
      | resume outcome =>
          simp only [handle, isActivity, Option.some.injEq] at handles
          subst handles
          cases query <;>
            simp [answer, reply, updateShared, setSession, moved,
              HandlerEvent.ends, isActivity, Session.isOpen]
      | _ => simp [handle, isActivity] at handles
  | delivering delivery point =>
      cases event with
      | deliver outcome =>
          simp only [handle, isActivity, Option.some.injEq] at handles
          subst handles
          rw [isOpen_deliver found]
          cases point <;>
            simp [HandlerEvent.ends, isActivity, Session.isOpen]
      | _ => simp [handle, isActivity] at handles
  | returned =>
      cases event with
      | close =>
          simp only [handle, isActivity, Option.some.injEq] at handles
          subst handles
          simp [setSession, removeClient, moved, isActivity, Session.isOpen]
      | _ => simp [handle, isActivity] at handles
  | ended => cases event <;> simp [handle, isActivity] at handles

/-- Only an open connection is ended, by a step that can be taken. -/
theorem isOpen_of_ends {event : HandlerEvent}
    (ends : event.ends config before index session = true) :
    session.isOpen = true ∧
      before.handle config index session event ≠ none := by
  unfold HandlerEvent.ends at ends
  split at ends <;> simp_all [handle, Session.isOpen, Option.isSome_iff_ne_none]

end Ends

theorem CountsOpen.of_counts (config : ServerConfig) {server : Server}
    (byCn : ∀ cn, (server.connections.byCn cn).getD 0 =
      server.openConnections Session.clientId cn)
    (byIp : ∀ ip, (server.connections.byIp ip).getD 0 =
      server.openConnections Session.ip ip) :
    CountsOpen config server where
  byCn := byCn
  byIp := byIp
  admits cn ip noneOfCn noneOfIp :=
    Connections.checkConnection_of_uncounted config.limits
      ((byIp ip).trans noneOfIp) ((byCn cn).trans noneOfCn)

theorem CountsOpen.of_same {config : ServerConfig} {before after : Server}
    (counts : CountsOpen config before)
    (connections : after.connections = before.connections)
    (sameOpen : ∀ key name,
      after.openConnections key name = before.openConnections key name) :
    CountsOpen config after := by
  apply CountsOpen.of_counts
  · intro cn
    rw [connections, sameOpen, counts.byCn]
  · intro ip
    rw [connections, sameOpen, counts.byIp]

theorem openConnections_connected {before after : Server} {session : Session}
    (connected : Connected before session after) (key : Session → String)
    (name : String) :
    after.openConnections key name =
      before.openConnections key name +
        if session.isOpen && name == key session then 1 else 0 := by
  rw [openConnections, connected.sessions, List.countP_append]
  simp [openConnections, List.countP_cons]

theorem CountsOpen.connected {config : ServerConfig} {before after : Server}
    {session : Session} (counts : CountsOpen config before)
    (connected : Connected before session after) :
    CountsOpen config after := by
  cases isOpen : session.isOpen with
  | false =>
      apply counts.of_same
      · rw [connected.connections, isOpen]
        rfl
      · intro key name
        rw [openConnections_connected connected, isOpen]
        simp
  | true =>
      have connections := connected.connections
      rw [isOpen, if_pos rfl] at connections
      apply CountsOpen.of_counts
      · intro cn
        rw [connections, Connections.increment_getD, counts.byCn,
          openConnections_connected connected, isOpen]
        simp
      · intro ip
        rw [connections, Connections.increment_getD, counts.byIp,
          openConnections_connected connected, isOpen]
        simp

theorem openConnections_handled {permitted : Invocation → Prop}
    {before after : Server} {index : Nat} {session moved : Session}
    (found : before.sessions[index]? = some session)
    (handled : Handled permitted before index session moved after)
    (key : Session → String) (sameKey : key moved = key session)
    (name : String) :
    after.openConnections key name +
        (if session.isOpen && name == key session then 1 else 0) =
      before.openConnections key name +
        (if moved.isOpen && name == key session then 1 else 0) := by
  obtain ⟨inRange, isSession⟩ := List.getElem?_eq_some_iff.mp found
  have counted : (session.isOpen && name == key session) = true →
      0 < before.sessions.countP
        fun session => session.isOpen && name == key session := by
    intro isCounted
    apply List.countP_pos_iff.mpr
    exact ⟨session, List.mem_of_getElem? found, isCounted⟩
  simp only [openConnections, handled.sessions, List.countP_set inRange,
    isSession, sameKey]
  split
  · rename_i isCounted
    have := counted isCounted
    omega
  · omega

theorem CountsOpen.handled {config : ServerConfig}
    {permitted : Invocation → Prop} {before after : Server} {index : Nat}
    {session moved : Session} (counts : CountsOpen config before)
    (found : before.sessions[index]? = some session)
    (handled : Handled permitted before index session moved after)
    (sameOpen : moved.isOpen = session.isOpen) : CountsOpen config after := by
  apply CountsOpen.of_counts
  · intro cn
    have moves := openConnections_handled found handled Session.clientId
      handled.clientId cn
    rw [sameOpen] at moves
    rw [handled.connections, counts.byCn]
    omega
  · intro ip
    have moves := openConnections_handled found handled Session.ip
      handled.ip ip
    rw [sameOpen] at moves
    rw [handled.connections, counts.byIp]
    omega

theorem not_countsOpen_of_ended {config : ServerConfig}
    {permitted : Invocation → Prop} {before after : Server} {index : Nat}
    {session moved : Session} (counts : CountsOpen config before)
    (found : before.sessions[index]? = some session)
    (handled : Handled permitted before index session moved after)
    (wasOpen : session.isOpen = true) (ended : moved.isOpen = false) :
    ¬ CountsOpen config after := by
  intro countsAfter
  have moves := openConnections_handled found handled Session.clientId
    handled.clientId session.clientId
  have before := counts.byCn session.clientId
  have after := countsAfter.byCn session.clientId
  rw [handled.connections] at after
  simp only [wasOpen, ended, beq_self_eq_true, Bool.and_true, if_true,
    Bool.false_eq_true, if_false] at moves
  omega

/-- A step keeps the counts right exactly if it ends no open connection. -/
theorem countsOpen_next_iff {config : ServerConfig} {server : Server}
    (counts : CountsOpen config server) (event : Event) :
    CountsOpen config (server.next config event) ↔
      KeepsOpen config server event := by
  unfold next
  cases event with
  | handler index handlerEvent =>
      rw [step]
      cases found : server.sessions[index]? with
      | none => exact iff_of_true counts (by simp [KeepsOpen, found])
      | some session =>
          simp only [KeepsOpen, found, Option.mem_some_iff, forall_eq',
            Option.bind_some]
          cases handles : server.handle config index session handlerEvent with
          | none =>
              refine iff_of_true counts (Bool.eq_false_iff.mpr ?_)
              exact fun ends => (isOpen_of_ends ends).2 handles
          | some after =>
              obtain ⟨moved, handled⟩ := handled_handle handles
              have isOpen := isOpen_handle found handles
              rw [handled.sessions, getElem?_set_moved found, Option.map_some,
                Option.some.injEq] at isOpen
              cases ends : handlerEvent.ends config server index session with
              | false =>
                  rw [ends, Bool.not_false, Bool.and_true] at isOpen
                  exact iff_of_true (counts.handled found handled isOpen) rfl
              | true =>
                  rw [ends, Bool.not_true, Bool.and_false] at isOpen
                  exact iff_of_false (not_countsOpen_of_ended counts found
                    handled (isOpen_of_ends ends).1 isOpen) (by simp)
  | _ =>
      refine iff_of_true ?_ trivial
      cases stepTo : server.step config _ with
      | none => exact counts
      | some after =>
          rcases step_cases stepTo with ⟨session, connected⟩ |
            ⟨_, _, _, _, isHandler, -⟩ | ⟨sessions, connections, -⟩
          · exact counts.connected connected
          · cases isHandler
          · refine counts.of_same connections fun key name => ?_
            rw [Option.getD_some, openConnections, sessions]
            rfl

theorem countsOpen_new (config : ServerConfig) :
    CountsOpen config (new config) := by
  apply CountsOpen.of_counts
  · intro cn
    rfl
  · intro ip
    rfl

/-- The limiter counts the open connections in every state of a run exactly if
no admitted connection ends in the run. -/
theorem countsOpen_run_iff (config : ServerConfig) (events : List Event) :
    (∀ visited, visited <+: events →
        CountsOpen config (runFrom (next config) (new config) visited)) ↔
      ∀ before event, before ++ [event] <+: events →
        KeepsOpen config (runFrom (next config) (new config) before) event :=
  runFrom_forall_prefix_iff (fun _ => True) (countsOpen_new config) trivial
    (fun _ _ _ => trivial)
    (fun _ event _ counts => countsOpen_next_iff counts event) events

def singleConnection : ServerConfig where
  acl := ⟨[], ["receiver_1"], []⟩
  limits := ⟨1, 1⟩
  maxQueueSize := 10
  codec := ⟨fun _ => .error "", fun _ => .error "", fun _ => ""⟩

def disconnectingRun : List Event :=
  [.connect "receiver_1" "10.0.0.1" .smooth,
    .handler 0 (.read (some []) .smooth),
    .handler 0 .close]

/-- A client that has disconnected is refused for good. -/
theorem not_countsOpen_disconnectingRun :
    ¬ CountsOpen singleConnection
        (runFrom (next singleConnection) (new singleConnection)
          disconnectingRun) ∧
      ((runFrom (next singleConnection) (new singleConnection)
        disconnectingRun).connections.checkConnection singleConnection.limits
          "receiver_1" "10.0.0.1").2 = .connectionLimit := by
  have refused : ((runFrom (next singleConnection) (new singleConnection)
      disconnectingRun).connections.checkConnection singleConnection.limits
        "receiver_1" "10.0.0.1").2 = .connectionLimit := by decide
  refine ⟨?_, refused⟩
  intro counts
  have admitted := counts.admits "receiver_1" "10.0.0.1" (by decide)
    (by decide)
  rw [refused] at admitted
  cases admitted

end Server

end CipherMQ
