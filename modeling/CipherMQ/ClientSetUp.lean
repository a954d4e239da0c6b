import CipherMQ.EndToEnd
import CipherMQ.HandlerTurns
import CipherMQ.TopologyIntegrity

/-!
# Setting up the queues

When it starts, a receiver declares its queue and its exchange and binds the
one to the other, in three requests each of which waits for its reply.  A bind
is passed over in silence if the queue or the exchange is not there, but the
handler carries out the requests of a client one after the other, and nothing
is ever undeclared.  So a client whose three requests have been answered has
its queue bound, whatever other clients do in the meantime, and it stays so.

The sender addresses a receiver by the routing key that its own configuration
has for the receiver's queue.
-/

namespace CipherMQ

open ServerState

/-! ## What declarations and binds leave behind -/

/-- What has to be there for a call to have its effect. -/
def Invocation.needs : Invocation → List Invocation
  | .bindQueue queueName exchangeName _ =>
      [.declareQueue queueName, .declareExchange exchangeName]
  | _ => []

theorem Invocation.needs_of_mem_needs {invocation needed : Invocation}
    (isNeeded : needed ∈ invocation.needs) : needed.needs = [] := by
  cases invocation with
  | bindQueue queueName exchangeName routingKey =>
      rcases List.mem_cons.mp isNeeded with rfl | isSecond
      · rfl
      · rw [List.mem_singleton.mp isSecond]
        rfl
  | _ => cases isNeeded

/-- The lasting effect of a declaration or a bind is there. -/
def ServerState.Provides (state : ServerState) : Invocation → Prop
  | .declareQueue queueName => (state.queues queueName).isSome
  | .declareExchange exchangeName => (state.exchanges exchangeName).isSome
  | .bindQueue queueName exchangeName routingKey =>
      state.Bound exchangeName routingKey queueName
  | _ => True

theorem ServerState.StillDeclares.provides {before after : ServerState}
    (still : before.StillDeclares after) {invocation : Invocation}
    (provides : before.Provides invocation) : after.Provides invocation := by
  cases invocation with
  | declareQueue queueName => exact still.queues _ provides
  | declareExchange exchangeName => exact still.exchanges _ provides
  | bindQueue queueName exchangeName routingKey =>
      exact still.bound _ _ _ provides
  | publish | registerConsumer | acknowledge => trivial

theorem ServerState.StillDeclares.trans {first second third : ServerState}
    (one : first.StillDeclares second) (two : second.StillDeclares third) :
    first.StillDeclares third :=
  ⟨fun _ => two.queues _ ∘ one.queues _,
    fun _ => two.exchanges _ ∘ one.exchanges _,
    fun _ _ _ => two.bound _ _ _ ∘ one.bound _ _ _⟩

/-- A call that finds what it needs goes on, or has had its effect. -/
theorem Call.provides_advance {state : ServerState} {call : Call}
    (reading : Reading) (running : call.isReturned = false)
    (ready : ∀ needed ∈ call.invocation.needs, state.Provides needed) :
    (call.advance reading state).2.isReturned = false ∨
      (call.advance reading state).1.Provides call.invocation := by
  cases call with
  | declareQueue queueName point =>
      cases point with
      | declare =>
          right
          simp [advance, Call.invocation, Provides, ServerState.declareQueue]
      | returned => cases running
  | declareExchange exchangeName point =>
      cases point with
      | declare =>
          right
          simp [advance, Call.invocation, Provides,
            ServerState.declareExchange]
      | returned => cases running
  | bindQueue queueName exchangeName routingKey point =>
      have queue : (state.queues queueName).isSome :=
        ready _ List.mem_cons_self
      have exchange : (state.exchanges exchangeName).isSome :=
        ready _ (List.mem_cons_of_mem _ List.mem_cons_self)
      cases point with
      | checkQueue =>
          left
          simp [advance, bindQueueStep, KeyMap.containsKey_eq, queue,
            isReturned]
      | checkExchange =>
          left
          simp [advance, bindQueueStep, KeyMap.containsKey_eq, exchange,
            isReturned]
      | insertBinding =>
          right
          exact (bound_insertBinding ..).mpr (Or.inr ⟨rfl, rfl, rfl⟩)
      | returned => cases running
  | publish | registerConsumer | acknowledge => exact Or.inr trivial

/-! ## Requests take effect in order -/

/-- The request asks for the call, whenever it is read, unless the rate limiter
turns it away. -/
def Session.Asks (codec : Codec) (index : Nat) (session : Session)
    (request : List Char) (invocation : Invocation) : Prop :=
  ∀ now, ∃ continuation, (session.client index).handleRequest codec false now
    request = .call invocation continuation

namespace Server

def Unlimited (index : Nat) : Event → Prop
  | .handler other (.read _ outcome) =>
      other = index → outcome.limited = false
  | _ => True

instance (index : Nat) (event : Event) : Decidable (Unlimited index event) :=
  match event with
  | .handler other (.read _ outcome) =>
      inferInstanceAs (Decidable (other = index → outcome.limited = false))
  | .handler _ .receive | .handler _ (.resume _) | .handler _ (.deliver _)
  | .handler _ .channelClosed | .handler _ .close | .handshakeFailed
  | .connect _ _ _ | .advance _ _ | .runDeliveryTask _ | .shutdown =>
      isTrue trivial

/-- The handler waits for the call, which finds what it needs. -/
structure AtWork (server : Server) (session : Session)
    (invocation : Invocation) : Prop where
  waits : ∃ position continuation call,
    session.activity = .calling position continuation ∧
    server.broker.calls[position]? = some call ∧
    call.isReturned = false ∧ call.invocation = invocation
  ready : ∀ needed ∈ invocation.needs, server.broker.shared.Provides needed

/-- Every call that was asked for after what it needs has had its effect, or
the handler waits for it. -/
def Heeds (config : ServerConfig) (index : Nat) (server : Server) : Prop :=
  ∀ session, server.sessions[index]? = some session →
    ∀ earlier request later,
      session.intake.requests = earlier ++ request :: later →
        ∀ invocation, session.Asks config.codec index request invocation →
          (∀ needed ∈ invocation.needs, ∃ asked ∈ earlier,
            session.Asks config.codec index asked needed) →
          server.broker.shared.Provides invocation ∨
            AtWork server session invocation

section Heeds

variable {config : ServerConfig} {index : Nat} {before after : Server}

/-- The broker moves on beside a handler that waits. -/
theorem AtWork.of_broker {session : Session} {invocation : Invocation}
    (atWork : AtWork before session invocation)
    (still : before.broker.shared.StillDeclares after.broker.shared)
    (calls : ∃ more, after.broker.calls = before.broker.calls ++ more) :
    AtWork after session invocation := by
  obtain ⟨⟨position, continuation, call, isCalling, found, running,
    isInvocation⟩, ready⟩ := atWork
  obtain ⟨more, calls⟩ := calls
  refine ⟨⟨position, continuation, call, isCalling, ?_, running,
    isInvocation⟩, fun needed isNeeded =>
      still.provides (ready needed isNeeded)⟩
  rw [calls]
  exact getElem?_append_kept found more

theorem AtWork.advance {session : Session} {invocation : Invocation}
    (atWork : AtWork before session invocation) {position : Nat}
    {reading : Reading} {broker : Broker}
    (stepTo : before.broker.step (.advance position reading) = some broker) :
    broker.shared.Provides invocation ∨
      AtWork { before with broker := broker } session invocation := by
  have still := Broker.stillDeclares_step stepTo
  obtain ⟨⟨waited, continuation, call, isCalling, found, running, rfl⟩,
    ready⟩ := atWork
  have ready' : ∀ needed ∈ call.invocation.needs,
      broker.shared.Provides needed :=
    fun needed isNeeded => still.provides (ready needed isNeeded)
  obtain ⟨advanced, isAdvanced, -, rfl⟩ := Broker.advance_cases stepTo
  by_cases own : position = waited
  · subst own
    rw [found] at isAdvanced
    cases isAdvanced
    rcases Call.provides_advance reading running ready with
      runs | provides
    · refine Or.inr ⟨⟨position, continuation, _, isCalling,
        getElem?_set_moved found _, runs, ?_⟩, ready'⟩
      exact Call.invocation_advance reading _ call
    · exact Or.inl provides
  · refine Or.inr ⟨⟨waited, continuation, call, isCalling, ?_, running, rfl⟩,
      ready'⟩
    dsimp only
    rwa [List.getElem?_set_ne own]

/-- Something happens beside the handler. -/
theorem Heeds.of_stays (heeds : Heeds config index before)
    (still : before.broker.shared.StillDeclares after.broker.shared)
    (stays : ∀ session, after.sessions[index]? = some session →
      before.sessions[index]? = some session ∨ session.intake.requests = [])
    (works : ∀ session invocation, AtWork before session invocation →
      after.broker.shared.Provides invocation ∨
        AtWork after session invocation) : Heeds config index after := by
  intro session found earlier request later requests invocation asks needs
  rcases stays session found with wasThere | noRequests
  · rcases heeds session wasThere earlier request later requests invocation
      asks needs with provides | atWork
    · exact Or.inl (still.provides provides)
    · exact works session invocation atWork
  · rw [noRequests] at requests
    exact absurd requests.symm (by simp)

/-- A handler that takes a step waits for no call. -/
theorem Heeds.provides_of_handle (heeds : Heeds config index before)
    {session : Session} {event : HandlerEvent}
    (found : before.sessions[index]? = some session)
    (handles : before.handle config index session event = some after)
    {earlier later : List (List Char)} {request : List Char}
    (requests : session.intake.requests = earlier ++ request :: later)
    {invocation : Invocation}
    (asks : session.Asks config.codec index request invocation)
    (needs : ∀ needed ∈ invocation.needs, ∃ asked ∈ earlier,
      session.Asks config.codec index asked needed) :
    before.broker.shared.Provides invocation := by
  rcases heeds session found earlier request later requests invocation asks
    needs with provides | ⟨⟨position, continuation, call, isCalling, isCall,
      running, -⟩, -⟩
  · exact provides
  · rw [isReturned_of_handle handles isCalling isCall] at running
    cases running

theorem Heeds.handle (heeds : Heeds config index before) {session : Session}
    {event : HandlerEvent} (unlimited : Unlimited index (.handler index event))
    (found : before.sessions[index]? = some session)
    (handles : before.handle config index session event = some after)
    (still : before.broker.shared.StillDeclares after.broker.shared) :
    Heeds config index after := by
  obtain ⟨next, sessions, sameClient, intake⟩ :=
    next_of_handle found handles
  intro other isOther earlier request later requests invocation asks needs
  have same : next = other := by
    rw [sessions, getElem?_set_moved found] at isOther
    exact Option.some.inj isOther
  subst same
  have sameAsks : next.Asks config.codec index =
      session.Asks config.codec index := by
    unfold Session.Asks
    rw [sameClient]
  rw [sameAsks] at asks needs
  rw [intake] at requests
  rcases intakeAfter_cases handles with ⟨action, acts⟩ | nothingRead
  · obtain ⟨read, outcome, result, rfl, handled, added⟩ :=
      request_of_requestAction acts
    rw [added] at requests
    rcases List.eq_nil_or_concat later with rfl | ⟨rest, last, rfl⟩
    · -- The request just read: its call is made.
      obtain ⟨isEarlier, isLast⟩ := List.append_inj' requests rfl
      obtain rfl : read = request := List.singleton_inj.mp isLast
      subst isEarlier
      obtain ⟨continuation, isCall⟩ := asks outcome.now
      rw [unlimited rfl, isCall] at handled
      subst handled
      obtain ⟨nextSessions, calls⟩ := handle_of_call acts handles
      refine Or.inr ⟨⟨before.broker.calls.length, continuation,
        invocation.start, ?_, ?_, ?_, invocation.invocation_start⟩, ?_⟩
      · rw [nextSessions, getElem?_set_moved found] at isOther
        rw [← Option.some.inj isOther]
      · rw [calls]
        simp
      · cases invocation <;> rfl
      · intro needed isNeeded
        obtain ⟨asked, isAsked, asksNeeded⟩ := needs needed isNeeded
        obtain ⟨front, back, isSplit⟩ := List.append_of_mem isAsked
        apply still.provides
        refine heeds.provides_of_handle found handles isSplit asksNeeded ?_
        -- Declarations need nothing.
        intro none isNone
        rw [Invocation.needs_of_mem_needs isNeeded] at isNone
        cases isNone
    · rw [List.concat_eq_append, ← List.cons_append, ← List.append_assoc]
        at requests
      obtain ⟨isEarlier, -⟩ := List.append_inj' requests rfl
      exact Or.inl (still.provides
        (heeds.provides_of_handle found handles isEarlier asks needs))
  · rw [nothingRead] at requests
    exact Or.inl (still.provides
      (heeds.provides_of_handle found handles requests asks needs))

theorem stillDeclares_of_step {event : Event}
    (stepTo : before.step config event = some after) :
    before.broker.shared.StillDeclares after.broker.shared :=
  (reachable_broker_of_step stepTo).invariant
    (fun broker => before.broker.shared.StillDeclares broker.shared)
    (stillDeclares_of_same rfl rfl rfl)
    fun _ _ _ still _ brokerStep =>
      still.trans (Broker.stillDeclares_step brokerStep)

theorem Heeds.step (heeds : Heeds config index before) {event : Event}
    (unlimited : Unlimited index event)
    (stepTo : before.step config event = some after) :
    Heeds config index after := by
  have still := stillDeclares_of_step stepTo
  -- Whatever happens beside the handler, unless its call advances.
  have beside : (∃ more, after.broker.calls = before.broker.calls ++ more) →
      ∀ session invocation, AtWork before session invocation →
        after.broker.shared.Provides invocation ∨
          AtWork after session invocation :=
    fun calls session invocation atWork =>
      Or.inr (atWork.of_broker still calls)
  cases event with
  | handshakeFailed | shutdown =>
      cases stepTo
      exact heeds.of_stays still (fun session found => Or.inl found)
        (beside ⟨[], (List.append_nil _).symm⟩)
  | connect clientId ip outcome =>
      cases stepTo
      obtain ⟨joined, joins⟩ := joins_connect config before clientId ip outcome
      refine heeds.of_stays still ?_
        (beside ⟨[], by rw [joins.calls, List.append_nil]⟩)
      intro session found
      rw [joins.sessions] at found
      rcases getElem?_concat_cases found with old | ⟨-, rfl⟩
      · exact Or.inl old
      · exact Or.inr (by rw [intake_connect joins.sessions]; rfl)
  | handler moved handlerEvent =>
      obtain ⟨session, found, handles⟩ := Option.bind_eq_some_iff.mp stepTo
      by_cases own : moved = index
      · subst own
        exact heeds.handle unlimited found handles still
      · obtain ⟨next, sessions, -⟩ := next_of_handle found handles
        refine heeds.of_stays still ?_ (beside ?_)
        · intro session isThere
          rw [sessions, List.getElem?_set_ne own] at isThere
          exact Or.inl isThere
        · rcases prompted_handle handles with
            ⟨-, -, -, calls, -⟩ | ⟨-, invocation, -, -, -, -, calls, -⟩
          · exact ⟨[], by rw [calls, List.append_nil]⟩
          · exact ⟨_, calls⟩
  | advance position reading =>
      obtain ⟨broker, stepped, rfl⟩ := Option.map_eq_some_iff.mp stepTo
      exact heeds.of_stays still (fun session found => Or.inl found)
        fun session invocation atWork => atWork.advance stepped
  | runDeliveryTask task =>
      cases stepTo
      exact heeds.of_stays still (fun session found => Or.inl found)
        (beside ⟨[], (List.append_nil _).symm⟩)

theorem heeds_of_reachable {server : Server}
    (reached : ReachableWhile (Server.step config)
      (fun _ => Unlimited index) (new config) server) :
    Heeds config index server := by
  refine reached.invariant (Heeds config index) ?_
    fun _ _ _ heeds unlimited stepTo => heeds.step unlimited stepTo
  intro session found
  cases found

end Heeds

end Server

/-! ## The lines of the clients -/

/-- The lines with which a client sets up a binding of its configuration. -/
def BindRequest.configureLines (binding : BindRequest) : List String :=
  ["declare_queue " ++ binding.queueName ++ "\n",
    "declare_exchange " ++ binding.exchangeName ++ "\n",
    "bind " ++ binding.queueName ++ " " ++ binding.exchangeName ++ " " ++
      binding.routingKey ++ "\n"]

/-- Names that the lines carry to the server as they are. -/
structure BindRequest.Plain (binding : BindRequest) : Prop where
  queueNoSpace : ' ' ∉ binding.queueName.toList
  exchangeNoSpace : ' ' ∉ binding.exchangeName.toList
  queueNamed : binding.queueName ≠ ""
  exchangeNamed : binding.exchangeName ≠ ""
  keyNamed : binding.routingKey ≠ ""
  queueEnds : Text.trimEnd binding.queueName.toList =
    binding.queueName.toList
  exchangeEnds : Text.trimEnd binding.exchangeName.toList =
    binding.exchangeName.toList
  keyEnds : Text.trimEnd binding.routingKey.toList =
    binding.routingKey.toList

def requestOfLine (line : String) : List Char :=
  requestOf (Utf8.encode line)

section Lines

variable {codec : Codec} {index : Nat} {session : Session}
  {binding : BindRequest}

structure Session.MayBind (session : Session) (queueName : String) : Prop where
  role : session.role = .receiver ∨ session.role = .admin
  owns : AclManager.checkResource session.role session.clientId "queue"
    queueName = .allowed

theorem Session.MayBind.permitted {queueName : String}
    (mayBind : session.MayBind queueName) :
    ∀ command ∈ ["declare_queue", "declare_exchange", "bind"],
      AclManager.checkCommand (session.client index).role command =
        .allowed := by
  change ∀ command ∈ _, AclManager.checkCommand session.role command = _
  rcases mayBind.role with isReceiver | isAdmin
  · rw [isReceiver]
    decide
  · rw [isAdmin]
    decide

theorem Session.MayBind.guardQueue {queueName : String}
    (mayBind : session.MayBind queueName) (action : Action) :
    (session.client index).guardQueue queueName action = action := by
  have allowed : AclManager.checkResource (session.client index).role
      (session.client index).clientId "queue" queueName = .allowed :=
    mayBind.owns
  unfold Client.guardQueue
  rw [allowed]

variable (plain : binding.Plain)

include plain

theorem asks_declareQueue (mayBind : session.MayBind binding.queueName) :
    session.Asks codec index
      (requestOfLine ("declare_queue " ++ binding.queueName ++ "\n"))
      (.declareQueue binding.queueName) := by
  intro now
  refine ⟨.reply "Queue declared\n", ?_⟩
  have line : "declare_queue " ++ binding.queueName ++ "\n" =
      "declare_queue" ++ " " ++ binding.queueName ++ "\n" := rfl
  rw [requestOfLine, line, Client.handleRequest_line "declare_queue"
    (by decide) (Text.visible_of_all (by decide))
    (mayBind.permitted _ (by decide)), plain.queueEnds, Client.runCommand,
    String.ofList_toList]
  exact (if_pos plain.queueNamed).trans (mayBind.guardQueue _)

theorem asks_declareExchange (mayBind : session.MayBind binding.queueName) :
    session.Asks codec index
      (requestOfLine ("declare_exchange " ++ binding.exchangeName ++ "\n"))
      (.declareExchange binding.exchangeName) := by
  intro now
  refine ⟨.reply "Exchange declared\n", ?_⟩
  have line : "declare_exchange " ++ binding.exchangeName ++ "\n" =
      "declare_exchange" ++ " " ++ binding.exchangeName ++ "\n" := rfl
  rw [requestOfLine, line, Client.handleRequest_line "declare_exchange"
    (by decide) (Text.visible_of_all (by decide))
    (mayBind.permitted _ (by decide)), plain.exchangeEnds,
    Client.runCommand, String.ofList_toList]
  exact if_pos plain.exchangeNamed

theorem asks_bind (mayBind : session.MayBind binding.queueName) :
    session.Asks codec index
      (requestOfLine ("bind " ++ binding.queueName ++ " " ++
        binding.exchangeName ++ " " ++ binding.routingKey ++ "\n"))
      (.bindQueue binding.queueName binding.exchangeName
        binding.routingKey) := by
  intro now
  refine ⟨.reply "Queue bound\n", ?_⟩
  have line : "bind " ++ binding.queueName ++ " " ++ binding.exchangeName ++
        " " ++ binding.routingKey ++ "\n" =
      "bind" ++ " " ++ (binding.queueName ++ " " ++ binding.exchangeName ++
        " " ++ binding.routingKey) ++ "\n" := by
    simp [String.append_assoc]
  obtain ⟨args, isSplit, handled⟩ : ∃ args,
      splitArguments args = some (binding.queueName, binding.exchangeName,
        binding.routingKey) ∧ _ = (session.client index).runCommand codec now
          "bind" args :=
    Client.handleRequest_three "bind" (by decide)
      (Text.visible_of_all (by decide)) (mayBind.permitted "bind" (by decide))
      plain.queueNoSpace plain.exchangeNoSpace plain.keyNamed plain.keyEnds now
  rw [requestOfLine, line, handled, Client.runCommand, isSplit]
  exact mayBind.guardQueue _

end Lines

/-- The routing keys a sender uses for the queues of its configuration; of
several bindings of a queue the last counts. -/
def Sender.routingMap (bindings : List BindRequest) : KeyMap String String :=
  .ofEntries (bindings.map fun binding =>
    (binding.queueName, binding.routingKey))

namespace Server

variable {config : ServerConfig} {index : Nat}

/-- A client whose set-up has been answered has its queue bound. -/
theorem bound_of_configured {server : Server} {session : Session}
    (reached : ReachableWhile (step config) (fun _ => Unlimited index)
      (new config) server)
    (found : server.sessions[index]? = some session)
    (isWaiting : session.activity = .waiting) {binding : BindRequest}
    (plain : binding.Plain) (mayBind : session.MayBind binding.queueName)
    (configured : (binding.configureLines.map requestOfLine).Sublist
      session.intake.requests) :
    server.broker.shared.Bound binding.exchangeName binding.routingKey
      binding.queueName := by
  obtain ⟨front, back, requests, declared, bound⟩ :=
    List.append_sublist_iff.mp (show ([_, _] ++ [_]).Sublist _ from configured)
  obtain ⟨between, later, isSplit⟩ :=
    List.append_of_mem (List.singleton_sublist.mp bound)
  rw [isSplit, ← List.append_assoc] at requests
  have firsts : ∀ request ∈ [
      requestOfLine ("declare_queue " ++ binding.queueName ++ "\n"),
      requestOfLine ("declare_exchange " ++ binding.exchangeName ++ "\n")],
      request ∈ front ++ between :=
    fun request isFirst =>
      List.mem_append_left _ (declared.subset isFirst)
  have needs : ∀ needed ∈ (Invocation.bindQueue binding.queueName
      binding.exchangeName binding.routingKey).needs,
      ∃ asked ∈ front ++ between,
        session.Asks config.codec index asked needed := by
    intro needed isNeeded
    rcases List.mem_cons.mp isNeeded with rfl | isSecond
    · exact ⟨_, firsts _ List.mem_cons_self, asks_declareQueue plain mayBind⟩
    · rw [List.mem_singleton.mp isSecond]
      exact ⟨_, firsts _ (List.mem_cons_of_mem _ List.mem_cons_self),
        asks_declareExchange plain mayBind⟩
  rcases heeds_of_reachable reached session found _ _ _ requests _
    (asks_bind plain mayBind) needs with provides |
      ⟨⟨position, continuation, call, isCalling, -⟩, -⟩
  · exact provides
  · rw [isWaiting] at isCalling
    cases isCalling

end Server

namespace SampleExchange

def binding : BindRequest :=
  ⟨"receiver_1_queue", "e", "receiver_1_key"⟩

def configuringRun : List Server.Event :=
  [.connect "receiver_1" "10.0.0.1" .smooth] ++
  Server.request 0 "declare_queue receiver_1_queue\n" 0 1 ++
  Server.request 0 "declare_exchange e\n" 1 1 ++
  [.connect "receiver_2" "10.0.0.2" .smooth] ++
  Server.request 0 "bind receiver_1_queue e receiver_1_key\n" 2 3

end SampleExchange

end CipherMQ
