import CipherMQ.CallEffects
import CipherMQ.ServerEffects

/-!
# Which connection a call belongs to

A handler waits for the call it has made, so every call under way belongs to
the connection that asked for it, and the connection keeps the role and the
name under which it asked.  What the access control has granted for a request
therefore holds for every access that is made on behalf of the request.
-/

namespace CipherMQ

/-- What a call was asked to do, whatever point it has reached. -/
def Call.invocation : Call → Invocation
  | .declareQueue queueName _ => .declareQueue queueName
  | .declareExchange exchangeName _ => .declareExchange exchangeName
  | .bindQueue queueName exchangeName routingKey _ =>
      .bindQueue queueName exchangeName routingKey
  | .publish request _ => .publish request
  | .registerConsumer queueName sender _ =>
      .registerConsumer queueName sender
  | .acknowledge messageId _ => .acknowledge messageId

@[simp]
theorem Invocation.invocation_start (invocation : Invocation) :
    invocation.start.invocation = invocation := by
  cases invocation <;> rfl

@[simp]
theorem Call.invocation_advance (reading : Reading) (state : ServerState)
    (call : Call) :
    (call.advance reading state).2.invocation = call.invocation := by
  cases call with
  | declareQueue queueName point => cases point <;> rfl
  | declareExchange exchangeName point => cases point <;> rfl
  | bindQueue => rfl
  | publish => rfl
  | registerConsumer => rfl
  | acknowledge => rfl

/-! ## What a client may ask for -/

namespace AclManager

variable {role : Role} {command : String}

theorem known_of_checkCommand
    (permitted : checkCommand role command = .allowed) :
    role ≠ .unknown := by
  rintro rfl
  simp [checkCommand] at permitted

theorem publisher_of_checkCommand
    (publishes : command = "publish" ∨ command = "publish_batch")
    (permitted : checkCommand role command = .allowed) :
    role = .sender ∨ role = .admin := by
  rcases publishes with rfl | rfl <;> revert permitted <;>
    cases role <;> decide

theorem consumer_of_checkCommand
    (consumes : command = "declare_exchange" ∨ command = "consume")
    (permitted : checkCommand role command = .allowed) :
    role = .receiver ∨ role = .admin := by
  rcases consumes with rfl | rfl <;> revert permitted <;>
    cases role <;> decide

end AclManager

namespace Client

open AclManager

def MayInvoke (client : Client) : Invocation → Prop
  | .declareQueue queueName =>
      AclManager.checkResource client.role client.clientId "queue"
        queueName = .allowed
  | .declareExchange _ => client.role = .receiver ∨ client.role = .admin
  | .bindQueue queueName _ _ =>
      AclManager.checkResource client.role client.clientId "queue"
        queueName = .allowed
  | .publish _ => client.role = .sender ∨ client.role = .admin
  | .registerConsumer _ _ => client.role = .receiver ∨ client.role = .admin
  | .acknowledge _ => client.role ≠ .unknown

variable {codec : Codec} {client : Client} {now : Nat}
  {invocation : Invocation} {next : Continuation}

theorem nextOfBatch_eq_call {exchangeName routingKey : String}
    {acks : List String} {messages : List EncryptedInputData}
    (isCall : client.nextOfBatch exchangeName routingKey acks now messages =
      .call invocation next) :
    (∃ request, invocation = .publish request) ∧
      ∃ batch, next = .confirmBatch batch := by
  cases messages with
  | nil => cases isCall
  | cons message messages =>
      cases isCall
      exact ⟨⟨_, rfl⟩, _, rfl⟩

/-- What is known of a call that a request leads to: the client may ask for
it, a batch begins with a publish, and a registration is on behalf of the
client itself. -/
structure Asks (client : Client) (invocation : Invocation)
    (next : Continuation) : Prop where
  mayInvoke : client.MayInvoke invocation
  inBatch : ∀ batch, next = .confirmBatch batch →
    ∃ request, invocation = .publish request
  isOwn : ∀ queueName sender,
    invocation = .registerConsumer queueName sender → sender = client.sender

theorem Calls.asks {command : String} {args : List Char}
    (calls : Calls codec client now args command invocation next)
    (permitted : AclManager.checkCommand client.role command = .allowed) :
    client.Asks invocation next := by
  cases calls with
  | declareQueue owns => exact ⟨owns, by simp, by simp⟩
  | declareExchange =>
      exact ⟨consumer_of_checkCommand (Or.inl rfl) permitted, by simp,
        by simp⟩
  | bindQueue split owns => exact ⟨owns, by simp, by simp⟩
  | publish split parsed =>
      exact ⟨publisher_of_checkCommand (Or.inl rfl) permitted, by simp,
        by simp⟩
  | publishBatch split parsed =>
      exact ⟨publisher_of_checkCommand (Or.inr rfl) permitted,
        fun _ _ => ⟨_, rfl⟩, by simp⟩
  | consume =>
      refine ⟨consumer_of_checkCommand (Or.inr rfl) permitted, by simp, ?_⟩
      intro queueName sender same
      cases same
      rfl
  | ack => exact ⟨known_of_checkCommand permitted, by simp, by simp⟩

theorem asks_of_handleRequest {limited : Bool} {request : List Char}
    (isCall : client.handleRequest codec limited now request =
      .call invocation next) :
    client.Asks invocation next := by
  obtain ⟨permitted, calls⟩ := calls_of_handleRequest isCall
  exact calls.asks permitted

end Client

/-- The calls that the bytes read by a handler lead to. -/
theorem Server.asks_of_requestAction {config : ServerConfig} {index : Nat}
    {session : Session} {event : HandlerEvent} {invocation : Invocation}
    {continuation : Continuation}
    (isCall : requestAction config index session event =
      some (.call invocation continuation)) :
    (session.client index).Asks invocation continuation := by
  unfold requestAction at isCall
  split at isCall
  · split at isCall
    · exact Client.asks_of_handleRequest (Option.some.inj isCall)
    · cases isCall
  · cases isCall

/-! ## The calls of handlers -/

structure ServerState.SameMaps (before after : ServerState) : Prop where
  queues : after.queues = before.queues
  messageQueues : after.messageQueues = before.messageQueues
  bindings : after.bindings = before.bindings
  exchanges : after.exchanges = before.exchanges
  consumers : after.consumers = before.consumers

theorem ServerState.sameMaps_refl (state : ServerState) :
    state.SameMaps state :=
  ⟨rfl, rfl, rfl, rfl, rfl⟩

theorem ServerState.sameMaps_markDelivered (state : ServerState)
    (messageId : String) (now : Nat) (time : String) :
    state.SameMaps (state.markDelivered messageId now time) := by
  obtain ⟨messageStatus, storage, marked, -⟩ :=
    markDelivered_frame state messageId now time
  rw [marked]
  exact ⟨rfl, rfl, rfl, rfl, rfl⟩

/-- A call that advances has not returned. -/
theorem Broker.advance_cases {before after : Broker} {index : Nat}
    {reading : Reading}
    (stepTo : before.step (.advance index reading) = some after) :
    ∃ call, before.calls[index]? = some call ∧ call.isReturned = false ∧
      after = ⟨(call.advance reading before.shared).1,
        before.calls.set index (call.advance reading before.shared).2⟩ := by
  rcases step_cases stepTo with ⟨_, isInvoke, -⟩ |
    ⟨_, _, call, isAdvance, found, running, rfl⟩ | ⟨_, _, isMark, -⟩ |
    ⟨_, isDrop, -⟩ | ⟨_, isTask, -⟩ | ⟨_, _, isBookkeep, -⟩
  · cases isInvoke
  · cases isAdvance
    exact ⟨call, found, running, rfl⟩
  · cases isMark
  · cases isDrop
  · cases isTask
  · cases isBookkeep

namespace Server

/-- A step of the handler at `index` waits for no call afterwards, or makes a
call there is a `reason` for and waits for that one. -/
inductive Moves (reason : Invocation → Continuation → Prop)
    (before : Server) (index : Nat) (after : Server) : Prop
  | settles (next : Session) :
      after.sessions = before.sessions.set index next →
        (∀ call continuation,
          next.activity ≠ .calling call continuation) →
          after.broker.calls = before.broker.calls →
            before.broker.shared.SameMaps after.broker.shared →
              Moves reason before index after
  | calls (next : Session) (invocation : Invocation)
      (continuation : Continuation) :
      reason invocation continuation →
        after.sessions = before.sessions.set index next →
          next.activity =
              .calling before.broker.calls.length continuation →
            after.broker.calls =
                before.broker.calls ++ [invocation.start] →
              after.broker.shared = before.broker.shared →
                Moves reason before index after

section Moves

variable {reason : Invocation → Continuation → Prop}
  (server : Server) (index : Nat) (session : Session) (outcome : Outcome)

theorem moves_reply (text : String) :
    Moves reason server index (server.reply index session outcome text) :=
  .settles _ rfl (by simp) rfl (ServerState.sameMaps_refl _)

theorem moves_finish :
    Moves reason server index (server.finish index session) :=
  .settles _ rfl (by simp) rfl ⟨rfl, rfl, rfl, rfl, rfl⟩

theorem moves_perform (action : Action)
    (explained : ∀ invocation continuation,
      action = .call invocation continuation →
        reason invocation continuation) :
    Moves reason server index
      (server.perform index session outcome action) := by
  cases action with
  | refuse text =>
      exact .settles _ rfl (by simp) rfl (ServerState.sameMaps_refl _)
  | write text => exact moves_reply server index session outcome text
  | demand text =>
      simp only [perform]
      split
      · exact moves_reply server index session outcome text
      · exact moves_finish server index session
  | heartbeat text =>
      exact .settles _ rfl (by simp) rfl (ServerState.sameMaps_refl _)
  | call invocation continuation =>
      exact .calls _ invocation continuation (explained _ _ rfl) rfl rfl rfl
        rfl
  | query query =>
      exact .settles _ rfl (by simp) rfl (ServerState.sameMaps_refl _)

/-- After a call has returned, only a batch goes on to another call. -/
theorem moves_proceed (result : Except String Unit)
    (continuation : Continuation)
    (explained : ∀ batch, continuation = .confirmBatch batch →
      ∀ request next, reason (.publish request) (.confirmBatch next)) :
    Moves reason server index
      (server.proceed index session outcome result continuation) := by
  cases continuation with
  | reply text => exact moves_reply server index session outcome text
  | proceed =>
      exact .settles _ rfl (by simp) rfl (ServerState.sameMaps_refl _)
  | confirmAck messageId =>
      simp only [proceed]
      split
      · exact .settles _ rfl (by simp) rfl (ServerState.sameMaps_refl _)
      · exact .settles _ rfl (by simp) rfl ⟨rfl, rfl, rfl, rfl, rfl⟩
  | confirmPublish messageId =>
      cases result with
      | ok _ =>
          exact .settles _ rfl (by simp) rfl (ServerState.sameMaps_refl _)
      | error error => exact moves_reply server index session outcome _
  | confirmBatch batch =>
      have nextOfBatch : ∀ (acks : List String) invocation continuation,
          (session.client index).nextOfBatch batch.exchangeName
              batch.routingKey acks outcome.now batch.remaining =
                .call invocation continuation →
            reason invocation continuation := by
        intro acks invocation continuation isCall
        obtain ⟨⟨request, rfl⟩, next, rfl⟩ :=
          Client.nextOfBatch_eq_call isCall
        exact explained batch rfl request next
      cases result with
      | ok _ =>
          have moved := moves_perform server.countPublished index session
            outcome _ (nextOfBatch
              (batch.acks ++ ["ACK " ++ batch.current.messageId]))
          cases moved with
          | settles next sessions settled calls maps =>
              exact .settles next sessions settled calls maps
          | calls next invocation continuation why sessions waits calls
              shared =>
              exact .calls next invocation continuation why sessions waits
                calls shared
      | error error =>
          exact moves_perform server index session outcome _ (nextOfBatch _)

theorem moves_answer (query : Query) :
    Moves reason server index
      (server.answer index session outcome query) := by
  cases query <;>
    exact .settles _ rfl (by simp) rfl ⟨rfl, rfl, rfl, rfl, rfl⟩

theorem moves_deliver (delivery : Delivery) (point : DeliveryPoint) :
    Moves reason server index
      (server.deliver index session outcome delivery point) := by
  cases point with
  | checkStatus =>
      refine .settles _ rfl ?_ rfl (ServerState.sameMaps_refl _)
      intro call continuation
      dsimp only
      split <;> simp
  | checkDeliverable =>
      refine .settles _ rfl ?_ rfl (ServerState.sameMaps_refl _)
      intro call continuation
      dsimp only
      split <;> simp
  | write retryCount =>
      simp only [deliver]
      split
      · exact .settles _ rfl (by simp) rfl (ServerState.sameMaps_refl _)
      · split
        · exact .settles _ rfl (by simp) rfl (ServerState.sameMaps_refl _)
        · exact moves_finish server index session
  | flush retryCount =>
      exact .settles _ rfl (by simp) rfl (ServerState.sameMaps_refl _)
  | markWritten =>
      exact .settles _ rfl (by simp) rfl
        (ServerState.sameMaps_markDelivered _ _ _ _)
  | markDelivered =>
      exact .settles _ rfl (by simp) rfl
        (ServerState.sameMaps_markDelivered _ _ _ _)

end Moves

/-- Why a handler makes a call: its client has asked for it, or it goes on
with a batch. -/
def MadeFor (config : ServerConfig) (index : Nat) (session : Session)
    (event : HandlerEvent) (invocation : Invocation)
    (continuation : Continuation) : Prop :=
  requestAction config index session event =
      some (.call invocation continuation) ∨
    ∃ call batch request next,
      session.activity = .calling call (.confirmBatch batch) ∧
        invocation = .publish request ∧ continuation = .confirmBatch next

theorem moves_handle {config : ServerConfig} {before after : Server}
    {index : Nat} {session : Session} {event : HandlerEvent}
    (handles : before.handle config index session event = some after) :
    Moves (MadeFor config index session event) before index after := by
  unfold handle at handles
  split at handles
  · rename_i result outcome isWaiting
    cases handles
    match result with
    | none => exact .settles _ rfl (by simp) rfl ⟨rfl, rfl, rfl, rfl, rfl⟩
    | some [] =>
        exact .settles _ rfl (by simp) rfl ⟨rfl, rfl, rfl, rfl, rfl⟩
    | some (byte :: bytes) =>
        have moved := moves_perform
          (before.recordHeartbeat session.clientId outcome.now) index
          { session with intake := session.intake.receive (byte :: bytes) }
          outcome
          ((session.client index).handleRequest config.codec outcome.limited
            outcome.now
            (requestOf (session.intake.buffer ++ byte :: bytes)))
          (fun invocation continuation isCall =>
            show MadeFor config index session
                (.read (some (byte :: bytes)) outcome) invocation
                continuation from
              Or.inl (by simp [requestAction, isWaiting, isCall]))
        cases moved with
        | settles next sessions settled calls maps =>
            exact .settles next sessions settled calls maps
        | calls next invocation continuation why sessions waits calls
            shared =>
            exact .calls next invocation continuation why sessions waits
              calls shared
  · obtain ⟨delivery, isNext, rfl⟩ := Option.map_eq_some_iff.mp handles
    exact .settles _ rfl (by simp) rfl (ServerState.sameMaps_refl _)
  · cases handles
    exact .settles _ rfl (by simp) rfl ⟨rfl, rfl, rfl, rfl, rfl⟩
  · rename_i call continuation outcome isCalling
    obtain ⟨result, -, rfl⟩ := Option.map_eq_some_iff.mp handles
    apply moves_proceed
    rintro batch rfl request next
    exact Or.inr ⟨call, batch, request, next, isCalling, rfl, rfl⟩
  · rename_i query outcome isQuerying
    cases handles
    exact moves_answer before index session outcome query
  · rename_i delivery point outcome isDelivering
    cases handles
    exact moves_deliver before index session outcome delivery point
  · cases handles
    exact .settles _ rfl (by simp) rfl (ServerState.sameMaps_refl _)
  · cases handles

/-- A handler goes on only once its call has returned. -/
theorem isReturned_of_handle {config : ServerConfig} {before after : Server}
    {index call : Nat} {session : Session} {event : HandlerEvent}
    {continuation : Continuation} {made : Call}
    (handles : before.handle config index session event = some after)
    (isCalling : session.activity = .calling call continuation)
    (found : before.broker.calls[call]? = some made) :
    made.isReturned = true := by
  have returned : ∀ result, made.result = some result →
      made.isReturned = true := by
    intro result hasResult
    unfold Call.result at hasResult
    split at hasResult
    · rfl
    · split at hasResult
      · assumption
      · cases hasResult
  cases event with
  | resume outcome =>
      simp only [handle, isCalling, found, Option.bind_some,
        Option.map_eq_some_iff] at handles
      obtain ⟨result, hasResult, -⟩ := handles
      exact returned result hasResult
  | read result outcome => simp [handle, isCalling] at handles
  | receive => simp [handle, isCalling] at handles
  | deliver outcome => simp [handle, isCalling] at handles
  | channelClosed => simp [handle, isCalling] at handles
  | close => simp [handle, isCalling] at handles

structure Joins (config : ServerConfig) (before : Server)
    (clientId : String) (session : Session) (after : Server) : Prop where
  sessions : after.sessions = before.sessions ++ [session]
  calls : after.broker.calls = before.broker.calls
  maps : before.broker.shared.SameMaps after.broker.shared
  role : session.role = config.acl.resolveRole clientId
  settled : ∀ call continuation,
    session.activity ≠ .calling call continuation
  rejected : session.role = .unknown →
    session.isOpen = false ∧ after.broker = before.broker

theorem joins_connect (config : ServerConfig) (before : Server)
    (clientId ip : String) (outcome : Outcome) :
    ∃ session, Joins config before clientId session
      (before.connect config clientId ip outcome) := by
  have writeRole : ∀ (session : Session) line succeeds,
      (session.write line succeeds).role = session.role := by
    intro session line succeeds
    cases succeeds <;> rfl
  unfold connect
  dsimp only
  split
  · rename_i isUnknown
    refine ⟨_, rfl, rfl, ServerState.sameMaps_refl _, ?_, ?_, ?_⟩
    · exact writeRole _ _ _
    · simp [Session.new]
    · simp [Session.isOpen, Session.new]
  · rename_i isKnown
    split
    · exact ⟨_, rfl, rfl, ServerState.sameMaps_refl _, rfl,
        by simp [Session.new], fun isUnknown => (isKnown isUnknown).elim⟩
    · exact ⟨_, rfl, rfl, ⟨rfl, rfl, rfl, rfl, rfl⟩, rfl,
        by simp [Session.new], fun isUnknown => (isKnown isUnknown).elim⟩

/-! ## Runs -/

/-- A client with the name and the role has the right to make a call. -/
abbrev Rights := String → Role → Invocation → Prop

/-- Every call a handler waits for is one its connection has the right to
make, and every call under way is waited for. -/
structure Owned (rights : Rights) (server : Server) : Prop where
  asked : ∀ (index : Nat) (session : Session) call continuation,
    server.sessions[index]? = some session →
      session.activity = .calling call continuation →
        ∃ made : Call, server.broker.calls[call]? = some made ∧
          rights session.clientId session.role made.invocation ∧
          ∀ batch, continuation = .confirmBatch batch →
            ∃ request, made.invocation = .publish request
  owner : ∀ (call : Nat) (made : Call),
    server.broker.calls[call]? = some made →
      made.isReturned = false →
        ∃ (index : Nat) (session : Session) (continuation : Continuation),
          server.sessions[index]? = some session ∧
            session.activity = .calling call continuation

/-- The calls that clients ask for in a step are within their rights. -/
def AsksWithin (rights : Rights) (config : ServerConfig) (server : Server)
    (event : Event) : Prop :=
  ∀ index handlerEvent, event = .handler index handlerEvent →
    ∀ session, server.sessions[index]? = some session →
      ∀ invocation continuation,
        requestAction config index session handlerEvent =
            some (.call invocation continuation) →
          rights session.clientId session.role invocation

section Owned

variable {rights : Rights} {config : ServerConfig} {before after : Server}

/-- Steps outside the handlers that only look at calls. -/
theorem Owned.of_same (owned : Owned rights before)
    (sessions : after.sessions = before.sessions)
    (calls : after.broker.calls = before.broker.calls) :
    Owned rights after := by
  constructor
  · rw [sessions, calls]
    exact owned.asked
  · rw [sessions, calls]
    exact owned.owner

theorem Owned.joins {clientId : String} {session : Session}
    (owned : Owned rights before)
    (joins : Joins config before clientId session after) :
    Owned rights after := by
  constructor
  · intro index other call continuation found isCalling
    rw [joins.sessions, List.getElem?_append] at found
    rw [joins.calls]
    split at found
    · exact owned.asked index other call continuation found isCalling
    · have isNew : other = session := by
        have member := List.mem_of_getElem? found
        exact List.mem_singleton.mp member
      subst isNew
      exact (joins.settled call continuation isCalling).elim
  · intro call made found running
    rw [joins.calls] at found
    obtain ⟨index, other, continuation, atIndex, isCalling⟩ :=
      owned.owner call made found running
    rw [joins.sessions]
    exact ⟨index, other, continuation, getElem?_append_kept atIndex _,
      isCalling⟩

/-- A call that advances stays the call it was. -/
theorem Owned.advance {call : Nat} {made : Call}
    (owned : Owned rights before)
    (found : before.broker.calls[call]? = some made)
    (running : made.isReturned = false) (reading : Reading)
    (sessions : after.sessions = before.sessions)
    (calls : after.broker.calls = before.broker.calls.set call
      (made.advance reading before.broker.shared).2) :
    Owned rights after := by
  constructor
  · intro index session other continuation atIndex isCalling
    rw [sessions] at atIndex
    obtain ⟨otherMade, otherFound, hasRight, inBatch⟩ :=
      owned.asked index session other continuation atIndex isCalling
    rw [calls]
    by_cases same : other = call
    · subst same
      rw [found] at otherFound
      cases otherFound
      refine ⟨_, getElem?_set_moved found _, ?_, ?_⟩
      · rwa [Call.invocation_advance]
      · rwa [Call.invocation_advance]
    · refine ⟨otherMade, ?_, hasRight, inBatch⟩
      rw [List.getElem?_set_ne (Ne.symm same)]
      exact otherFound
  · intro other otherMade otherFound otherRunning
    rw [calls] at otherFound
    rw [sessions]
    rcases getElem?_set_cases otherFound with ⟨rfl, -⟩ | ⟨-, oldFound⟩
    · exact owned.owner other made found running
    · exact owned.owner other otherMade oldFound otherRunning

section Handler

variable {index : Nat} {session next : Session} {event : HandlerEvent}
  (owned : Owned rights before)
  (found : before.sessions[index]? = some session)
  (handles : before.handle config index session event = some after)
  (sessions : after.sessions = before.sessions.set index next)

include owned found handles sessions

/-- The call a handler leaves has returned, so the calls still under way are
waited for by the others. -/
theorem Owned.owner_kept {call : Nat} {made : Call}
    (callFound : before.broker.calls[call]? = some made)
    (running : made.isReturned = false) :
    ∃ (other : Nat) (otherSession : Session) (continuation : Continuation),
      after.sessions[other]? = some otherSession ∧
        otherSession.activity = .calling call continuation := by
  obtain ⟨other, otherSession, continuation, atOther, isCalling⟩ :=
    owned.owner call made callFound running
  by_cases same : other = index
  · subst same
    rw [found] at atOther
    cases atOther
    have returned := isReturned_of_handle handles isCalling callFound
    rw [running] at returned
    cases returned
  · refine ⟨other, otherSession, continuation, ?_, isCalling⟩
    rw [sessions, List.getElem?_set_ne (Ne.symm same)]
    exact atOther

theorem Owned.settles
    (settled : ∀ call continuation,
      next.activity ≠ .calling call continuation)
    (calls : after.broker.calls = before.broker.calls) :
    Owned rights after := by
  constructor
  · intro other otherSession call continuation otherFound isCalling
    rw [sessions] at otherFound
    rw [calls]
    rcases getElem?_set_cases otherFound with ⟨-, rfl⟩ | ⟨-, oldFound⟩
    · exact (settled call continuation isCalling).elim
    · exact owned.asked other otherSession call continuation oldFound
        isCalling
  · intro call made callFound running
    rw [calls] at callFound
    exact owned.owner_kept found handles sessions callFound running

theorem Owned.invokes {invocation : Invocation}
    {continuation : Continuation}
    (hasRight : rights next.clientId next.role invocation)
    (inBatch : ∀ batch, continuation = .confirmBatch batch →
      ∃ request, invocation = .publish request)
    (waits : next.activity =
      .calling before.broker.calls.length continuation)
    (calls : after.broker.calls =
      before.broker.calls ++ [invocation.start]) :
    Owned rights after := by
  constructor
  · intro other otherSession call otherContinuation otherFound isCalling
    rw [sessions] at otherFound
    rw [calls]
    rcases getElem?_set_cases otherFound with ⟨-, rfl⟩ | ⟨-, oldFound⟩
    · rw [waits] at isCalling
      cases isCalling
      refine ⟨invocation.start, by simp, ?_, ?_⟩
      · rw [Invocation.invocation_start]
        exact hasRight
      · rw [Invocation.invocation_start]
        exact inBatch
    · obtain ⟨made, callFound, otherRight, otherBatch⟩ :=
        owned.asked other otherSession call otherContinuation oldFound
          isCalling
      exact ⟨made, getElem?_append_kept callFound _, otherRight, otherBatch⟩
  · intro call made callFound running
    rw [calls, List.getElem?_append] at callFound
    split at callFound
    · exact owned.owner_kept found handles sessions callFound running
    · rename_i notOld
      have isNew : call = before.broker.calls.length := by
        obtain ⟨inRange, -⟩ := List.getElem?_eq_some_iff.mp callFound
        rw [List.length_singleton] at inRange
        omega
      subst isNew
      refine ⟨index, next, continuation, ?_, waits⟩
      rw [sessions]
      exact getElem?_set_moved found next

end Handler

/-- A publish is a right for all messages or for none. -/
def Rights.PublishesAny (rights : Rights) : Prop :=
  ∀ clientId role request other,
    rights clientId role (.publish request) →
      rights clientId role (.publish other)

/-- A request makes a call within the rights of its client, and a batch
continues under the right it began with. -/
theorem Owned.right_of_madeFor {index : Nat} {session : Session}
    {event : HandlerEvent} {invocation : Invocation}
    {continuation : Continuation} (owned : Owned rights before)
    (publishes : rights.PublishesAny)
    (asks : AsksWithin rights config before (.handler index event))
    (found : before.sessions[index]? = some session)
    (madeFor : MadeFor config index session event invocation continuation) :
    rights session.clientId session.role invocation ∧
      ∀ batch, continuation = .confirmBatch batch →
        ∃ request, invocation = .publish request := by
  rcases madeFor with isCall | ⟨call, batch, request, later, isCalling, rfl,
    rfl⟩
  · exact ⟨asks index event rfl session found _ _ isCall,
      (asks_of_requestAction isCall).inBatch⟩
  · obtain ⟨made, -, hadRight, inBatch⟩ :=
      owned.asked index session call _ found isCalling
    obtain ⟨earlier, isPublish⟩ := inBatch batch rfl
    rw [isPublish] at hadRight
    exact ⟨publishes _ _ _ _ hadRight, fun _ _ => ⟨request, rfl⟩⟩

theorem Owned.handle {index : Nat} {session : Session}
    {event : HandlerEvent} (owned : Owned rights before)
    (publishes : rights.PublishesAny)
    (asks : AsksWithin rights config before (.handler index event))
    (found : before.sessions[index]? = some session)
    (handles : before.handle config index session event = some after) :
    Owned rights after := by
  obtain ⟨next, handled⟩ := handled_handle handles
  have nextFound : after.sessions[index]? = some next := by
    rw [handled.sessions]
    exact getElem?_set_moved found next
  cases moves_handle handles with
  | settles moved sessions settled calls _ =>
      exact owned.settles found handles sessions settled calls
  | calls moved invocation continuation madeFor sessions waits calls _ =>
      obtain ⟨hasRight, inBatch⟩ :=
        owned.right_of_madeFor publishes asks found madeFor
      rw [sessions, getElem?_set_moved found moved] at nextFound
      cases nextFound
      rw [← handled.clientId, ← handled.role] at hasRight
      exact owned.invokes found handles sessions hasRight inBatch waits calls

theorem Owned.step {event : Event} (owned : Owned rights before)
    (publishes : rights.PublishesAny)
    (asks : AsksWithin rights config before event)
    (stepTo : before.step config event = some after) :
    Owned rights after := by
  cases event with
  | handshakeFailed =>
      cases stepTo
      exact owned.of_same rfl rfl
  | connect clientId ip outcome =>
      cases stepTo
      obtain ⟨session, joins⟩ :=
        joins_connect config before clientId ip outcome
      exact owned.joins joins
  | handler index handlerEvent =>
      obtain ⟨session, found, handles⟩ := Option.bind_eq_some_iff.mp stepTo
      exact owned.handle publishes asks found handles
  | advance call reading =>
      obtain ⟨broker, stepped, rfl⟩ := Option.map_eq_some_iff.mp stepTo
      obtain ⟨made, found, running, rfl⟩ := Broker.advance_cases stepped
      exact owned.advance found running reading rfl rfl
  | runDeliveryTask task =>
      cases stepTo
      exact owned.of_same rfl rfl
  | shutdown =>
      cases stepTo
      exact owned.of_same rfl rfl

theorem owned_new (rights : Rights) (config : ServerConfig) :
    Owned rights (new config) :=
  ⟨by simp [new], by simp [new, Broker.new]⟩

/-- In every run in which clients ask for calls within their rights, the calls
under way are within the rights of the connections they belong to. -/
theorem owned_of_reachable {server : Server}
    (publishes : rights.PublishesAny)
    (reached : ReachableWhile (step config) (AsksWithin rights config)
      (new config) server) : Owned rights server := by
  apply reached.invariant (Owned rights) (owned_new rights config)
  intro before event after owned asks stepTo
  exact owned.step publishes asks stepTo

end Owned

end Server

end CipherMQ
