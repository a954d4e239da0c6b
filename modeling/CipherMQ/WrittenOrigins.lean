import CipherMQ.HandlerTurns
import CipherMQ.MessageOrigins

/-!
# What is written to a client

Every message line that the server writes goes back to requests it has read:
a request of a sender or an administrator that publishes this very message, to
an exchange under a routing key to which the queue is bound, and a request of
the client itself to consume from the queue.  The server neither changes a
message nor makes one up, and sends none to a client that has not asked for
its queue.
-/

namespace CipherMQ

open ServerState

/-- The request publishes the message, alone or in a batch. -/
def Publishes (codec : Codec) (request : List Char)
    (exchangeName routingKey : String) (message : EncryptedInputData) :
    Prop :=
  ∃ text, splitArguments (splitRequest request).2 =
      some (exchangeName, routingKey, text) ∧
    ((splitRequest request).1 = "publish" ∧
        codec.parseMessage text = .ok message ∨
      (splitRequest request).1 = "publish_batch" ∧
        ∃ messages, codec.parseBatch text = .ok messages ∧
          message ∈ messages)

def Consumes (request : List Char) (queueName : String) : Prop :=
  (splitRequest request).1 = "consume" ∧
    String.ofList (splitRequest request).2 = queueName

namespace Session

/-- The client may publish and has sent a request that publishes the
message. -/
def HasPublished (codec : Codec) (session : Session)
    (exchangeName routingKey : String) (message : EncryptedInputData) :
    Prop :=
  (session.role = .sender ∨ session.role = .admin) ∧
    ∃ request ∈ session.intake.requests,
      Publishes codec request exchangeName routingKey message

/-- The client may consume and has asked for the messages of the queue. -/
def HasConsumed (session : Session) (queueName : String) : Prop :=
  (session.role = .receiver ∨ session.role = .admin) ∧
    ∃ request ∈ session.intake.requests, Consumes request queueName

/-- The same client, of which more may have been read. -/
structure Hears (session next : Session) : Prop where
  role : next.role = session.role
  requests : session.intake.requests <+: next.intake.requests

theorem Hears.refl (session : Session) : session.Hears session :=
  ⟨rfl, List.prefix_refl _⟩

theorem Hears.hasPublished {codec : Codec} {session next : Session}
    (hears : session.Hears next) {exchangeName routingKey : String}
    {message : EncryptedInputData}
    (published : session.HasPublished codec exchangeName routingKey
      message) :
    next.HasPublished codec exchangeName routingKey message := by
  obtain ⟨mayPublish, request, isRequest, publishes⟩ := published
  exact ⟨hears.role ▸ mayPublish, request,
    hears.requests.subset isRequest, publishes⟩

theorem Hears.hasConsumed {session next : Session}
    (hears : session.Hears next) {queueName : String}
    (consumed : session.HasConsumed queueName) :
    next.HasConsumed queueName := by
  obtain ⟨mayConsume, request, isRequest, consumes⟩ := consumed
  exact ⟨hears.role ▸ mayConsume, request,
    hears.requests.subset isRequest, consumes⟩

end Session

namespace Server

/-! ## Every call was asked for -/

/-- Every publish and every registration goes back to a request, and so does
what is left of a batch. -/
structure Asked (config : ServerConfig) (server : Server) : Prop where
  publishes : ∀ request, (∃ call ∈ server.broker.calls,
      call.invocation = .publish request) →
    ∃ session ∈ server.sessions, session.HasPublished config.codec
      request.exchangeName request.routingKey request.message
  registrations : ∀ queueName channel, (∃ call ∈ server.broker.calls,
      call.invocation = .registerConsumer queueName channel) →
    ∃ session, server.sessions[channel]? = some session ∧
      session.HasConsumed queueName
  batches : ∀ session ∈ server.sessions, ∀ call batch,
    session.activity = .calling call (.confirmBatch batch) →
      ∀ message ∈ batch.remaining, session.HasPublished config.codec
        batch.exchangeName batch.routingKey message

theorem asked_new (config : ServerConfig) : Asked config (new config) where
  publishes request made := by
    obtain ⟨call, isCall, -⟩ := made
    cases isCall
  registrations queueName channel made := by
    obtain ⟨call, isCall, -⟩ := made
    cases isCall
  batches session isSession := by cases isSession

/-- What a request that leads to a call says about the client. -/
theorem hasPublished_of_request {codec : Codec} {session next : Session}
    {index : Nat} {request : List Char} {limited : Bool} {now : Nat}
    {invocation : Invocation} {continuation : Continuation}
    (hears : session.Hears next)
    (isRequest : request ∈ next.intake.requests)
    (asked : (session.client index).handleRequest codec limited now request =
      .call invocation continuation) :
    (∀ made, invocation = .publish made → next.HasPublished codec
      made.exchangeName made.routingKey made.message) ∧
    (∀ queueName channel, invocation = .registerConsumer queueName channel →
      channel = index ∧ next.HasConsumed queueName) ∧
    ∀ batch, continuation = .confirmBatch batch →
      ∀ message ∈ batch.remaining, next.HasPublished codec
        batch.exchangeName batch.routingKey message := by
  obtain ⟨permitted, calls⟩ := Client.calls_of_handleRequest asked
  generalize isCommand : (splitRequest request).1 = command at permitted calls
  cases calls with
  | publish split parsed =>
      have mayPublish := AclManager.publisher_of_checkCommand (Or.inl rfl)
        permitted
      refine ⟨?_, by simp, by simp⟩
      intro made isMade
      cases isMade
      exact ⟨hears.role ▸ mayPublish, request, isRequest, _, split,
        Or.inl ⟨isCommand, parsed⟩⟩
  | @publishBatch exchangeName routingKey text message remaining split
      parsed =>
      have mayPublish := AclManager.publisher_of_checkCommand (Or.inr rfl)
        permitted
      have published : ∀ other ∈ message :: remaining,
          next.HasPublished codec exchangeName routingKey other :=
        fun other isOther => ⟨hears.role ▸ mayPublish, request, isRequest,
          text, split, Or.inr ⟨isCommand, _, parsed, isOther⟩⟩
      refine ⟨?_, by simp, ?_⟩
      · intro made isMade
        cases isMade
        exact published message List.mem_cons_self
      · intro batch isBatch other isOther
        cases isBatch
        exact published other (List.mem_cons_of_mem _ isOther)
  | consume =>
      have mayConsume := AclManager.consumer_of_checkCommand (Or.inr rfl)
        permitted
      refine ⟨by simp, ?_, by simp⟩
      intro queueName channel isRegistration
      cases isRegistration
      exact ⟨rfl, hears.role ▸ mayConsume, request, isRequest, isCommand,
        rfl⟩
  | declareQueue | declareExchange | bindQueue | ack =>
      exact ⟨by simp, by simp, by simp⟩

/-- The clients that asked for a call are among the sessions. -/
structure Explained (codec : Codec) (sessions : List Session)
    (invocation : Invocation) : Prop where
  publish : ∀ request, invocation = .publish request →
    ∃ session ∈ sessions, session.HasPublished codec request.exchangeName
      request.routingKey request.message
  registration : ∀ queueName channel,
    invocation = .registerConsumer queueName channel →
      ∃ session, sessions[channel]? = some session ∧
        session.HasConsumed queueName

section Steps

variable {config : ServerConfig} {before after : Server}
  (asked : Asked config before)

include asked

theorem Asked.of_stays
    (calls : ∀ call ∈ after.broker.calls,
      (∃ earlier ∈ before.broker.calls,
        earlier.invocation = call.invocation) ∨
      Explained config.codec after.sessions call.invocation)
    (stays : ∀ (index : Nat) (session : Session),
      before.sessions[index]? = some session → ∃ next,
        after.sessions[index]? = some next ∧ session.Hears next)
    (batches : ∀ session ∈ after.sessions, ∀ call batch,
      session.activity = .calling call (.confirmBatch batch) →
        ∀ message ∈ batch.remaining, session.HasPublished config.codec
          batch.exchangeName batch.routingKey message) :
    Asked config after := by
  refine ⟨?_, ?_, batches⟩
  · rintro request ⟨call, isCall, isPublish⟩
    rcases calls call isCall with ⟨earlier, wasCall, same⟩ | explained
    · obtain ⟨session, isSession, published⟩ :=
        asked.publishes request ⟨earlier, wasCall, same.trans isPublish⟩
      obtain ⟨position, found⟩ := List.getElem?_of_mem isSession
      obtain ⟨next, isNext, hears⟩ := stays position session found
      exact ⟨next, List.mem_of_getElem? isNext,
        hears.hasPublished published⟩
    · exact explained.publish request isPublish
  · rintro queueName channel ⟨call, isCall, isRegistration⟩
    rcases calls call isCall with ⟨earlier, wasCall, same⟩ | explained
    · obtain ⟨session, found, consumed⟩ := asked.registrations queueName
        channel ⟨earlier, wasCall, same.trans isRegistration⟩
      obtain ⟨next, isNext, hears⟩ := stays channel session found
      exact ⟨next, isNext, hears.hasConsumed consumed⟩
    · exact explained.registration queueName channel isRegistration

/-- The handler of a connection moves on and every call it makes is
explained. -/
theorem Asked.of_set {index : Nat} {session next : Session}
    (found : before.sessions[index]? = some session)
    (sessions : after.sessions = before.sessions.set index next)
    (hears : session.Hears next)
    (calls : ∀ call ∈ after.broker.calls, call ∈ before.broker.calls ∨
      Explained config.codec after.sessions call.invocation)
    (batches : ∀ call batch,
      next.activity = .calling call (.confirmBatch batch) →
        ∀ message ∈ batch.remaining, next.HasPublished config.codec
          batch.exchangeName batch.routingKey message) :
    Asked config after := by
  refine asked.of_stays ?_ ?_ ?_
  · intro call isCall
    rcases calls call isCall with old | explained
    · exact Or.inl ⟨call, old, rfl⟩
    · exact Or.inr explained
  · intro position other isOther
    rw [sessions]
    by_cases own : position = index
    · subst own
      rw [found] at isOther
      cases isOther
      exact ⟨next, getElem?_set_moved found next, hears⟩
    · rw [List.getElem?_set_ne (Ne.symm own)]
      exact ⟨other, isOther, .refl other⟩
  · intro other isOther
    rw [sessions] at isOther
    rcases List.mem_or_eq_of_mem_set isOther with old | rfl
    · exact asked.batches other old
    · exact batches

/-- A handler makes the calls that its client has asked for. -/
theorem Asked.explained {index : Nat} {session next : Session}
    {event : HandlerEvent} {invocation : Invocation}
    {continuation : Continuation}
    (found : before.sessions[index]? = some session)
    (there : after.sessions[index]? = some next)
    (hears : session.Hears next)
    (intake : next.intake = intakeAfter session event)
    (why : Prompted config index session event invocation continuation) :
    Explained config.codec after.sessions invocation ∧
      ∀ batch, continuation = .confirmBatch batch →
        ∀ message ∈ batch.remaining, next.HasPublished config.codec
          batch.exchangeName batch.routingKey message := by
  rcases why with acts | ⟨call, batch, message, remaining, acks, now,
    wasCalling, isNext, rfl, rfl⟩
  · obtain ⟨request, outcome, -, -, handled, requests⟩ :=
      request_of_requestAction acts
    have isRequest : request ∈ next.intake.requests := by
      rw [intake, requests]
      exact List.mem_append_right _ (List.mem_singleton_self _)
    obtain ⟨published, consumed, inBatch⟩ :=
      hasPublished_of_request hears isRequest handled
    refine ⟨⟨?_, ?_⟩, inBatch⟩
    · intro made isMade
      exact ⟨next, List.mem_of_getElem? there, published made isMade⟩
    · intro queueName channel isRegistration
      obtain ⟨rfl, hasConsumed⟩ := consumed queueName channel isRegistration
      exact ⟨next, there, hasConsumed⟩
  · have published : ∀ item ∈ message :: remaining,
        next.HasPublished config.codec batch.exchangeName
          batch.routingKey item := by
      intro item isItem
      rw [← isNext] at isItem
      exact hears.hasPublished (asked.batches session
        (List.mem_of_getElem? found) call batch wasCalling item isItem)
    refine ⟨⟨?_, by simp⟩, ?_⟩
    · intro made isMade
      cases isMade
      exact ⟨next, List.mem_of_getElem? there,
        published message List.mem_cons_self⟩
    · intro later isLater item isItem
      cases isLater
      exact published item (List.mem_cons_of_mem _ isItem)

theorem Asked.handle {index : Nat} {session : Session}
    {event : HandlerEvent} (found : before.sessions[index]? = some session)
    (handles : before.handle config index session event = some after) :
    Asked config after := by
  obtain ⟨next, sessions, sameClient, intake⟩ :=
    next_of_handle found handles
  have hears : session.Hears next := ⟨congrArg Client.role sameClient, by
    rw [intake]
    exact prefix_intakeAfter session event⟩
  have there : after.sessions[index]? = some next := by
    rw [sessions]
    exact getElem?_set_moved found next
  rcases prompted_handle handles with
    ⟨other, otherSessions, settled, calls, -⟩ |
    ⟨other, invocation, continuation, why, otherSessions, waits, calls, -⟩
  all_goals
    have same : other = next := by
      rw [otherSessions, getElem?_set_moved found] at there
      exact Option.some.inj there
    subst same
  · refine asked.of_set found sessions hears ?_ ?_
    · intro call isCall
      rw [calls] at isCall
      exact Or.inl isCall
    · intro call batch isCalling
      exact (settled call _ isCalling).elim
  · have asks := asked.explained found there hears intake why
    refine asked.of_set found sessions hears ?_ ?_
    · intro call isCall
      rw [calls] at isCall
      rcases List.mem_append.mp isCall with old | isNew
      · exact Or.inl old
      · rw [List.mem_singleton.mp isNew, Invocation.invocation_start]
        exact Or.inr asks.1
    · intro call batch isCalling
      rw [waits] at isCalling
      cases isCalling
      exact asks.2 batch rfl

/-- Only the broker moves on. -/
theorem Asked.of_broker (sessions : after.sessions = before.sessions)
    (calls : ∀ call ∈ after.broker.calls, ∃ earlier ∈ before.broker.calls,
      earlier.invocation = call.invocation) : Asked config after := by
  refine asked.of_stays (fun call isCall => Or.inl (calls call isCall)) ?_ ?_
  · intro position other isOther
    rw [sessions]
    exact ⟨other, isOther, .refl other⟩
  · rw [sessions]
    exact asked.batches

theorem Asked.step {event : Event}
    (stepTo : before.step config event = some after) :
    Asked config after := by
  cases event with
  | handshakeFailed | shutdown =>
      cases stepTo
      exact asked.of_broker rfl fun call isCall => ⟨call, isCall, rfl⟩
  | connect clientId ip outcome =>
      cases stepTo
      obtain ⟨session, joins⟩ :=
        joins_connect config before clientId ip outcome
      refine asked.of_stays ?_ ?_ ?_
      · intro call isCall
        rw [joins.calls] at isCall
        exact Or.inl ⟨call, isCall, rfl⟩
      · intro position other isOther
        rw [joins.sessions, List.getElem?_append_left
          (List.getElem?_eq_some_iff.mp isOther).1]
        exact ⟨other, isOther, .refl other⟩
      · intro other isOther call batch isCalling
        rw [joins.sessions] at isOther
        rcases List.mem_append.mp isOther with old | isNew
        · exact asked.batches other old call batch isCalling
        · rw [List.mem_singleton.mp isNew] at isCalling
          exact (joins.settled _ _ isCalling).elim
  | handler index handlerEvent =>
      obtain ⟨session, found, handles⟩ := Option.bind_eq_some_iff.mp stepTo
      exact asked.handle found handles
  | advance index reading =>
      obtain ⟨broker, stepped, rfl⟩ := Option.map_eq_some_iff.mp stepTo
      obtain ⟨made, found, -, rfl⟩ := Broker.advance_cases stepped
      refine asked.of_broker rfl fun call isCall => ?_
      rcases List.mem_or_eq_of_mem_set isCall with old | rfl
      · exact ⟨call, old, rfl⟩
      · exact ⟨made, List.mem_of_getElem? found,
          (Call.invocation_advance _ _ made).symm⟩
  | runDeliveryTask task =>
      cases stepTo
      exact asked.of_broker rfl fun call isCall => ⟨call, isCall, rfl⟩

end Steps

theorem asked_of_reachable {config : ServerConfig} {server : Server}
    (reached : Reachable (step config) (new config) server) :
    Asked config server :=
  reached.invariant (Asked config) (asked_new config)
    fun _ _ _ asked _ stepTo => asked.step stepTo

/-! ## What is written was sent -/

/-- What a connection writes, or is about to write, lies on its channel. -/
def Relays (server : Server) : Prop :=
  ∀ (index : Nat) (session : Session),
    server.sessions[index]? = some session → ∀ delivery,
      (.message delivery ∈ session.written ∨
        ∃ point, session.activity = .delivering delivery point) →
          delivery ∈ (server.broker.shared.channels index).sent

theorem sent_prefix_of_reachable {before after : Broker}
    (reached : Reachable Broker.step before after) (channel : ChannelId) :
    (before.shared.channels channel).sent <+:
      (after.shared.channels channel).sent :=
  reached.invariant
    (fun broker => (before.shared.channels channel).sent <+:
      (broker.shared.channels channel).sent) (List.prefix_refl _)
    fun _ _ _ earlier _ stepTo =>
      earlier.trans (Broker.sent_prefix_step stepTo channel)

/-- The broker moves on by steps of its own in every step of the server. -/
theorem reachable_broker_of_step {config : ServerConfig}
    {before after : Server} {event : Event}
    (stepTo : before.step config event = some after) :
    Reachable Broker.step before.broker after.broker := by
  rcases step_cases stepTo with ⟨session, connected⟩ |
    ⟨index, handlerEvent, session, next, -, -, handled⟩ | ⟨-, -, broker⟩
  · exact connected.broker.mono fun _ _ _ => trivial
  · exact handled.broker.mono fun _ _ _ => trivial
  · exact broker.mono fun _ _ _ => trivial

theorem Relays.step {config : ServerConfig} {before after : Server}
    {event : Event} (relays : before.Relays)
    (stepTo : before.step config event = some after) : after.Relays := by
  intro index session found delivery isWritten
  apply (sent_prefix_of_reachable (reachable_broker_of_step stepTo)
    index).subset
  rcases step_cases stepTo with ⟨joined, connected⟩ |
    ⟨moved, handlerEvent, earlier, next, rfl, wasThere, handled⟩ |
    ⟨sessions, -, -⟩
  · rw [connected.sessions] at found
    rcases getElem?_concat_cases found with old | ⟨-, rfl⟩
    · exact relays index session old delivery isWritten
    · rcases isWritten with isWritten | ⟨point, isDelivering⟩
      · exact (connected.written delivery isWritten).elim
      · exact (connected.delivering delivery point isDelivering).elim
  · rw [handled.sessions] at found
    rcases getElem?_set_cases found with ⟨rfl, rfl⟩ | ⟨-, same⟩
    · rcases isWritten with isWritten | ⟨point, isDelivering⟩
      · exact relays index earlier wasThere delivery
          (handled.written delivery isWritten)
      · rcases handled.delivering delivery point isDelivering with
          already | fromChannel
        · exact relays index earlier wasThere delivery (Or.inr already)
        · exact fromChannel
    · exact relays index session same delivery isWritten
  · rw [sessions] at found
    exact relays index session found delivery isWritten

theorem relays_of_reachable {config : ServerConfig} {server : Server}
    (reached : Reachable (step config) (new config) server) :
    server.Relays :=
  reached.invariant Relays
    (fun index session found => by cases found)
    fun _ _ _ relays _ stepTo => relays.step stepTo

/-- Every message line goes back to a request that publishes the message, to a
binding of its queue, and to a request of the client to consume it. -/
theorem written_goes_back {config : ServerConfig} {server : Server}
    (reached : Reachable (step config) (new config) server) {index : Nat}
    {session : Session} (found : server.sessions[index]? = some session)
    {delivery : Delivery} (isWritten : .message delivery ∈ session.written) :
    delivery.messageId = delivery.message.messageId ∧
    session.HasConsumed delivery.source ∧
    ∃ publisher ∈ server.sessions, ∃ exchangeName routingKey,
      publisher.HasPublished config.codec exchangeName routingKey
        delivery.message ∧
      server.broker.shared.Bound exchangeName routingKey
        delivery.source := by
  have isSent := relays_of_reachable reached index session found delivery
    (Or.inl isWritten)
  have asked := asked_of_reachable reached
  obtain ⟨joined, request, published, isEntry, bound⟩ :=
    (Broker.genuine_of_reachable (reachable_broker reached)).sent index
      delivery isSent
  obtain ⟨isId, isMessage⟩ := Prod.mk.inj isEntry
  obtain ⟨consumer, isConsumer, hasConsumed⟩ :=
    asked.registrations delivery.source index joined
  obtain ⟨publisher, isPublisher, hasPublished⟩ :=
    asked.publishes request published
  rw [found] at isConsumer
  cases isConsumer
  refine ⟨?_, hasConsumed, publisher, isPublisher, _, _, ?_, bound⟩
  · rw [isId, isMessage]
  · rw [isMessage]
    exact hasPublished

theorem written_goes_back_consumingRun :
    ∃ server session,
      Reachable (step sampleConfig) (new sampleConfig) server ∧
      server.sessions[1]? = some session ∧
      .message ⟨"receiver_1_queue", "m1", sampleMessage "m1"⟩ ∈
        session.written ∧
      session.HasConsumed "receiver_1_queue" ∧
      ∃ publisher ∈ server.sessions, ∃ exchangeName routingKey,
        publisher.HasPublished sampleCodec exchangeName routingKey
          (sampleMessage "m1") := by
  have ran : (executeWhile (step sampleConfig) (fun _ _ => True)
      (new sampleConfig) (consumingRun "receiver_1")).map (fun server =>
        (server.sessions[1]?).map Session.written) =
      some (some
        [.message ⟨"receiver_1_queue", "m1", sampleMessage "m1"⟩]) := by
    decide +kernel
  obtain ⟨server, reached, seen⟩ := exists_reachableWhile_of_map ran
  obtain ⟨session, found, written⟩ := Option.map_eq_some_iff.mp seen
  have isWritten :
      Line.message ⟨"receiver_1_queue", "m1", sampleMessage "m1"⟩ ∈
        session.written := by
    rw [written]
    exact List.mem_singleton_self _
  obtain ⟨-, consumed, publisher, isPublisher, exchangeName, routingKey,
    published, -⟩ := written_goes_back reached found isWritten
  exact ⟨server, session, reached, found, isWritten, consumed, publisher,
    isPublisher, exchangeName, routingKey, published⟩

end Server

end CipherMQ
