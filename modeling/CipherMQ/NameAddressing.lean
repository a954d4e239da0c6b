import CipherMQ.RoutingIsolation
import CipherMQ.TopologyIntegrity

/-!
# Names across commands

Requests name queues, exchanges and routing keys by plain text, and the
commands cut their arguments differently.  A declaration takes the whole rest
of the line as one name.  A bind and a publish cut it at the first two spaces,
so the routing key of a bind may contain spaces, while its queue and the
routing key of a publish may not.

A queue is therefore within reach of a bind exactly if its name has no space.
A binding is within reach of a publish exactly if its routing key has none and
leaves room for a message: a request is what one read returns.
-/

namespace CipherMQ

open ServerState

/-- Some text that does not end in white space is the JSON form of a message,
or of a batch, and can be read together with the two names. -/
def Codec.Publishable (codec : Codec) (exchangeName routingKey : String) :
    Prop :=
  ∃ text, text ≠ "" ∧ Text.trimEnd text.toList = text.toList ∧
    ((∃ message, codec.parseMessage text = .ok message) ∧
        FitsRead "publish" exchangeName routingKey text ∨
      (∃ message remaining,
          codec.parseBatch text = .ok (message :: remaining)) ∧
        FitsRead "publish_batch" exchangeName routingKey text)

/-- The names in calls that come from cutting at spaces. -/
def Spelled : Invocation → Prop
  | .bindQueue queueName exchangeName _ =>
      ' ' ∉ queueName.toList ∧ ' ' ∉ exchangeName.toList
  | .publish request =>
      ' ' ∉ request.exchangeName.toList ∧ ' ' ∉ request.routingKey.toList
  | _ => True

namespace Client

variable {codec : Codec} {client : Client}

/-- Some bytes that one read can return make the handler of the client start
the call, if the rate limiter lets the request through. -/
def CanCall (codec : Codec) (client : Client) (invocation : Invocation) :
    Prop :=
  ∃ buffer now next, buffer.length ≤ readLimit ∧
    client.handleRequest codec false now (requestOf buffer) =
      .call invocation next

/-- Whatever the command, the names it leads to are spelled so. -/
theorem Calls.spelled {now : Nat} {command : String} {args : List Char}
    {invocation : Invocation} {next : Continuation}
    (calls : Calls codec client now args command invocation next) :
    Spelled invocation := by
  cases calls with
  | bindQueue split owns =>
      obtain ⟨noSpace, noLaterSpace, -⟩ := splitArguments_eq_some_iff.mp split
      exact ⟨noSpace, noLaterSpace⟩
  | publish split parsed =>
      obtain ⟨noSpace, noLaterSpace, -⟩ := splitArguments_eq_some_iff.mp split
      exact ⟨noSpace, noLaterSpace⟩
  | publishBatch split parsed =>
      obtain ⟨noSpace, noLaterSpace, -⟩ := splitArguments_eq_some_iff.mp split
      exact ⟨noSpace, noLaterSpace⟩
  | _ => trivial

theorem CanCall.spelled {invocation : Invocation}
    (canCall : client.CanCall codec invocation) : Spelled invocation := by
  obtain ⟨buffer, now, next, -, isCall⟩ := canCall
  exact (calls_of_handleRequest isCall).2.spelled

theorem CanCall.publishable {request : PublishRequest}
    (canCall : client.CanCall codec (.publish request)) :
    codec.Publishable request.exchangeName request.routingKey := by
  obtain ⟨buffer, now, next, short, isCall⟩ := canCall
  have calls := (calls_of_handleRequest isCall).2
  generalize isRequest : splitRequest (requestOf buffer) = parts at calls
  obtain ⟨command, args⟩ := parts
  cases calls with
  | publish split parsed =>
      obtain ⟨nonempty, ends, fits⟩ :=
        fitsRead_of_splitArguments short isRequest split
      exact ⟨_, nonempty, ends, .inl ⟨⟨_, parsed⟩, fits⟩⟩
  | publishBatch split parsed =>
      obtain ⟨nonempty, ends, fits⟩ :=
        fitsRead_of_splitArguments short isRequest split
      exact ⟨_, nonempty, ends, .inr ⟨⟨_, _, parsed⟩, fits⟩⟩

/-- A queue that can be declared leaves room for a short exchange name in a
bind. -/
theorem CanCall.fitsRead_bind {queueName exchangeName : String}
    (canCall : client.CanCall codec (.declareQueue queueName))
    (short : Utf8.size exchangeName.toList ≤ 6) :
    FitsRead "bind" queueName exchangeName "k" := by
  obtain ⟨buffer, now, next, isShort, isCall⟩ := canCall
  have calls := (calls_of_handleRequest isCall).2
  generalize isRequest : splitRequest (requestOf buffer) = parts at calls
  obtain ⟨command, args⟩ := parts
  cases calls
  have declared : Utf8.size args + 14 ≤ readLimit := by
    by_cases isEmpty : args = []
    · rw [isEmpty]
      decide
    · have whole := splitRequest_of_args (requestOf buffer)
        (by rwa [isRequest])
      have size := size_requestOf_le buffer
      rw [isRequest] at whole
      dsimp only at whole
      rw [whole, Utf8.size_append, Utf8.size_cons,
        show Utf8.size "declare_queue".toList = 13 by decide,
        show (Utf8.shortChar ' ').length = 1 by decide] at size
      omega
  have words : Utf8.size "bind".toList = 4 ∧ Utf8.size " ".toList = 1 ∧
      Utf8.size "k".toList = 1 := by
    decide
  simp only [FitsRead, String.toList_append, Utf8.size_append, words,
    String.toList_ofList]
  omega

/-- A line that can be read reaches the branch of its command. -/
theorem exists_read (command : String) (nonempty : command ≠ "")
    (visible : ∀ character ∈ command.toList,
      Text.isWhitespace character = false)
    (permitted : AclManager.checkCommand client.role command = .allowed)
    {first second third : String} (noSpace : ' ' ∉ first.toList)
    (noLaterSpace : ' ' ∉ second.toList) (thirdNonempty : third ≠ "")
    (thirdEnds : Text.trimEnd third.toList = third.toList)
    (fits : FitsRead command first second third) :
    ∃ buffer args, buffer.length ≤ readLimit ∧
      splitArguments args = some (first, second, third) ∧
      client.handleRequest codec false 0 (requestOf buffer) =
        client.runCommand codec 0 command args := by
  obtain ⟨args, split, handled⟩ := handleRequest_three command nonempty visible
    permitted noSpace noLaterSpace thirdNonempty thirdEnds 0
  exact ⟨_, args, fits, split, by rw [requestOf_encodeShort, handled]⟩

/-- A client that may bind a queue can do so if its name has no space. -/
theorem canCall_bindQueue {queueName exchangeName routingKey : String}
    (owns : AclManager.checkResource client.role client.clientId "queue"
      queueName = .allowed)
    (queueWord : ' ' ∉ queueName.toList)
    (exchangeWord : ' ' ∉ exchangeName.toList) (keyNonempty : routingKey ≠ "")
    (keyEnds : Text.trimEnd routingKey.toList = routingKey.toList)
    (fits : FitsRead "bind" queueName exchangeName routingKey) :
    client.CanCall codec (.bindQueue queueName exchangeName routingKey) := by
  have permitted : AclManager.checkCommand client.role "bind" = .allowed := by
    cases isRole : client.role with
    | admin => rfl
    | receiver => rfl
    | sender => simp [isRole, AclManager.checkResource] at owns
    | unknown => simp [isRole, AclManager.checkResource] at owns
  obtain ⟨buffer, args, short, split, handled⟩ := exists_read "bind"
    (by decide) (Text.visible_of_all (by decide)) permitted queueWord
    exchangeWord keyNonempty keyEnds fits
  refine ⟨buffer, 0, .reply "Queue bound\n", short, handled.trans ?_⟩
  simp [runCommand, split, guardQueue, owns]

/-- A client that may publish can name every exchange and routing key without
spaces that leave room for a message. -/
theorem canCall_publish {exchangeName routingKey : String}
    (publishable : codec.Publishable exchangeName routingKey)
    (permitted : AclManager.checkCommand client.role "publish" = .allowed)
    (exchangeWord : ' ' ∉ exchangeName.toList)
    (keyWord : ' ' ∉ routingKey.toList) :
    ∃ request, client.CanCall codec (.publish request) ∧
      request.exchangeName = exchangeName ∧
      request.routingKey = routingKey := by
  obtain ⟨text, nonempty, ends, ⟨⟨message, parsed⟩, fits⟩ |
    ⟨⟨message, remaining, parsed⟩, fits⟩⟩ := publishable
  · obtain ⟨buffer, args, short, split, handled⟩ := exists_read "publish"
      (by decide) (Text.visible_of_all (by decide)) permitted exchangeWord
      keyWord nonempty ends fits
    refine ⟨client.publishRequest exchangeName routingKey message 0,
      ⟨buffer, 0, .confirmPublish message.messageId, short,
        handled.trans ?_⟩, rfl, rfl⟩
    simp [runCommand, split, parsed]
  · have permittedBatch : AclManager.checkCommand client.role
        "publish_batch" = .allowed := permitted
    obtain ⟨buffer, args, short, split, handled⟩ :=
      exists_read "publish_batch" (by decide)
        (Text.visible_of_all (by decide)) permittedBatch exchangeWord keyWord
        nonempty ends fits
    refine ⟨client.publishRequest exchangeName routingKey message 0,
      ⟨buffer, 0, .confirmBatch ⟨exchangeName, routingKey, message,
        remaining, []⟩, short, handled.trans ?_⟩, rfl, rfl⟩
    simp [runCommand, split, parsed, nextOfBatch]

end Client

namespace Server

def spelled : Rights :=
  fun _ _ invocation =>
    ∀ queueName exchangeName routingKey,
      invocation = .bindQueue queueName exchangeName routingKey →
        ' ' ∉ queueName.toList ∧ ' ' ∉ exchangeName.toList

theorem spelled_publishesAny : spelled.PublishesAny := by
  intro clientId role request other _ queueName exchangeName routingKey isBind
  cases isBind

theorem asksWithin_spelled (config : ServerConfig) (server : Server)
    (event : Event) : AsksWithin spelled config server event := by
  rintro index handlerEvent - session - invocation continuation isCall
    queueName exchangeName routingKey rfl
  unfold requestAction at isCall
  split at isCall
  · split at isCall
    · exact (Client.calls_of_handleRequest (Option.some.inj isCall)).2.spelled
    · cases isCall
  · cases isCall

section Runs

variable {config : ServerConfig} {server : Server}

def BindsWords (server : Server) : Prop :=
  ∀ exchangeName routingKey queueName,
    server.broker.shared.Bound exchangeName routingKey queueName →
      ' ' ∉ queueName.toList ∧ ' ' ∉ exchangeName.toList

theorem bindsWords_of_reachable
    (reached : Reachable (step config) (new config) server) :
    BindsWords server := by
  have both : Owned spelled server ∧ BindsWords server := by
    apply reached.invariant fun server =>
      Owned spelled server ∧ BindsWords server
    · refine ⟨owned_new _ config, ?_⟩
      simp [BindsWords, Bound, new, Broker.new, ServerState.new]
    · rintro before event after ⟨owned, words⟩ - stepTo
      refine ⟨owned.step spelled_publishesAny
        (asksWithin_spelled config before event) stepTo, ?_⟩
      intro exchangeName routingKey queueName bound
      by_cases old :
          before.broker.shared.Bound exchangeName routingKey queueName
      · exact words exchangeName routingKey queueName old
      · obtain ⟨⟨index, session, found, actsFor⟩, hasRight⟩ :=
          right_of_gained owned stepTo bound old
        exact hasRight index session found actsFor queueName exchangeName
          routingKey rfl
  exact both.2

/-- A queue that a client can declare can be bound, by the client itself and
at least to every exchange with a short name, if its name has no space;
otherwise no request of any client can bind it.  A binding that was made can
be published to, by every client that may publish, if its routing key has no
space and leaves room for a message; otherwise no request can. -/
theorem names_addressable_iff_noSpace
    (reached : Reachable (step config) (new config) server) :
    (∀ (client : Client) (queueName : String),
      client.CanCall config.codec (.declareQueue queueName) →
        (' ' ∉ queueName.toList →
          ∀ exchangeName : String, ' ' ∉ exchangeName.toList →
            Utf8.size exchangeName.toList ≤ 6 ∨
              FitsRead "bind" queueName exchangeName "k" →
            ∃ routingKey,
              client.CanCall config.codec
                (.bindQueue queueName exchangeName routingKey) ∧
              ∀ state : ServerState, (state.queues queueName).isSome →
                (state.exchanges exchangeName).isSome →
                  (state.bindQueue queueName exchangeName routingKey).Bound
                    exchangeName routingKey queueName) ∧
        (' ' ∈ queueName.toList →
          ∀ (binder : Client) exchangeName routingKey,
            ¬ binder.CanCall config.codec
              (.bindQueue queueName exchangeName routingKey))) ∧
    ∀ exchangeName routingKey queueName,
      server.broker.shared.Bound exchangeName routingKey queueName →
        (' ' ∉ routingKey.toList →
          config.codec.Publishable exchangeName routingKey →
          ∀ publisher : Client,
            AclManager.checkCommand publisher.role "publish" = .allowed →
              ∃ request,
                publisher.CanCall config.codec (.publish request) ∧
                request.exchangeName = exchangeName ∧
                request.routingKey = routingKey) ∧
        (' ' ∈ routingKey.toList ∨
            ¬ config.codec.Publishable exchangeName routingKey →
          ∀ (publisher : Client) request,
            publisher.CanCall config.codec (.publish request) →
              ¬ (request.exchangeName = exchangeName ∧
                request.routingKey = routingKey)) := by
  constructor
  · intro client queueName canDeclare
    constructor
    · intro queueWord exchangeName exchangeWord room
      have owns : AclManager.checkResource client.role client.clientId
          "queue" queueName = .allowed := by
        obtain ⟨buffer, now, next, -, isCall⟩ := canDeclare
        exact (Client.asks_of_handleRequest isCall).mayInvoke
      have fits := room.elim canDeclare.fitsRead_bind id
      refine ⟨"k", Client.canCall_bindQueue owns queueWord exchangeWord
        (by decide) (by decide) fits, ?_⟩
      intro state queueExists exchangeExists
      exact (bound_bindQueue state ⟨queueName, exchangeName, "k"⟩ _ _ _).mpr
        (.inr ⟨rfl, queueExists, exchangeExists⟩)
    · intro spaced binder exchangeName routingKey canBind
      exact canBind.spelled.1 spaced
  · intro exchangeName routingKey queueName bound
    constructor
    · intro keyWord publishable publisher permitted
      have exchangeWord :=
        (bindsWords_of_reachable reached _ _ _ bound).2
      exact Client.canCall_publish publishable permitted exchangeWord keyWord
    · rintro outOfReach publisher request canPublish ⟨rfl, rfl⟩
      exact outOfReach.elim canPublish.spelled.2 (· canPublish.publishable)

end Runs

/-- `receiver_1` declares a queue with the given name, and binds its queue to
an exchange under a routing key. -/
def namingRun (queueName routingKey : String) : List Event :=
  [.connect "receiver_1" "10.0.0.1" .smooth] ++
  request 0 ("declare_queue " ++ queueName ++ "\n") 0 1 ++
  request 0 "declare_queue receiver_1_queue\n" 1 1 ++
  request 0 "declare_exchange e\n" 2 1 ++
  request 0 ("bind receiver_1_queue e " ++ routingKey ++ "\n") 3 3

def named (queueName : String) (server : Server) :
    Bool × Option (List (String × String)) :=
  ((server.broker.shared.queues queueName).isSome,
    server.broker.shared.bindings "e")

theorem names_addressable_words :
    ∃ server, Reachable (step sampleConfig) (new sampleConfig) server ∧
      (server.broker.shared.queues "receiver_1_a").isSome ∧
      server.broker.shared.Bound "e" "k1" "receiver_1_queue" ∧
      (∃ routingKey,
        (⟨"receiver_1", .receiver, 0⟩ : Client).CanCall sampleCodec
          (.bindQueue "receiver_1_a" "e" routingKey)) ∧
      ∃ request,
        (⟨"sender_1", .sender, 1⟩ : Client).CanCall sampleCodec
          (.publish request) ∧
        request.exchangeName = "e" ∧ request.routingKey = "k1" := by
  have ran : (executeWhile (step sampleConfig) (fun _ _ => True)
      (new sampleConfig) (namingRun "receiver_1_a" "k1")).map
        (named "receiver_1_a") =
      some (true, some [("receiver_1_queue", "k1")]) := by
    decide +kernel
  obtain ⟨server, reached, isNamed⟩ := exists_reachableWhile_of_map ran
  obtain ⟨isDeclared, isBound⟩ := Prod.mk.inj isNamed
  have bound : server.broker.shared.Bound "e" "k1" "receiver_1_queue" :=
    ⟨_, isBound, List.mem_singleton_self _⟩
  have publishable : sampleConfig.codec.Publishable "e" "k1" :=
    ⟨sampleJson, by decide, by decide +kernel,
      .inl ⟨⟨sampleMessage "m1", rfl⟩, by decide +kernel⟩⟩
  have canDeclare : (⟨"receiver_1", .receiver, 0⟩ : Client).CanCall
      sampleConfig.codec (.declareQueue "receiver_1_a") :=
    ⟨Utf8.encode "declare_queue receiver_1_a\n", 0,
      .reply "Queue declared\n", by decide +kernel, by decide +kernel⟩
  obtain ⟨queues, pairs⟩ := names_addressable_iff_noSpace reached
  obtain ⟨routingKey, canBind, -⟩ := (queues _ _ canDeclare).1 (by decide)
    "e" (by decide) (.inl (by decide +kernel))
  exact ⟨server, reached, isDeclared, bound, ⟨routingKey, canBind⟩,
    (pairs "e" "k1" "receiver_1_queue" bound).1 (by decide) publishable _
      (by decide)⟩

/-- A queue and a routing key with a space in their names: the queue exists
and the binding is recorded, but no request binds the queue and no request
publishes under the routing key. -/
theorem not_names_addressable_spaced :
    ∃ server, Reachable (step sampleConfig) (new sampleConfig) server ∧
      (server.broker.shared.queues "receiver_1_my queue").isSome ∧
      server.broker.shared.Bound "e" "k1 k2" "receiver_1_queue" ∧
      (⟨"receiver_1", .receiver, 0⟩ : Client).CanCall sampleCodec
        (.declareQueue "receiver_1_my queue") ∧
      (∀ (codec : Codec) (binder : Client) exchangeName routingKey,
        ¬ binder.CanCall codec
          (.bindQueue "receiver_1_my queue" exchangeName routingKey)) ∧
      ∀ (codec : Codec) (publisher : Client) request,
        publisher.CanCall codec (.publish request) →
          request.routingKey ≠ "k1 k2" := by
  have ran : (executeWhile (step sampleConfig) (fun _ _ => True)
      (new sampleConfig) (namingRun "receiver_1_my queue" "k1 k2")).map
        (named "receiver_1_my queue") =
      some (true, some [("receiver_1_queue", "k1 k2")]) := by
    decide +kernel
  obtain ⟨server, reached, isNamed⟩ := exists_reachableWhile_of_map ran
  obtain ⟨isDeclared, isBound⟩ := Prod.mk.inj isNamed
  refine ⟨server, reached, isDeclared, ⟨_, isBound, List.mem_singleton_self _⟩,
    ⟨Utf8.encode "declare_queue receiver_1_my queue\n", 0,
      .reply "Queue declared\n", by decide +kernel, by decide +kernel⟩,
    ?_, ?_⟩
  · intro codec binder exchangeName routingKey canBind
    exact canBind.spelled.1 (by decide)
  · intro codec publisher request canPublish isKey
    apply canPublish.spelled.2
    rw [isKey]
    decide

end Server

end CipherMQ
