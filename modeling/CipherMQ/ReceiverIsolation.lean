import CipherMQ.CallOwners
import CipherMQ.PublishEffect

/-!
# Which queues a receiver is sent messages from

A message reaches a connection through the connection's channel: from the
backlog that a registration captured, or from a publish that notifies the
consumers of a queue.  Both begin with a registration on the queue.  So a
connection is sent messages of the queues it has registered on and of no
others.  The access control restricts receivers to their own queues when they
declare and bind, but `consume` does not ask it.
-/

namespace CipherMQ

open ServerState

namespace Broker

/-- Every way into a channel starts at a queue that is `permitted` for it: the
messages sent on it, the backlogs on their way, the registrations and the
registrations under way. -/
structure Sourced (permitted : ChannelId → String → Prop)
    (broker : Broker) : Prop where
  sent : ∀ channel, ∀ delivery ∈ (broker.shared.channels channel).sent,
    permitted channel delivery.source
  tasks : ∀ task ∈ broker.shared.deliveryTasks,
    permitted task.channel task.source
  consumers : ∀ queueName sender,
    sender ∈ (broker.shared.consumers queueName).getD [] →
      permitted sender queueName
  calls : ∀ queueName sender point,
    .registerConsumer queueName sender point ∈ broker.calls →
      permitted sender queueName

variable {permitted : ChannelId → String → Prop}

theorem mem_push_sent {channel : Channel} {deliveries : List Delivery}
    {delivery : Delivery} (member : delivery ∈ (channel.push deliveries).sent) :
    delivery ∈ channel.sent ∨ delivery ∈ deliveries := by
  unfold Channel.push at member
  split at member
  · exact Or.inl member
  · exact List.mem_append.mp member

theorem mem_sent_update {channels : ChannelId → Channel}
    {target channel : ChannelId} {sent delivery : Delivery}
    (member : delivery ∈ (Function.update channels target
      ((channels target).push [sent]) channel).sent) :
    delivery ∈ (channels channel).sent ∨
      (channel = target ∧ delivery = sent) := by
  by_cases same : channel = target
  · subst same
    rw [Function.update_self] at member
    rcases mem_push_sent member with old | isNew
    · exact Or.inl old
    · exact Or.inr ⟨rfl, List.mem_singleton.mp isNew⟩
  · rw [Function.update_of_ne same] at member
    exact Or.inl member

theorem sent_dropReceiver (state : ServerState)
    (dropped channel : ChannelId) :
    ((state.dropReceiver dropped).channels channel).sent =
      (state.channels channel).sent := by
  by_cases same : channel = dropped
  · subst same
    simp [ServerState.dropReceiver]
  · simp [ServerState.dropReceiver, same]

/-- Only registered consumers are notified, on behalf of the queue they are
registered on. -/
theorem mem_copies_consumer {state : ServerState}
    {message : EncryptedInputData} {targets : List String}
    {channel : ChannelId} {copy : Delivery}
    (member : copy ∈ state.copies message targets channel) :
    channel ∈ (state.consumers copy.source).getD [] := by
  obtain ⟨queueName, -, copied⟩ := List.mem_flatMap.mp member
  obtain ⟨positive, rfl⟩ := List.mem_replicate.mp copied
  exact List.count_pos_iff.mp (Nat.pos_of_ne_zero positive)

theorem registerConsumer_of_advance {reading : Reading} {state : ServerState}
    {call : Call} {queueName : String} {sender : ChannelId}
    {point : RegisterPoint}
    (advanced : (call.advance reading state).2 =
      .registerConsumer queueName sender point) :
    ∃ before, call = .registerConsumer queueName sender before := by
  cases call with
  | registerConsumer otherQueue otherSender before =>
      cases advanced
      exact ⟨before, rfl⟩
  | declareQueue _ point => cases point <;> cases advanced
  | declareExchange _ point => cases point <;> cases advanced
  | bindQueue => cases advanced
  | publish => cases advanced
  | acknowledge => cases advanced

theorem Sourced.advance {broker : Broker} {index : Nat} {call : Call}
    (sourced : broker.Sourced permitted)
    (found : broker.calls[index]? = some call) (reading : Reading) :
    Sourced permitted ⟨(call.advance reading broker.shared).1,
      broker.calls.set index (call.advance reading broker.shared).2⟩ := by
  have calls : ∀ queueName sender point,
      .registerConsumer queueName sender point ∈
          broker.calls.set index (call.advance reading broker.shared).2 →
        permitted sender queueName := by
    intro queueName sender point member
    rcases List.mem_or_eq_of_mem_set member with old | advanced
    · exact sourced.calls queueName sender point old
    · obtain ⟨before, rfl⟩ := registerConsumer_of_advance advanced.symm
      exact sourced.calls queueName sender before
        (List.mem_of_getElem? found)
  have access := access_advance reading broker.shared call
  generalize (call.advance reading broker.shared).1 = shared at access ⊢
  cases access with
  | notify request queueName remaining =>
      refine ⟨?_, sourced.tasks, ?_, calls⟩
      · intro channel delivery member
        rcases mem_push_sent member with old | copied
        · exact sourced.sent channel delivery old
        · exact sourced.consumers _ channel (mem_copies_consumer copied)
      · intro other sender registered
        apply sourced.consumers other sender
        by_cases isTarget : other ∈ [queueName]
        · cases listed : broker.shared.consumers other with
          | none => simp [notified, listed] at registered
          | some senders =>
              simp only [notified, isTarget, if_true, listed, Option.map_some,
                Option.getD_some] at registered
              exact List.mem_of_mem_filter registered
        · simpa only [notified, isTarget, if_false] using registered
  | addConsumer queueName sender =>
      refine ⟨sourced.sent, sourced.tasks, ?_, calls⟩
      intro other otherSender registered
      by_cases same : other = queueName
      · subst same
        simp only [addConsumer, KeyMap.insert_apply, if_true,
          Option.getD_some, List.mem_append, List.mem_singleton]
          at registered
        rcases registered with old | rfl
        · exact sourced.consumers _ _ old
        · exact sourced.calls _ _ _ (List.mem_of_getElem? found)
      · apply sourced.consumers other otherSender
        simpa [addConsumer, same] using registered
  | spawn queueName sender captured =>
      refine ⟨sourced.sent, ?_, sourced.consumers, calls⟩
      intro task member
      rcases List.mem_append.mp member with old | spawned
      · exact sourced.tasks task old
      · rw [List.mem_singleton] at spawned
        subst spawned
        exact sourced.calls _ _ _ (List.mem_of_getElem? found)
  | _ => exact ⟨sourced.sent, sourced.tasks, sourced.consumers, calls⟩

theorem Sourced.runDeliveryTask {broker : Broker}
    (sourced : broker.Sourced permitted) (index : Nat) :
    Sourced permitted { broker with
      shared := broker.shared.runDeliveryTask index } := by
  rcases runDeliveryTask_cases broker.shared index with
    unchanged | ⟨task, entry, rest, found, -, ran⟩
  · rw [unchanged]
    exact sourced
  · have fromTask := sourced.tasks task (List.mem_of_getElem? found)
    rw [ran]
    refine ⟨?_, ?_, sourced.consumers, sourced.calls⟩
    · intro channel delivery member
      rcases mem_sent_update member with old | ⟨rfl, rfl⟩
      · exact sourced.sent channel delivery old
      · exact fromTask
    · intro other member
      rcases List.mem_or_eq_of_mem_set member with old | rfl
      · exact sourced.tasks other old
      · exact fromTask

theorem Sourced.step {before after : Broker} {event : Event}
    (sourced : before.Sourced permitted)
    (registers : ∀ queueName sender,
      event = .invoke (.registerConsumer queueName sender) →
        permitted sender queueName)
    (stepTo : before.step event = some after) : after.Sourced permitted := by
  rcases step_cases stepTo with
    ⟨invocation, rfl, rfl⟩ | ⟨index, reading, call, -, found, -, rfl⟩ |
    ⟨messageId, reading, -, rfl⟩ | ⟨channel, -, rfl⟩ | ⟨index, -, rfl⟩ |
    ⟨_, _, -, rfl⟩
  · refine ⟨sourced.sent, sourced.tasks, sourced.consumers, ?_⟩
    intro queueName sender point member
    rcases List.mem_append.mp member with old | started
    · exact sourced.calls queueName sender point old
    · rw [List.mem_singleton] at started
      apply registers
      cases invocation <;> cases started
      rfl
  · exact sourced.advance found reading
  · obtain ⟨messageStatus, storage, marked, -⟩ :=
      markDelivered_frame before.shared messageId reading.now reading.time
    rw [marked]
    exact ⟨sourced.sent, sourced.tasks, sourced.consumers, sourced.calls⟩
  · refine ⟨?_, sourced.tasks, sourced.consumers, sourced.calls⟩
    intro other delivery member
    rw [sent_dropReceiver] at member
    exact sourced.sent other delivery member
  · exact sourced.runDeliveryTask index
  · exact ⟨sourced.sent, sourced.tasks, sourced.consumers, sourced.calls⟩

theorem Sourced.mono {broker : Broker}
    {weaker stronger : ChannelId → String → Prop}
    (weaken : ∀ channel queueName, stronger channel queueName →
      weaker channel queueName)
    (sourced : broker.Sourced stronger) : broker.Sourced weaker where
  sent channel delivery member :=
    weaken _ _ (sourced.sent channel delivery member)
  tasks task member := weaken _ _ (sourced.tasks task member)
  consumers queueName sender registered :=
    weaken _ _ (sourced.consumers queueName sender registered)
  calls queueName sender point member :=
    weaken _ _ (sourced.calls queueName sender point member)

theorem Sourced.run {allowed : Invocation → Prop} {before after : Broker}
    (sourced : before.Sourced permitted)
    (registers : ∀ queueName sender,
      allowed (.registerConsumer queueName sender) →
        permitted sender queueName)
    (reached : ReachableWhile Broker.step (Invokes allowed) before after) :
    after.Sourced permitted := by
  apply reached.invariant (Sourced permitted) sourced
  intro current event next sourced invokes stepTo
  apply sourced.step _ stepTo
  intro queueName sender isInvoke
  exact registers queueName sender (invokes _ isInvoke)

end Broker

/-! ## Connections and their queues -/

namespace Server

/-- The access control lets the connection read the queue: receivers read
their own queues, and the queues of other roles are not restricted. -/
def MayRead (session : Session) (queueName : String) : Prop :=
  session.role = .receiver →
    AclManager.checkResource .receiver session.clientId "queue" queueName =
      .allowed

instance (session : Session) (queueName : String) :
    Decidable (MayRead session queueName) :=
  inferInstanceAs (Decidable (_ → _))

def consumedQueue : Action → Option String
  | .call (.registerConsumer queueName _) _ => some queueName
  | _ => none

/-- No receiver consumes from a queue the access control denies it. -/
def ConsumesOwn (config : ServerConfig) (server : Server) : Event → Prop
  | .handler index event =>
      ∀ session ∈ server.sessions[index]?,
        ∀ action ∈ requestAction config index session event,
          ∀ queueName ∈ consumedQueue action, MayRead session queueName
  | _ => True

instance (config : ServerConfig) (server : Server) (event : Event) :
    Decidable (ConsumesOwn config server event) :=
  match event with
  | .handler index event =>
      inferInstanceAs (Decidable (∀ session ∈ server.sessions[index]?,
        ∀ action ∈ requestAction config index session event,
          ∀ queueName ∈ consumedQueue action, MayRead session queueName))
  | .handshakeFailed => instDecidableTrue
  | .connect _ _ _ => instDecidableTrue
  | .advance _ _ => instDecidableTrue
  | .runDeliveryTask _ => instDecidableTrue
  | .shutdown => instDecidableTrue

/-- A channel belongs to a connection that may read the queue. -/
def Permitted (sessions : List Session) (channel : ChannelId)
    (queueName : String) : Prop :=
  ∃ session, sessions[channel]? = some session ∧ MayRead session queueName

/-- Everything on its way to a connection, and everything written to it, is
from queues it may read. -/
structure ReadsOwn (server : Server) : Prop where
  broker : server.broker.Sourced (Permitted server.sessions)
  delivering : ∀ session ∈ server.sessions, ∀ delivery point,
    session.activity = .delivering delivery point →
      MayRead session delivery.source
  written : ∀ session ∈ server.sessions, ∀ delivery,
    .message delivery ∈ session.written → MayRead session delivery.source

theorem Permitted.mono {before after : List Session} {channel : ChannelId}
    {queueName : String}
    (kept : ∀ session : Session, before[channel]? = some session →
      ∃ next : Session, after[channel]? = some next ∧
        next.role = session.role ∧ next.clientId = session.clientId)
    (permitted : Permitted before channel queueName) :
    Permitted after channel queueName := by
  obtain ⟨session, found, mayRead⟩ := permitted
  obtain ⟨next, foundNext, sameRole, sameId⟩ := kept session found
  refine ⟨next, foundNext, ?_⟩
  unfold MayRead
  rwa [sameRole, sameId]

/-- The calls a handler makes register its own connection, on a queue it may
read. -/
theorem permitted_of_calls {config : ServerConfig} {server : Server}
    {index : Nat} {event : HandlerEvent} {session : Session}
    (found : server.sessions[index]? = some session)
    (consumesOwn : ConsumesOwn config server (.handler index event))
    (queueName : String) (sender : ChannelId)
    (calls : Calls config index session event
      (.registerConsumer queueName sender)) :
    Permitted server.sessions sender queueName := by
  rcases calls with ⟨request, isPublish⟩ | ⟨continuation, isCall⟩
  · cases isPublish
  · have mayRead := consumesOwn session found _ isCall queueName rfl
    have isOwn : sender = index :=
      (asks_of_requestAction isCall).isOwn queueName sender rfl
    subst isOwn
    exact ⟨session, found, mayRead⟩

theorem ReadsOwn.sourced {config : ServerConfig} {before after : Server}
    {event : Event} (reads : ReadsOwn before)
    (consumesOwn : ConsumesOwn config before event)
    (stepTo : before.step config event = some after) :
    after.broker.Sourced (Permitted after.sessions) := by
  rcases step_cases stepTo with ⟨session, connected⟩ |
    ⟨index, handlerEvent, session, next, rfl, found, handled⟩ |
    ⟨sessions, -, broker⟩
  · have sourced := reads.broker.run (fun _ _ never => never.elim)
      connected.broker
    apply sourced.mono
    intro channel queueName permitted
    apply permitted.mono
    intro other otherFound
    rw [connected.sessions]
    exact ⟨other, getElem?_append_kept otherFound _, rfl, rfl⟩
  · have sourced := reads.broker.run (permitted_of_calls found consumesOwn)
      handled.broker
    apply sourced.mono
    intro channel queueName permitted
    apply permitted.mono
    intro other otherFound
    rw [handled.sessions]
    by_cases same : channel = index
    · subst same
      rw [found] at otherFound
      cases otherFound
      exact ⟨next, getElem?_set_moved found next, handled.role,
        handled.clientId⟩
    · exact ⟨other,
        (List.getElem?_set_ne (Ne.symm same)).trans otherFound, rfl, rfl⟩
  · rw [sessions]
    exact reads.broker.run (fun _ _ never => never.elim) broker

theorem ReadsOwn.step {config : ServerConfig} {before after : Server}
    {event : Event} (reads : ReadsOwn before)
    (consumesOwn : ConsumesOwn config before event)
    (stepTo : before.step config event = some after) : ReadsOwn after := by
  have conveys : Conveys
      (fun session delivery => MayRead session delivery.source)
      before.sessions :=
    ⟨reads.delivering, reads.written⟩
  have stays : ∀ session next : Session, next.role = session.role →
      next.clientId = session.clientId → ∀ delivery : Delivery,
        MayRead session delivery.source → MayRead next delivery.source := by
    intro session next sameRole sameId delivery mayRead
    unfold MayRead
    rwa [sameRole, sameId]
  have sent : ∀ index session, before.sessions[index]? = some session →
      ∀ delivery ∈ (before.broker.shared.channels index).sent,
        MayRead session delivery.source := by
    intro index session found delivery fromChannel
    obtain ⟨owner, ownerFound, mayRead⟩ :=
      reads.broker.sent index delivery fromChannel
    rw [found] at ownerFound
    cases ownerFound
    exact mayRead
  obtain ⟨delivering, written⟩ := conveys.step stays sent stepTo
  exact ⟨reads.sourced consumesOwn stepTo, delivering, written⟩

/-- In every run in which receivers consume from their own queues only, every
message written to a receiver was taken from a queue of its own. -/
theorem own_queue_of_written {config : ServerConfig} {server : Server}
    (reached : ReachableWhile (step config) (ConsumesOwn config)
      (new config) server)
    {index : Nat} {session : Session}
    (found : server.sessions[index]? = some session)
    (isReceiver : session.role = .receiver) {delivery : Delivery}
    (isWritten : .message delivery ∈ session.written) :
    AclManager.checkResource .receiver session.clientId "queue"
      delivery.source = .allowed := by
  have started : ReadsOwn (new config) := by
    refine ⟨⟨?_, ?_, ?_, ?_⟩, ?_, ?_⟩ <;>
      simp [new, Broker.new, ServerState.new]
  have reads := reached.invariant ReadsOwn started
    fun before event after reads consumesOwn stepTo =>
      reads.step consumesOwn stepTo
  exact reads.written session (List.mem_of_getElem? found) delivery isWritten
    isReceiver

def sampleJson : String :=
  "\x7b\"message_id\":\"m1\",\"receiver_client_id\":\"receiver_1\"," ++
    "\"enc_session_key\":\"key\",\"nonce\":\"nonce\"," ++
    "\"ciphertext\":\"text\"\x7d"

def sampleCodec : Codec where
  parseMessage text :=
    if text = sampleJson then .ok (sampleMessage "m1")
    else .error "expected value at line 1 column 1"
  parseBatch _ := .error "expected value at line 1 column 1"
  print _ := sampleJson

def sampleConfig : ServerConfig where
  acl := ⟨["sender_1"], ["receiver_1", "receiver_2"], []⟩
  limits := ⟨0, 0⟩
  maxQueueSize := 10
  codec := sampleCodec

/-- A request whose call on the broker takes `count` accesses. -/
def request (index : Nat) (text : String) (call count : Nat) : List Event :=
  [.handler index (.read (some (Utf8.encode text)) .smooth)] ++
    List.replicate count (.advance call ⟨.ok (), 1, "t"⟩) ++
    [.handler index (.resume .smooth)]

/-- `receiver_1` sets up its queue, a receiver with the given name consumes
from it, and `sender_1` publishes a message, which the consumer is sent. -/
def consumingRun (receiver : String) : List Event :=
  [.connect "receiver_1" "10.0.0.1" .smooth,
    .connect receiver "10.0.0.2" .smooth,
    .connect "sender_1" "10.0.0.3" .smooth] ++
  request 0 "declare_queue receiver_1_queue\n" 0 1 ++
  request 0 "declare_exchange e\n" 1 1 ++
  request 0 "bind receiver_1_queue e receiver_1_key\n" 2 3 ++
  request 1 "consume receiver_1_queue\n" 3 3 ++
  request 2 ("publish e receiver_1_key " ++ sampleJson ++ "\n") 4 8 ++
  [.handler 1 .receive, .handler 1 (.deliver .smooth),
    .handler 1 (.deliver .smooth), .handler 1 (.deliver .smooth)]

/-- A second connection of `receiver_1` may be sent what is in its queue. -/
theorem own_queue_of_written_receiver :
    ∃ server session,
      ReachableWhile (step sampleConfig) (ConsumesOwn sampleConfig)
        (new sampleConfig) server ∧
      server.sessions[1]? = some session ∧
      session.clientId = "receiver_1" ∧ session.role = .receiver ∧
      .message ⟨"receiver_1_queue", "m1", sampleMessage "m1"⟩ ∈
        session.written ∧
      AclManager.checkResource .receiver session.clientId "queue"
        "receiver_1_queue" = .allowed := by
  have ran : ((executeWhile (step sampleConfig) (ConsumesOwn sampleConfig)
      (new sampleConfig) (consumingRun "receiver_1")).bind
        fun server => server.sessions[1]?).map (fun session =>
          (session.clientId, session.role, session.written)) =
      some ("receiver_1", .receiver,
        [.message ⟨"receiver_1_queue", "m1", sampleMessage "m1"⟩]) := by
    decide +kernel
  obtain ⟨session, found, data⟩ := Option.map_eq_some_iff.mp ran
  obtain ⟨server, executed, atOne⟩ := Option.bind_eq_some_iff.mp found
  simp only [Prod.mk.injEq] at data
  obtain ⟨isFirst, isReceiver, written⟩ := data
  have reached := reachableWhile_of_executeWhile executed
  have isWritten :
      Line.message ⟨"receiver_1_queue", "m1", sampleMessage "m1"⟩ ∈
        session.written := by
    rw [written]
    exact List.mem_singleton_self _
  have isOwn := own_queue_of_written reached atOne isReceiver isWritten
  exact ⟨server, session, reached, atOne, isFirst, isReceiver, isWritten,
    isOwn⟩

/-- A receiver that consumes from another receiver's queue is sent the other
receiver's messages. -/
theorem foreign_queue_written :
    ∃ server session,
      Reachable (step sampleConfig) (new sampleConfig) server ∧
      server.sessions[1]? = some session ∧
      session.clientId = "receiver_2" ∧ session.role = .receiver ∧
      .message ⟨"receiver_1_queue", "m1", sampleMessage "m1"⟩ ∈
        session.written ∧
      AclManager.checkResource .receiver "receiver_2" "queue"
        "receiver_1_queue" =
          .denied "resource access denied for this role" := by
  have ran : ((executeWhile (step sampleConfig) (fun _ _ => True)
      (new sampleConfig) (consumingRun "receiver_2")).bind
        fun server => server.sessions[1]?).map (fun session =>
          (session.clientId, session.role, session.written)) =
      some ("receiver_2", .receiver,
        [.message ⟨"receiver_1_queue", "m1", sampleMessage "m1"⟩]) := by
    decide +kernel
  obtain ⟨session, found, data⟩ := Option.map_eq_some_iff.mp ran
  obtain ⟨server, executed, atOne⟩ := Option.bind_eq_some_iff.mp found
  simp only [Prod.mk.injEq] at data
  obtain ⟨isSecond, isReceiver, written⟩ := data
  refine ⟨server, session, reachableWhile_of_executeWhile executed, atOne,
    isSecond, isReceiver, ?_, by decide⟩
  rw [written]
  exact List.mem_singleton_self _

end Server

end CipherMQ
