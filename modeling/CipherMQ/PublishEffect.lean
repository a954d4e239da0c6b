import CipherMQ.OperationEffects

/-!
# The exact effect of a successful publish

In a broker reached by completed operations, a successful publish appends the
message once to every bound queue, after evicting the front entry of a full
one, leaves the other queues and the topology alone, gives the message a fresh
status and the set of bound queues, and sends one copy to every open
registration.  A publish that is not a duplicate and whose metadata was saved
succeeds exactly when some queue is bound.
-/

namespace CipherMQ

namespace ServerState

structure PublishEffect (before after : ServerState)
    (exchangeName routingKey : String) (message : EncryptedInputData)
    (receivedTime : Nat) : Prop where
  bound_queues : ∀ queueName, before.Bound exchangeName routingKey queueName →
    ∃ queue, before.queues queueName = some queue ∧
      after.queues queueName = some
        ((if before.maxQueueSize ≤ queue.length then queue.tail else queue) ++
          [(message.messageId, message)])
  other_queues : ∀ queueName,
    ¬ before.Bound exchangeName routingKey queueName →
      after.queues queueName = before.queues queueName
  same_bindings : after.bindings = before.bindings
  same_exchanges : after.exchanges = before.exchanges
  fresh_status :
    after.messageStatus message.messageId = some (.sent receivedTime)
  queue_set : ∃ queueSet,
    after.messageQueues message.messageId = some queueSet ∧
      ∀ queueName, queueName ∈ queueSet ↔
        before.Bound exchangeName routingKey queueName
  open_channels : ∀ channel, (before.channels channel).closed = false →
    ∃ copies, after.channels channel =
        { before.channels channel with
          sent := (before.channels channel).sent ++ copies } ∧
      (∀ copy ∈ copies, copy.messageId = message.messageId ∧
        copy.message = message ∧
          before.Bound exchangeName routingKey copy.source) ∧
      ∀ queueName, before.Bound exchangeName routingKey queueName →
        copies.countP (fun copy => copy.source = queueName) =
          ((before.consumers queueName).getD []).count channel
  closed_channels : ∀ channel, (before.channels channel).closed = true →
    after.channels channel = before.channels channel
  bound_consumers : ∀ queueName,
    before.Bound exchangeName routingKey queueName →
      after.consumers queueName = (before.consumers queueName).map
        (List.filter fun sender => !(before.channels sender).closed)
  other_consumers : ∀ queueName,
    ¬ before.Bound exchangeName routingKey queueName →
      after.consumers queueName = before.consumers queueName

theorem mem_copies {state : ServerState} {message : EncryptedInputData}
    {targets : List String} {channel : ChannelId} {copy : Delivery}
    (member : copy ∈ state.copies message targets channel) :
    copy.messageId = message.messageId ∧ copy.message = message ∧
      copy.source ∈ targets := by
  obtain ⟨queueName, target, copied⟩ := List.mem_flatMap.mp member
  obtain ⟨-, rfl⟩ := List.mem_replicate.mp copied
  exact ⟨rfl, rfl, target⟩

/-- The copies sent for one target queue are as many as its registrations. -/
theorem countP_copies (state : ServerState) (message : EncryptedInputData)
    (channel : ChannelId) {targets : List String} (distinct : targets.Nodup)
    {queueName : String} (target : queueName ∈ targets) :
    (state.copies message targets channel).countP
        (fun copy => copy.source = queueName) =
      ((state.consumers queueName).getD []).count channel := by
  induction targets with
  | nil => simp at target
  | cons first rest ih =>
      obtain ⟨fresh, restDistinct⟩ := List.nodup_cons.mp distinct
      have split : state.copies message (first :: rest) channel =
          List.replicate (((state.consumers first).getD []).count channel)
            ⟨first, message.messageId, message⟩ ++
          state.copies message rest channel := by
        simp [copies]
      rw [split, List.countP_append]
      rcases List.mem_cons.mp target with rfl | inRest
      · have noneLater : (state.copies message rest channel).countP
            (fun copy => copy.source = queueName) = 0 := by
          rw [List.countP_eq_zero]
          intro copy member
          have source := (mem_copies member).2.2
          simp only [decide_eq_true_eq]
          rintro rfl
          exact fresh source
        rw [noneLater]
        simp [List.countP_replicate]
      · have different : first ≠ queueName := by
          rintro rfl
          exact fresh inRest
        rw [ih restDistinct inRest]
        simp [List.countP_replicate, different]

theorem publishEffect_delivered (state : ServerState) (storage : Storage)
    (exchangeName routingKey : String) (message : EncryptedInputData)
    (queueSet : List String) (receivedTime : Nat) {targets : List String}
    (distinct : targets.Nodup)
    (exist : ∀ queueName ∈ targets, (state.queues queueName).isSome)
    (bound_iff : ∀ queueName, queueName ∈ targets ↔
      state.Bound exchangeName routingKey queueName)
    (members : ∀ queueName, queueName ∈ queueSet ↔
      state.Bound exchangeName routingKey queueName) :
    PublishEffect state
      (({ state with storage := storage } : ServerState).delivered message
        queueSet receivedTime targets)
      exchangeName routingKey message receivedTime := by
  constructor
  case bound_queues =>
    intro queueName bound
    have target := (bound_iff queueName).mpr bound
    obtain ⟨queue, found⟩ :=
      Option.isSome_iff_exists.mp (exist queueName target)
    refine ⟨queue, found, ?_⟩
    simp [delivered_queues, target, found, appended, popOldest_snd]
  case other_queues =>
    intro queueName unbound
    have other : queueName ∉ targets :=
      fun target => unbound ((bound_iff queueName).mp target)
    simp [delivered_queues, other]
  case same_bindings => rfl
  case same_exchanges => rfl
  case fresh_status => simp [delivered_messageStatus]
  case queue_set =>
    exact ⟨queueSet, by simp [delivered_messageQueues], members⟩
  case open_channels =>
    intro channel isOpen
    refine ⟨state.copies message targets channel, ?_, ?_, ?_⟩
    · rw [delivered_channels]
      simp only [Channel.push, isOpen]
      rfl
    · intro copy member
      obtain ⟨sameId, sameMessage, target⟩ := mem_copies member
      exact ⟨sameId, sameMessage, (bound_iff _).mp target⟩
    · intro queueName bound
      exact countP_copies state message channel distinct
        ((bound_iff queueName).mpr bound)
  case closed_channels =>
    intro channel isClosed
    rw [delivered_channels]
    simp [Channel.push, isClosed]
  case bound_consumers =>
    intro queueName bound
    exact if_pos ((bound_iff queueName).mpr bound)
  case other_consumers =>
    intro queueName unbound
    exact if_neg fun target => unbound ((bound_iff queueName).mp target)

theorem Topology.publishEffect {state : ServerState}
    (topology : state.Topology) {exchangeName routingKey : String}
    {message : EncryptedInputData} {clientId : String} {receivedTime : Nat}
    {sentTime : String} {reply : Except StorageError Unit}
    (succeeded : (state.publish exchangeName routingKey message clientId
      receivedTime sentTime reply).2 = .ok ()) :
    PublishEffect state
      (state.publish exchangeName routingKey message clientId receivedTime
        sentTime reply).1
      exchangeName routingKey message receivedTime := by
  rcases topology.publish_cases exchangeName routingKey message clientId
      receivedTime sentTime reply with
    ⟨error, storage, result, -⟩ |
    ⟨storage, queueSet, targets, result, distinct, exist, bound_iff, members,
      -⟩
  · rw [result] at succeeded
    cases succeeded
  · rw [result]
    exact publishEffect_delivered state storage exchangeName routingKey
      message queueSet receivedTime distinct exist bound_iff members

/-- The effect of a publish in every state reached by completed operations,
and the exact condition under which it succeeds. -/
theorem publish_after (maxQueueSize : Nat) (operations : List Operation)
    (exchangeName routingKey : String) (message : EncryptedInputData)
    (clientId : String) (receivedTime : Nat) (sentTime : String)
    (reply : Except StorageError Unit) :
    (((after maxQueueSize operations).publish exchangeName routingKey message
          clientId receivedTime sentTime reply).2 = .ok () →
        PublishEffect (after maxQueueSize operations)
          ((after maxQueueSize operations).publish exchangeName routingKey
            message clientId receivedTime sentTime reply).1
          exchangeName routingKey message receivedTime) ∧
      ((after maxQueueSize operations).messageStatus message.messageId =
          none → reply = .ok () →
        (((after maxQueueSize operations).publish exchangeName routingKey
            message clientId receivedTime sentTime reply).2 = .ok () ↔
          ∃ queueName, (after maxQueueSize operations).Bound exchangeName
            routingKey queueName)) := by
  have topology := topology_after maxQueueSize operations
  generalize after maxQueueSize operations = state at *
  refine ⟨topology.publishEffect, ?_⟩
  intro fresh saved
  rcases topology.publish_cases exchangeName routingKey message clientId
      receivedTime sentTime reply with
    ⟨error, storage, result, refused⟩ |
    ⟨storage, queueSet, targets, result, -, -, -, -, accepts⟩
  · rw [result]
    constructor
    · intro succeeded
      cases succeeded
    · intro bound
      exact (refused ⟨fresh, saved, bound⟩).elim
  · rw [result]
    exact ⟨fun _ => accepts.2.2, fun _ => rfl⟩

def sampleMessage (messageId : String) : EncryptedInputData where
  messageId := messageId
  receiverClientId := "receiver_1"
  encSessionKey := "key"
  nonce := "nonce"
  ciphertext := "text"

def singleQueue : List Operation :=
  [.declareQueue "q", .declareExchange "e", .bindQueue "q" "e" "k",
    .registerConsumer "q" 0]

theorem publish_after_singleQueue :
    (after 1 singleQueue).Bound "e" "k" "q" ∧
      PublishEffect (after 1 singleQueue)
        ((after 1 singleQueue).publish "e" "k" (sampleMessage "m") "sender_1"
          5 "now" (.ok ())).1 "e" "k" (sampleMessage "m") 5 := by
  have bound : (after 1 singleQueue).Bound "e" "k" "q" :=
    ⟨[("q", "k")], by decide, by simp⟩
  have effect := publish_after 1 singleQueue "e" "k" (sampleMessage "m")
    "sender_1" 5 "now" (.ok ())
  have succeeded := (effect.2 (by decide) rfl).mpr ⟨"q", bound⟩
  exact ⟨bound, effect.1 succeeded⟩

end ServerState

end CipherMQ
