import CipherMQ.EnqueueLoop
import CipherMQ.NotifyLoop
import CipherMQ.Topology

/-!
# Effects of the broker operations

One statement for each operation says everything it can do to the shared
state.  A publish has two outcomes, an acknowledgement two, and the remaining
operations change a single map each.  The topology of the broker follows for
every state reached by completed operations.
-/

namespace CipherMQ

namespace ServerState

/-! ## The whole publish -/

/-- The state a publish to `targets` leaves behind: the message appended to
all of them, recorded, and handed to their consumers. -/
def delivered (state : ServerState) (message : EncryptedInputData)
    (queueSet : List String) (receivedTime : Nat) (targets : List String) :
    ServerState :=
  ((state.enqueued message targets).track message queueSet
    receivedTime).notified message targets

section Delivered

variable (state : ServerState) (message : EncryptedInputData)
  (queueSet : List String) (receivedTime : Nat) (targets : List String)

theorem delivered_queues (queueName : String) :
    (state.delivered message queueSet receivedTime targets).queues queueName =
      if queueName ∈ targets then
        (state.queues queueName).map (appended state.maxQueueSize message)
      else
        state.queues queueName :=
  rfl

theorem delivered_messageQueues (messageId : String) :
    (state.delivered message queueSet receivedTime targets).messageQueues
        messageId =
      if messageId = message.messageId then
        some queueSet
      else
        (state.messageQueues messageId).map fun queueSet =>
          queueSet.filter fun queueName =>
            ¬ (queueName ∈ targets ∧
              state.evictedFrom queueName = some messageId) :=
  rfl

theorem delivered_messageStatus (messageId : String) :
    (state.delivered message queueSet receivedTime targets).messageStatus
        messageId =
      if messageId = message.messageId then
        some (.sent receivedTime)
      else if ∃ queueName ∈ targets,
          state.evictedFrom queueName = some messageId then
        none
      else
        state.messageStatus messageId :=
  rfl

theorem delivered_channels (channel : ChannelId) :
    (state.delivered message queueSet receivedTime targets).channels channel =
      (state.channels channel).push (state.copies message targets channel) :=
  rfl

end Delivered

/-- A publish to distinct existing queues delivers to them, with a queue set
of exactly these queues. -/
theorem deliverTo_eq (state : ServerState) (message : EncryptedInputData)
    (receivedTime : Nat) (targets : List String) (distinct : targets.Nodup)
    (present : ∀ queueName ∈ targets, (state.queues queueName).isSome) :
    ∃ queueSet, (∀ queueName, queueName ∈ queueSet ↔ queueName ∈ targets) ∧
      state.deliverTo message receivedTime targets =
        state.delivered message queueSet receivedTime targets := by
  obtain ⟨stateEq, members⟩ :=
    enqueueAll_spec message state [] targets distinct present
  refine ⟨(enqueueAll message state [] targets).2, ?_, ?_⟩
  · simpa using members
  · simp only [deliverTo, delivered]
    rw [foldl_notifyConsumers message _ targets distinct, stateEq]

theorem saveMetadata_ok_iff (storage : Storage) (metadata : MessageMetadata)
    (reply : Except StorageError Unit) :
    (storage.saveMetadata metadata reply).2 = .ok () ↔ reply = .ok () :=
  storage.request_ok_iff _ _ reply ()

/-- The three checks a publish has to pass before it delivers. -/
def Accepts (state : ServerState) (exchangeName routingKey : String)
    (message : EncryptedInputData) (reply : Except StorageError Unit) :
    Prop :=
  state.messageStatus message.messageId = none ∧ reply = .ok () ∧
    ∃ queueName, state.Bound exchangeName routingKey queueName

theorem targetQueues_ne_nil_iff (state : ServerState)
    (exchangeName routingKey : String) :
    state.targetQueues exchangeName routingKey ≠ [] ↔
      ∃ queueName, state.Bound exchangeName routingKey queueName := by
  simp only [← mem_targetQueues]
  constructor
  · exact List.exists_mem_of_ne_nil _
  · rintro ⟨queueName, target⟩
    exact List.ne_nil_of_mem target

/-- A publish either fails and changes nothing but what storage was told, or
it passes its checks and goes on to its target queues. -/
theorem publish_cases (state : ServerState) (exchangeName routingKey : String)
    (message : EncryptedInputData) (clientId : String) (receivedTime : Nat)
    (sentTime : String) (reply : Except StorageError Unit) :
    (∃ error storage,
      state.publish exchangeName routingKey message clientId receivedTime
          sentTime reply =
        ({ state with storage := storage }, .error error) ∧
      ¬ state.Accepts exchangeName routingKey message reply) ∨
    (∃ storage,
      state.publish exchangeName routingKey message clientId receivedTime
          sentTime reply =
        (({ state with storage := storage } : ServerState).deliverTo message
          receivedTime (state.targetQueues exchangeName routingKey), .ok ()) ∧
      state.Accepts exchangeName routingKey message reply) := by
  have bound_iff := targetQueues_ne_nil_iff state exchangeName routingKey
  unfold publish
  by_cases duplicate : state.messageStatus.containsKey message.messageId
  · left
    refine ⟨_, state.storage, by rw [if_pos duplicate], ?_⟩
    rintro ⟨fresh, -⟩
    simp [fresh] at duplicate
  · have fresh : state.messageStatus message.messageId = none := by
      simpa using duplicate
    rw [if_neg duplicate]
    dsimp only
    have replied := saveMetadata_ok_iff state.storage
      (publishMetadata exchangeName routingKey message clientId sentTime) reply
    cases saved : (state.storage.saveMetadata
      (publishMetadata exchangeName routingKey message clientId sentTime)
        reply).2 with
    | error error =>
        left
        refine ⟨_, _, rfl, ?_⟩
        rintro ⟨-, succeeded, -⟩
        have := replied.mpr succeeded
        rw [saved] at this
        cases this
    | ok value =>
        cases value
        have succeeded := replied.mp saved
        by_cases unbound : state.targetQueues exchangeName routingKey = []
        · left
          exact ⟨_, _, if_pos (List.isEmpty_iff.mpr unbound),
            fun ⟨_, _, bound⟩ => bound_iff.mpr bound unbound⟩
        · right
          exact ⟨_,
            if_neg (fun empty => unbound (List.isEmpty_iff.mp empty)),
            fresh, succeeded, bound_iff.mp unbound⟩

/-- In a broker with a well-formed topology a publish that passes its checks
delivers to exactly the bound queues. -/
theorem Topology.publish_cases {state : ServerState}
    (topology : state.Topology) (exchangeName routingKey : String)
    (message : EncryptedInputData) (clientId : String) (receivedTime : Nat)
    (sentTime : String) (reply : Except StorageError Unit) :
    (∃ error storage,
      state.publish exchangeName routingKey message clientId receivedTime
          sentTime reply =
        ({ state with storage := storage }, .error error) ∧
      ¬ state.Accepts exchangeName routingKey message reply) ∨
    (∃ storage queueSet targets,
      state.publish exchangeName routingKey message clientId receivedTime
          sentTime reply =
        (({ state with storage := storage } : ServerState).delivered message
          queueSet receivedTime targets, .ok ()) ∧
      targets.Nodup ∧
      (∀ queueName ∈ targets, (state.queues queueName).isSome) ∧
      (∀ queueName, queueName ∈ targets ↔
        state.Bound exchangeName routingKey queueName) ∧
      (∀ queueName, queueName ∈ queueSet ↔
        state.Bound exchangeName routingKey queueName) ∧
      state.Accepts exchangeName routingKey message reply) := by
  rcases ServerState.publish_cases state exchangeName routingKey message
      clientId receivedTime sentTime reply with
    failed | ⟨storage, result, accepts⟩
  · exact Or.inl failed
  · right
    have distinct := topology.targetQueues_nodup exchangeName routingKey
    have exist := topology.targetQueues_exist exchangeName routingKey
    have bound_iff := mem_targetQueues state exchangeName routingKey
    obtain ⟨queueSet, members, delivers⟩ := deliverTo_eq
      ({ state with storage := storage } : ServerState) message receivedTime
      (state.targetQueues exchangeName routingKey) distinct exist
    refine ⟨storage, queueSet, _, ?_, distinct, exist, bound_iff, ?_, accepts⟩
    · rw [result, delivers]
    · intro queueName
      rw [members, bound_iff]

/-! ## Reachable states -/

theorem Topology.publish {state : ServerState} (topology : state.Topology)
    (exchangeName routingKey : String) (message : EncryptedInputData)
    (clientId : String) (receivedTime : Nat) (sentTime : String)
    (reply : Except StorageError Unit) :
    (state.publish exchangeName routingKey message clientId receivedTime
      sentTime reply).1.Topology := by
  rcases topology.publish_cases exchangeName routingKey message clientId
      receivedTime sentTime reply with
    ⟨error, storage, result, -⟩ | ⟨storage, queueSet, targets, result, -⟩
  · rw [result]
    exact topology.of_queues_kept rfl fun _ present => present
  · rw [result]
    have sameBindings : (({ state with storage := storage } :
        ServerState).delivered message queueSet receivedTime
          targets).bindings = state.bindings := rfl
    refine topology.of_queues_kept sameBindings ?_
    intro queueName present
    rw [delivered_queues]
    split
    · simpa using present
    · exact present

theorem foldl_removeFromQueue (messageId : String) (state : ServerState)
    (queueSet : List String) :
    queueSet.foldl (removeFromQueue messageId) state =
      { state with
        queues := fun queueName =>
          if queueName ∈ queueSet then
            (state.queues queueName).map fun queue =>
              queue.filter fun entry => entry.1 ≠ messageId
          else
            state.queues queueName } := by
  induction queueSet generalizing state with
  | nil => simp
  | cons first rest ih =>
      rw [List.foldl_cons, ih]
      simp only [removeFromQueue]
      congr 1
      funext queueName
      by_cases isFirst : queueName = first
      · by_cases inRest : queueName ∈ rest
        · simp [isFirst, isFirst ▸ inRest, Option.map_map, Function.comp_def,
            List.filter_filter]
        · simp [isFirst, isFirst ▸ inRest]
      · simp [isFirst]

theorem acknowledge_eq (state : ServerState) (messageId : String)
    (now : Nat) (ackTime : String)
    (tracked : (state.messageStatus messageId).isSome) :
    state.acknowledge messageId now ackTime =
      { state with
        storage :=
          state.storage.updateAcknowledgedTimeAsync messageId ackTime
        queues := fun queueName =>
          if queueName ∈ (state.messageQueues messageId).getD [] then
            (state.queues queueName).map fun queue =>
              queue.filter fun entry => entry.1 ≠ messageId
          else
            state.queues queueName
        messageQueues := state.messageQueues.remove messageId
        messageStatus := state.messageStatus.remove messageId } := by
  unfold acknowledge
  rw [if_pos (by simpa using tracked)]
  simp only [foldl_removeFromQueue]
  apply ServerState.ext
  case messageStatus =>
    funext other
    by_cases same : other = messageId
    · simp [forget, same]
    · simp [forget, markAcknowledged, same]
  all_goals rfl

theorem acknowledge_untracked (state : ServerState) (messageId : String)
    (now : Nat) (ackTime : String)
    (untracked : state.messageStatus messageId = none) :
    state.acknowledge messageId now ackTime = state := by
  unfold acknowledge
  rw [if_neg (by simp [untracked])]

/-- A delivery task that runs puts the front of its backlog on its channel,
and gives up on a closed one. -/
theorem runDeliveryTask_cases (state : ServerState) (index : Nat) :
    state.runDeliveryTask index = state ∨
    ∃ task entry rest, state.deliveryTasks[index]? = some task ∧
      task.remaining = entry :: rest ∧
      state.runDeliveryTask index =
        { state with
          channels := Function.update state.channels task.channel
            ((state.channels task.channel).push
              [⟨task.source, entry.1, entry.2⟩])
          deliveryTasks := state.deliveryTasks.set index
            { task with
              remaining :=
                if (state.channels task.channel).closed then [] else rest }
          } := by
  unfold runDeliveryTask
  split
  · rename_i channel source messageId message rest found
    right
    refine ⟨_, _, _, found, rfl, ?_⟩
    by_cases closed : (state.channels channel).closed
    · simp [send, closed, Channel.push]
    · simp [send, closed, Channel.push]
  · exact Or.inl rfl

theorem runDeliveryTask_frame (state : ServerState) (index : Nat) :
    ∃ channels deliveryTasks,
      state.runDeliveryTask index =
        { state with
          channels := channels
          deliveryTasks := deliveryTasks } := by
  rcases runDeliveryTask_cases state index with
    same | ⟨task, entry, rest, -, -, ran⟩
  · exact ⟨state.channels, state.deliveryTasks, same⟩
  · exact ⟨_, _, ran⟩

/-- Marking a delivery changes no status but in its delivery time. -/
theorem markDelivered_frame (state : ServerState) (messageId : String)
    (now : Nat) (deliveredTime : String) :
    ∃ messageStatus storage,
      state.markDelivered messageId now deliveredTime =
        { state with
          messageStatus := messageStatus
          storage := storage } ∧
      ∀ other, (messageStatus other).map MessageStatus.canDeliver =
        (state.messageStatus other).map MessageStatus.canDeliver := by
  unfold markDelivered
  split
  · rename_i status tracked
    split
    · refine ⟨_, _, rfl, ?_⟩
      intro other
      by_cases same : other = messageId
      · simp [same, tracked]
      · simp [same]
    · exact ⟨state.messageStatus, state.storage, rfl, fun _ => rfl⟩
  · exact ⟨state.messageStatus, state.storage, rfl, fun _ => rfl⟩

theorem registerConsumer_frame (state : ServerState) (queueName : String)
    (sender : ChannelId) :
    ∃ deliveryTasks,
      state.registerConsumer queueName sender =
        { state.declareQueue queueName with
          consumers := state.consumers.insert queueName
            ((state.consumers queueName).getD [] ++ [sender])
          deliveryTasks := deliveryTasks } := by
  unfold registerConsumer
  dsimp only
  split
  · split
    · exact ⟨_, rfl⟩
    · exact ⟨state.deliveryTasks, rfl⟩
  · exact ⟨state.deliveryTasks, rfl⟩

theorem Topology.apply {state : ServerState} (topology : state.Topology)
    (operation : Operation) : (state.apply operation).Topology := by
  cases operation with
  | declareQueue queueName => exact topology.declareQueue queueName
  | declareExchange exchangeName =>
      exact topology.of_queues_kept rfl fun _ present => present
  | bindQueue queueName exchangeName routingKey =>
      exact topology.bindQueue queueName exchangeName routingKey
  | publish exchangeName routingKey message clientId receivedTime sentTime
      reply =>
      exact topology.publish exchangeName routingKey message clientId
        receivedTime sentTime reply
  | registerConsumer queueName sender =>
      obtain ⟨deliveryTasks, registered⟩ :=
        registerConsumer_frame state queueName sender
      simp only [ServerState.apply, registered]
      exact (topology.declareQueue queueName).of_queues_kept rfl
        fun _ present => present
  | acknowledge messageId now ackTime =>
      by_cases tracked : (state.messageStatus messageId).isSome
      · simp only [ServerState.apply,
          acknowledge_eq state messageId now ackTime tracked]
        refine topology.of_queues_kept rfl ?_
        intro queueName present
        dsimp only
        split
        · simpa using present
        · exact present
      · simp only [ServerState.apply]
        rw [acknowledge_untracked state messageId now ackTime
          (by simpa using tracked)]
        exact topology
  | markDelivered messageId now deliveredTime =>
      obtain ⟨messageStatus, storage, marked, -⟩ :=
        markDelivered_frame state messageId now deliveredTime
      simp only [ServerState.apply, marked]
      exact topology.of_queues_kept rfl fun _ present => present
  | dropReceiver channel =>
      exact topology.of_queues_kept rfl fun _ present => present
  | runDeliveryTask index =>
      obtain ⟨channels, deliveryTasks, ran⟩ :=
        runDeliveryTask_frame state index
      simp only [ServerState.apply, ran]
      exact topology.of_queues_kept rfl fun _ present => present

/-- Every state reached by completed operations is well formed. -/
theorem topology_after (maxQueueSize : Nat) (operations : List Operation) :
    (after maxQueueSize operations).Topology :=
  runFrom_invariant Topology (topology_new maxQueueSize)
    (fun _ operation topology => topology.apply operation) operations

end ServerState

end CipherMQ
