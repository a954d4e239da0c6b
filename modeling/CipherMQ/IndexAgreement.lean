import CipherMQ.PublishEffect

/-!
# Agreement of the message maps

Three maps speak about a message: its status, the set of queues that hold it,
and the queues themselves.  They agree as long as no publish evicts.  An
eviction drops the status of the evicted message but leaves its queue set
behind, and a copy in another queue as well, so it always breaks the agreement
and a run keeps it exactly as long as none of its publishes evicts.
-/

namespace CipherMQ

namespace ServerState

def Queued (state : ServerState) (queueName messageId : String) : Prop :=
  ∃ queue, state.queues queueName = some queue ∧
    messageId ∈ queue.map Prod.fst

def Indexed (state : ServerState) (queueName messageId : String) : Prop :=
  ∃ queueSet, state.messageQueues messageId = some queueSet ∧
    queueName ∈ queueSet

structure IndexAgreement (state : ServerState) : Prop where
  status_iff_index : ∀ messageId,
    (state.messageStatus messageId).isSome ↔
      (state.messageQueues messageId).isSome
  status_iff_queued : ∀ messageId,
    (state.messageStatus messageId).isSome ↔
      ∃ queueName, state.Queued queueName messageId
  indexed_iff_queued : ∀ queueName messageId,
    state.Indexed queueName messageId ↔ state.Queued queueName messageId

/-- The operation is a publish that goes through and takes the front entry off
some target queue. -/
def Evicts (state : ServerState) : Operation → Prop
  | .publish exchangeName routingKey message _ _ _ reply =>
      state.messageStatus message.messageId = none ∧ reply = .ok () ∧
        ∃ queueName, state.Bound exchangeName routingKey queueName ∧
          ∃ queue, state.queues queueName = some queue ∧ queue ≠ [] ∧
            state.maxQueueSize ≤ queue.length
  | _ => False

theorem indexAgreement_new (maxQueueSize : Nat) :
    (new maxQueueSize).IndexAgreement := by
  constructor <;> simp [new, Queued, Indexed]

theorem IndexAgreement.of_same {before after : ServerState}
    (agree : before.IndexAgreement)
    (sameStatus : ∀ messageId, (after.messageStatus messageId).isSome =
      (before.messageStatus messageId).isSome)
    (sameIndex : after.messageQueues = before.messageQueues)
    (sameQueued : ∀ queueName messageId,
      after.Queued queueName messageId ↔ before.Queued queueName messageId) :
    after.IndexAgreement where
  status_iff_index messageId := by
    rw [sameStatus, sameIndex]
    exact agree.status_iff_index messageId
  status_iff_queued messageId := by
    simp only [sameStatus, sameQueued]
    exact agree.status_iff_queued messageId
  indexed_iff_queued queueName messageId := by
    simp only [Indexed, sameIndex, sameQueued]
    exact agree.indexed_iff_queued queueName messageId

theorem queued_declareQueue (state : ServerState)
    (queueName other messageId : String) :
    (state.declareQueue queueName).Queued other messageId ↔
      state.Queued other messageId := by
  by_cases same : other = queueName
  · subst same
    cases found : state.queues other with
    | none => simp [declareQueue, Queued, found]
    | some queue => simp [declareQueue, Queued, found]
  · simp [declareQueue, Queued, same]

/-! ## Acknowledging keeps the agreement -/

theorem IndexAgreement.acknowledge {state : ServerState}
    (agree : state.IndexAgreement) (messageId : String) (now : Nat)
    (ackTime : String) :
    (state.acknowledge messageId now ackTime).IndexAgreement := by
  by_cases tracked : (state.messageStatus messageId).isSome
  · rw [acknowledge_eq state messageId now ackTime tracked]
    obtain ⟨queueSet, indexed⟩ := Option.isSome_iff_exists.mp
      ((agree.status_iff_index messageId).mp tracked)
    -- Every queue that holds the message is in its queue set, so the filter
    -- removes all of its entries and none of any other message.
    have queuedAfter : ∀ queueName other,
        (({ state with
            queues := fun queueName =>
              if queueName ∈ queueSet then
                (state.queues queueName).map fun queue =>
                  queue.filter fun entry => entry.1 ≠ messageId
              else
                state.queues queueName } : ServerState).Queued
          queueName other) ↔
          other ≠ messageId ∧ state.Queued queueName other := by
      intro queueName other
      by_cases member : queueName ∈ queueSet
      · cases found : state.queues queueName with
        | none => simp [Queued, member, found]
        | some queue => simp [Queued, member, found, and_comm]
      · have notQueued : ¬ state.Queued queueName messageId := by
          rw [← agree.indexed_iff_queued]
          rintro ⟨otherSet, otherIndexed, listed⟩
          rw [indexed] at otherIndexed
          cases otherIndexed
          exact member listed
        simp only [Queued, member, if_false]
        constructor
        · intro queued
          refine ⟨?_, queued⟩
          rintro rfl
          exact notQueued queued
        · exact And.right
    simp only [indexed, Option.getD_some]
    constructor
    · intro other
      by_cases same : other = messageId
      · simp [same]
      · simpa [same] using agree.status_iff_index other
    · intro other
      have queued := fun queueName => queuedAfter queueName other
      simp only [Queued] at queued
      simp only [Queued, queued]
      by_cases same : other = messageId
      · simp [same]
      · simpa [same, Queued] using agree.status_iff_queued other
    · intro queueName other
      have queued := queuedAfter queueName other
      simp only [Queued] at queued
      simp only [Queued, queued, Indexed]
      by_cases same : other = messageId
      · simp [same]
      · simpa [same, Indexed, Queued] using
          agree.indexed_iff_queued queueName other
  · rw [acknowledge_untracked state messageId now ackTime
      (by simpa using tracked)]
    exact agree

/-! ## Publishing keeps the agreement exactly when it does not evict -/

theorem evictedFrom_eq_some_iff (state : ServerState)
    (queueName messageId : String) :
    state.evictedFrom queueName = some messageId ↔
      ∃ message rest,
        state.queues queueName = some ((messageId, message) :: rest) ∧
          state.maxQueueSize ≤ rest.length + 1 := by
  unfold evictedFrom
  cases found : state.queues queueName with
  | none => simp
  | some queue =>
      simp only [Option.bind_some, popOldest_fst, Option.some.injEq]
      cases queue with
      | nil => simp
      | cons entry rest =>
          obtain ⟨oldMessageId, message⟩ := entry
          by_cases full : state.maxQueueSize ≤ rest.length + 1
          · simp [full]
          · simp [full]

theorem queued_of_evictedFrom {state : ServerState}
    {queueName messageId : String}
    (evicted : state.evictedFrom queueName = some messageId) :
    state.Queued queueName messageId := by
  obtain ⟨message, rest, found, -⟩ :=
    (evictedFrom_eq_some_iff state queueName messageId).mp evicted
  exact ⟨_, found, by simp⟩

theorem evictedFrom_isSome_iff (state : ServerState) (queueName : String) :
    (∃ messageId, state.evictedFrom queueName = some messageId) ↔
      ∃ queue, state.queues queueName = some queue ∧ queue ≠ [] ∧
        state.maxQueueSize ≤ queue.length := by
  simp only [evictedFrom_eq_some_iff]
  constructor
  · rintro ⟨messageId, message, rest, found, full⟩
    exact ⟨_, found, by simp, by simpa using full⟩
  · rintro ⟨queue, found, nonempty, full⟩
    cases queue with
    | nil => exact (nonempty rfl).elim
    | cons entry rest => exact ⟨entry.1, entry.2, rest, found, full⟩

/-- An evicting publish leaves a queue set without a status behind. -/
theorem not_indexAgreement_of_evicts {state : ServerState}
    (agree : state.IndexAgreement) (message : EncryptedInputData)
    (queueSet targets : List String) (receivedTime : Nat)
    (fresh : state.messageStatus message.messageId = none)
    {queueName old : String} (target : queueName ∈ targets)
    (evicted : state.evictedFrom queueName = some old) :
    ¬ (state.delivered message queueSet receivedTime
      targets).IndexAgreement := by
  have tracked : (state.messageStatus old).isSome :=
    (agree.status_iff_queued old).mpr
      ⟨queueName, queued_of_evictedFrom evicted⟩
  have different : old ≠ message.messageId := by
    rintro rfl
    simp [fresh] at tracked
  have indexed : (state.messageQueues old).isSome :=
    (agree.status_iff_index old).mp tracked
  intro after
  have contradiction := (after.status_iff_index old).mpr
    (by simpa [delivered_messageQueues, different] using indexed)
  have dropped : ∃ other ∈ targets, state.evictedFrom other = some old :=
    ⟨queueName, target, evicted⟩
  simp [delivered_messageStatus, different, dropped] at contradiction

section WithoutEviction

variable {state : ServerState} {targets : List String}
  (keeps : ∀ queueName ∈ targets, ∀ messageId,
    state.evictedFrom queueName ≠ some messageId)

include keeps

theorem queued_delivered_iff
    (present : ∀ queueName ∈ targets, (state.queues queueName).isSome)
    (message : EncryptedInputData) (queueSet : List String)
    (receivedTime : Nat) (queueName messageId : String) :
    (state.delivered message queueSet receivedTime targets).Queued queueName
        messageId ↔
      state.Queued queueName messageId ∨
        (messageId = message.messageId ∧ queueName ∈ targets) := by
  by_cases target : queueName ∈ targets
  · obtain ⟨queue, found⟩ :=
      Option.isSome_iff_exists.mp (present queueName target)
    have roomy : (popOldest state.maxQueueSize queue).2 = queue := by
      rw [popOldest_snd]
      cases queue with
      | nil => simp
      | cons entry rest =>
          rw [if_neg]
          intro full
          exact keeps queueName target entry.1
            ((evictedFrom_eq_some_iff _ _ _).mpr
              ⟨entry.2, rest, found, full⟩)
    simp [Queued, delivered_queues, target, found, appended, roomy,
      exists_or]
  · simp [Queued, delivered_queues, target]

theorem delivered_messageStatus_of_ne {message : EncryptedInputData}
    (queueSet : List String) (receivedTime : Nat) {messageId : String}
    (different : messageId ≠ message.messageId) :
    (state.delivered message queueSet receivedTime targets).messageStatus
        messageId =
      state.messageStatus messageId := by
  have kept : ¬ ∃ queueName ∈ targets,
      state.evictedFrom queueName = some messageId := by
    rintro ⟨queueName, target, evicted⟩
    exact keeps queueName target messageId evicted
  simp [delivered_messageStatus, different, kept]

theorem delivered_messageQueues_of_ne {message : EncryptedInputData}
    (queueSet : List String) (receivedTime : Nat) {messageId : String}
    (different : messageId ≠ message.messageId) :
    (state.delivered message queueSet receivedTime targets).messageQueues
        messageId =
      state.messageQueues messageId := by
  have kept : ∀ queueSet : List String,
      (queueSet.filter fun queueName => ¬ (queueName ∈ targets ∧
        state.evictedFrom queueName = some messageId)) = queueSet := by
    intro queueSet
    rw [List.filter_eq_self]
    intro queueName _
    simp only [decide_eq_true_eq]
    rintro ⟨target, evicted⟩
    exact keeps queueName target messageId evicted
  simp only [delivered_messageQueues, kept, different, if_false,
    Option.map_id']

theorem indexAgreement_of_not_evicts (agree : state.IndexAgreement)
    (message : EncryptedInputData) (queueSet : List String)
    (receivedTime : Nat)
    (members : ∀ queueName, queueName ∈ queueSet ↔ queueName ∈ targets)
    (nonempty : targets ≠ [])
    (present : ∀ queueName ∈ targets, (state.queues queueName).isSome)
    (fresh : state.messageStatus message.messageId = none) :
    (state.delivered message queueSet receivedTime
      targets).IndexAgreement := by
  have queued := queued_delivered_iff keeps present message queueSet
    receivedTime
  have notQueued : ∀ queueName,
      ¬ state.Queued queueName message.messageId := by
    intro queueName queued
    have tracked := (agree.status_iff_queued _).mpr ⟨queueName, queued⟩
    simp [fresh] at tracked
  constructor
  · intro messageId
    by_cases same : messageId = message.messageId
    · simp [delivered_messageQueues, delivered_messageStatus, same]
    · rw [delivered_messageStatus_of_ne keeps _ _ same,
        delivered_messageQueues_of_ne keeps _ _ same]
      exact agree.status_iff_index messageId
  · intro messageId
    simp only [queued]
    by_cases same : messageId = message.messageId
    · obtain ⟨queueName, target⟩ := List.exists_mem_of_ne_nil _ nonempty
      constructor
      · intro _
        exact ⟨queueName, Or.inr ⟨same, target⟩⟩
      · intro _
        simp [delivered_messageStatus, same]
    · rw [delivered_messageStatus_of_ne keeps _ _ same]
      simpa [same] using agree.status_iff_queued messageId
  · intro queueName messageId
    rw [queued]
    by_cases same : messageId = message.messageId
    · simp [Indexed, delivered_messageQueues, members, notQueued, same]
    · simp only [Indexed, delivered_messageQueues_of_ne keeps _ _ same]
      simpa [same, Indexed] using
        agree.indexed_iff_queued queueName messageId

end WithoutEviction

/-- A publish keeps the agreement exactly when it does not evict. -/
theorem indexAgreement_publish_iff {state : ServerState}
    (topology : state.Topology) (agree : state.IndexAgreement)
    (exchangeName routingKey : String) (message : EncryptedInputData)
    (clientId : String) (receivedTime : Nat) (sentTime : String)
    (reply : Except StorageError Unit) :
    (state.publish exchangeName routingKey message clientId receivedTime
        sentTime reply).1.IndexAgreement ↔
      ¬ state.Evicts (.publish exchangeName routingKey message clientId
        receivedTime sentTime reply) := by
  have agreeStored : ∀ storage,
      ({ state with storage := storage } : ServerState).IndexAgreement :=
    fun _ => agree.of_same (fun _ => rfl) rfl fun _ _ => Iff.rfl
  simp only [Evicts, ← evictedFrom_isSome_iff]
  rcases topology.publish_cases exchangeName routingKey message clientId
      receivedTime sentTime reply with
    ⟨error, storage, result, refused⟩ |
    ⟨storage, queueSet, targets, result, -, exist, bound_iff, members,
      fresh, saved, bound⟩
  · rw [result]
    simp only [agreeStored storage, true_iff]
    rintro ⟨fresh, saved, queueName, bound, -⟩
    exact refused ⟨fresh, saved, queueName, bound⟩
  · rw [result]
    simp only [← bound_iff] at members bound ⊢
    constructor
    · rintro after ⟨-, -, queueName, target, old, evicted⟩
      exact not_indexAgreement_of_evicts (agreeStored storage) message
        queueSet targets receivedTime fresh target evicted after
    · intro keeps
      obtain ⟨queueName, target⟩ := bound
      refine indexAgreement_of_not_evicts ?_ (agreeStored storage) message
        queueSet receivedTime members (List.ne_nil_of_mem target) exist fresh
      intro queueName target messageId evicted
      exact keeps ⟨fresh, saved, queueName, target, messageId, evicted⟩

/-! ## Runs -/

/-- One operation keeps the agreement exactly when it does not evict. -/
theorem indexAgreement_apply_iff {state : ServerState}
    (topology : state.Topology) (agree : state.IndexAgreement)
    (operation : Operation) :
    (state.apply operation).IndexAgreement ↔ ¬ state.Evicts operation := by
  cases operation with
  | declareQueue queueName =>
      simp only [Evicts, not_false_eq_true, iff_true]
      exact agree.of_same (fun _ => rfl) rfl
        (queued_declareQueue state queueName)
  | declareExchange exchangeName =>
      simp only [Evicts, not_false_eq_true, iff_true]
      exact agree.of_same (fun _ => rfl) rfl fun _ _ => Iff.rfl
  | bindQueue queueName exchangeName routingKey =>
      simp only [Evicts, not_false_eq_true, iff_true, apply, bindQueue]
      split
      · exact agree.of_same (fun _ => rfl) rfl fun _ _ => Iff.rfl
      · exact agree
  | publish exchangeName routingKey message clientId receivedTime sentTime
      reply =>
      exact indexAgreement_publish_iff topology agree exchangeName routingKey
        message clientId receivedTime sentTime reply
  | registerConsumer queueName sender =>
      simp only [Evicts, not_false_eq_true, iff_true, apply]
      obtain ⟨deliveryTasks, registered⟩ :=
        registerConsumer_frame state queueName sender
      rw [registered]
      exact agree.of_same (fun _ => rfl) rfl
        (queued_declareQueue state queueName)
  | acknowledge messageId now ackTime =>
      simp only [Evicts, not_false_eq_true, iff_true]
      exact agree.acknowledge messageId now ackTime
  | markDelivered messageId now deliveredTime =>
      simp only [Evicts, not_false_eq_true, iff_true, apply]
      obtain ⟨messageStatus, storage, marked, sameStatus⟩ :=
        markDelivered_frame state messageId now deliveredTime
      rw [marked]
      refine agree.of_same ?_ rfl fun _ _ => Iff.rfl
      intro other
      simpa using congrArg Option.isSome (sameStatus other)
  | dropReceiver channel =>
      simp only [Evicts, not_false_eq_true, iff_true]
      exact agree.of_same (fun _ => rfl) rfl fun _ _ => Iff.rfl
  | runDeliveryTask index =>
      simp only [Evicts, not_false_eq_true, iff_true, apply]
      obtain ⟨channels, deliveryTasks, ran⟩ :=
        runDeliveryTask_frame state index
      rw [ran]
      exact agree.of_same (fun _ => rfl) rfl fun _ _ => Iff.rfl

/-- The message maps agree in every state a run visits exactly when no publish
of the run evicts. -/
theorem indexAgreement_run_iff (maxQueueSize : Nat)
    (operations : List Operation) :
    (∀ visited, visited <+: operations →
        (after maxQueueSize visited).IndexAgreement) ↔
      ∀ before operation, before ++ [operation] <+: operations →
        ¬ (after maxQueueSize before).Evicts operation :=
  runFrom_forall_prefix_iff Topology (indexAgreement_new maxQueueSize)
    (topology_new maxQueueSize)
    (fun _ operation topology => topology.apply operation)
    (fun _ operation topology agree =>
      indexAgreement_apply_iff topology agree operation)
    operations

def evictingRun : List Operation :=
  singleQueue ++
    [.publish "e" "k" (sampleMessage "m1") "sender_1" 1 "t1" (.ok ()),
      .publish "e" "k" (sampleMessage "m2") "sender_1" 2 "t2" (.ok ())]

/-- After an eviction the evicted message has a queue set but no status, and
no queue holds it. -/
theorem not_indexAgreement_evictingRun :
    ((after 1 evictingRun).messageQueues "m1").isSome ∧
      (after 1 evictingRun).messageStatus "m1" = none ∧
      ¬ (after 1 evictingRun).IndexAgreement := by
  have indexed : ((after 1 evictingRun).messageQueues "m1").isSome := by
    decide
  have untracked : (after 1 evictingRun).messageStatus "m1" = none := by
    decide
  refine ⟨indexed, untracked, ?_⟩
  intro agree
  have tracked := (agree.status_iff_index "m1").mpr indexed
  simp [untracked] at tracked

end ServerState

end CipherMQ
