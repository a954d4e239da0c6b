import CipherMQ.ServerState

/-!
# The enqueue loop of a publish

The loop touches every target queue once: it makes room in a full queue,
appends the message, and drops the bookkeeping of the message it evicted.
This file gives the loop a closed form, valid when the target queues are
distinct and all exist.
-/

namespace CipherMQ

namespace ServerState

def evictedFrom (state : ServerState) (queueName : String) : Option String :=
  (state.queues queueName).bind fun queue =>
    (popOldest state.maxQueueSize queue).1

def appended (maxQueueSize : Nat) (message : EncryptedInputData)
    (queue : List QueueEntry) : List QueueEntry :=
  (popOldest maxQueueSize queue).2 ++ [(message.messageId, message)]

def enqueued (state : ServerState) (message : EncryptedInputData)
    (targets : List String) : ServerState :=
  { state with
    queues := fun queueName =>
      if queueName ∈ targets then
        (state.queues queueName).map (appended state.maxQueueSize message)
      else
        state.queues queueName
    messageQueues := fun messageId =>
      (state.messageQueues messageId).map fun queueSet =>
        queueSet.filter fun queueName =>
          ¬ (queueName ∈ targets ∧
            state.evictedFrom queueName = some messageId)
    messageStatus := fun messageId =>
      if ∃ queueName ∈ targets,
          state.evictedFrom queueName = some messageId then
        none
      else
        state.messageStatus messageId }

theorem popOldest_snd (maxQueueSize : Nat) (queue : List QueueEntry) :
    (popOldest maxQueueSize queue).2 =
      if maxQueueSize ≤ queue.length then queue.tail else queue := by
  unfold popOldest
  split
  · cases queue <;> rfl
  · rfl

theorem popOldest_fst (maxQueueSize : Nat) (queue : List QueueEntry) :
    (popOldest maxQueueSize queue).1 =
      if maxQueueSize ≤ queue.length then queue.head?.map Prod.fst
      else none := by
  unfold popOldest
  split
  · cases queue <;> rfl
  · rfl

@[simp]
theorem evict_queues (state : ServerState) (queueName : String)
    (old : Option String) :
    (state.evict queueName old).queues = state.queues := by
  cases old <;> rfl

theorem evict_messageQueues (state : ServerState) (queueName : String)
    (old : Option String) (messageId : String) :
    (state.evict queueName old).messageQueues messageId =
      (state.messageQueues messageId).map fun queueSet =>
        queueSet.filter fun other =>
          ¬ (other = queueName ∧ old = some messageId) := by
  cases old with
  | none => simp [evict, Option.map_id']
  | some oldMessageId =>
      by_cases same : messageId = oldMessageId
      · simp [evict, evictStatus, evictFromIndex, same]
      · simp [evict, evictStatus, evictFromIndex, same, Ne.symm same,
          Option.map_id']

theorem evict_messageStatus (state : ServerState) (queueName : String)
    (old : Option String) (messageId : String) :
    (state.evict queueName old).messageStatus messageId =
      if old = some messageId then none
      else state.messageStatus messageId := by
  cases old with
  | none => simp [evict]
  | some oldMessageId =>
      simp [evict, evictStatus, evictFromIndex, eq_comm]

/-- One round of the enqueue loop is the closed form for a single target. -/
theorem enqueue_eq (message : EncryptedInputData) (state : ServerState)
    (queueSet : List String) {queueName : String}
    (present : (state.queues queueName).isSome) :
    enqueue message state queueSet queueName =
      (state.enqueued message [queueName], queueSet.insert queueName) := by
  obtain ⟨queue, found⟩ := Option.isSome_iff_exists.mp present
  have evicts : state.evictedFrom queueName =
      (popOldest state.maxQueueSize queue).1 := by
    simp [evictedFrom, found]
  simp only [enqueue, found, Prod.mk.injEq, and_true]
  rw [← evicts]
  apply ServerState.ext
  case queues =>
    funext other
    by_cases same : other = queueName
    · simp [enqueued, appended, same, found]
    · simp [enqueued, same]
  case messageQueues =>
    funext messageId
    change (state.evict queueName _).messageQueues messageId = _
    rw [evict_messageQueues]
    simp only [enqueued, List.mem_singleton]
    congr 1
    funext members
    apply List.filter_congr
    intro other _
    by_cases same : other = queueName <;> simp [same]
  case messageStatus =>
    funext messageId
    change (state.evict queueName _).messageStatus messageId = _
    rw [evict_messageStatus]
    simp [enqueued]
  all_goals cases state.evictedFrom queueName <;> rfl

theorem evictedFrom_enqueued_of_ne (state : ServerState)
    (message : EncryptedInputData) {queueName other : String}
    (different : other ≠ queueName) :
    (state.enqueued message [queueName]).evictedFrom other =
      state.evictedFrom other := by
  simp [evictedFrom, enqueued, different]

/-- Appending to one queue and then to others is appending to all of them,
when the first is not among the others. -/
theorem enqueued_cons (state : ServerState) (message : EncryptedInputData)
    {queueName : String} {rest : List String} (fresh : queueName ∉ rest) :
    (state.enqueued message [queueName]).enqueued message rest =
      state.enqueued message (queueName :: rest) := by
  have different : ∀ other ∈ rest, other ≠ queueName := by
    rintro other member rfl
    exact fresh member
  have unaffected : ∀ other ∈ rest,
      (state.enqueued message [queueName]).evictedFrom other =
        state.evictedFrom other := fun other member =>
    evictedFrom_enqueued_of_ne state message (different other member)
  generalize first : state.enqueued message [queueName] = after at unaffected
  have firstQueues : after.queues = fun other =>
      if other = queueName then
        (state.queues other).map (appended state.maxQueueSize message)
      else
        state.queues other := by
    simp [← first, enqueued]
  have firstIndex : after.messageQueues = fun messageId =>
      (state.messageQueues messageId).map fun queueSet =>
        queueSet.filter fun other =>
          ¬ (other = queueName ∧
            state.evictedFrom other = some messageId) := by
    simp [← first, enqueued]
  have firstStatus : after.messageStatus = fun messageId =>
      if state.evictedFrom queueName = some messageId then none
      else state.messageStatus messageId := by
    simp [← first, enqueued]
  have sameLimit : after.maxQueueSize = state.maxQueueSize := by
    simp [← first, enqueued]
  apply ServerState.ext
  case queues =>
    funext other
    by_cases inRest : other ∈ rest
    · simp [enqueued, firstQueues, sameLimit, inRest, different other inRest]
    · simp [enqueued, firstQueues, inRest]
  case messageQueues =>
    funext messageId
    simp only [enqueued, firstIndex, Option.map_map, Function.comp_def,
      List.filter_filter]
    congr 1
    funext queueSet
    apply List.filter_congr
    intro other _
    by_cases inRest : other ∈ rest
    · simp [inRest, different other inRest, unaffected other inRest]
    · simp [inRest]
  case messageStatus =>
    funext messageId
    have evictedLater :
        (∃ other ∈ rest, after.evictedFrom other = some messageId) ↔
          ∃ other ∈ rest, state.evictedFrom other = some messageId := by
      constructor
      · rintro ⟨other, member, evicted⟩
        exact ⟨other, member, unaffected other member ▸ evicted⟩
      · rintro ⟨other, member, evicted⟩
        exact ⟨other, member, (unaffected other member).trans evicted⟩
    simp only [enqueued, firstStatus, evictedLater, List.exists_mem_cons_iff]
    by_cases evicted : state.evictedFrom queueName = some messageId <;>
      simp [evicted]
  all_goals simp [enqueued, ← first]

/-- The enqueue loop over distinct existing queues computes the closed form,
and the queue set it collects has exactly those queues. -/
theorem enqueueAll_spec (message : EncryptedInputData) (state : ServerState)
    (queueSet targets : List String) (distinct : targets.Nodup)
    (present : ∀ queueName ∈ targets, (state.queues queueName).isSome) :
    (enqueueAll message state queueSet targets).1 =
        state.enqueued message targets ∧
      ∀ queueName,
        queueName ∈ (enqueueAll message state queueSet targets).2 ↔
          queueName ∈ queueSet ∨ queueName ∈ targets := by
  induction targets generalizing state queueSet with
  | nil =>
      refine ⟨?_, by simp [enqueueAll]⟩
      apply ServerState.ext <;> simp [enqueueAll, enqueued, Option.map_id']
  | cons first rest ih =>
      obtain ⟨fresh, restDistinct⟩ := List.nodup_cons.mp distinct
      have unfolded : enqueueAll message state queueSet (first :: rest) =
          enqueueAll message (state.enqueued message [first])
            (queueSet.insert first) rest := by
        simp only [enqueueAll, List.foldl_cons]
        rw [enqueue_eq message state queueSet (present first (by simp))]
      have stillPresent : ∀ queueName ∈ rest,
          ((state.enqueued message [first]).queues queueName).isSome := by
        intro queueName member
        have old := present queueName (by simp [member])
        simp only [enqueued]
        split
        · simpa using old
        · exact old
      obtain ⟨stateEq, members⟩ :=
        ih (state.enqueued message [first]) (queueSet.insert first)
          restDistinct stillPresent
      rw [unfolded]
      refine ⟨stateEq.trans (enqueued_cons state message fresh), ?_⟩
      intro queueName
      rw [members, List.mem_insert_iff, List.mem_cons]
      tauto

end ServerState

end CipherMQ
