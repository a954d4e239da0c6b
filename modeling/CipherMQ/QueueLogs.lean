import CipherMQ.BrokerTrace
import CipherMQ.SubscribeHandOff

/-!
# Queues as bounded logs

What a queue holds is part of what publishes have appended to it, in the same
order.  An entry leaves a queue when its message is acknowledged, or as the
oldest one when another entry is appended to a full queue.  Appending makes
room for one entry only, which is enough to keep a queue within its limit, or
at one entry if the limit is zero.
-/

namespace CipherMQ

open ServerState

namespace TracedBroker

inductive QueueChange (before after : TracedBroker) (event : Broker.Event)
    (queueName : String) (queue changed : List QueueEntry) : Prop
  | unchanged :
      changed = queue →
        after.trace.log queueName = before.trace.log queueName →
          QueueChange before after event queueName queue changed
  | appended (index : Nat) (reading : Reading) (request : PublishRequest)
      (targets queueSet remaining : List String) :
      event = .advance index reading →
        before.broker.calls[index]? = some (.publish request
            (.enqueue targets queueSet (queueName :: remaining))) →
          changed =
              (if before.broker.shared.maxQueueSize ≤ queue.length then
                queue.tail
              else
                queue) ++ [(request.message.messageId, request.message)] →
            after.trace.log queueName = before.trace.log queueName ++
                [(index, request.message.messageId, request.message)] →
              QueueChange before after event queueName queue changed
  | acknowledged (index : Nat) (reading : Reading) (messageId : String)
      (remaining : List String) :
      event = .advance index reading →
        before.broker.calls[index]? = some (.acknowledge messageId
            (.removeFrom (queueName :: remaining))) →
          changed = queue.filter (fun entry => entry.1 ≠ messageId) →
            after.trace.log queueName = before.trace.log queueName →
              QueueChange before after event queueName queue changed

theorem queueChange_turn {traced : TracedBroker} {index : Nat}
    {reading : Reading} {call next : Call} {shared : ServerState}
    {trace : Trace} {queueName : String} {queue : List QueueEntry}
    (isCall : traced.broker.calls[index]? = some call)
    (turn : TracedTurn traced.broker.shared traced.trace index call shared
      next trace)
    (found : traced.broker.shared.queues queueName = some queue) :
    ∃ changed, shared.queues queueName = some changed ∧
      QueueChange traced
        ⟨⟨shared, traced.broker.calls.set index next⟩, trace⟩
        (.advance index reading) queueName queue changed := by
  cases turn with
  | plain _ _ _ _ _ flow | publish _ _ _ _ _ flow =>
      exact ⟨queue, flow.queues ▸ found, .unchanged rfl rfl⟩
  | declare other | declareFirst other =>
      refine ⟨queue, ?_, .unchanged rfl rfl⟩
      by_cases isOther : queueName = other
      · subst isOther
        simp [ServerState.declareQueue, found]
      · simpa [ServerState.declareQueue, isOther] using found
  | remove messageId other remaining =>
      by_cases isOther : queueName = other
      · subst isOther
        exact ⟨_, by simp [removeFromQueue, found]; rfl,
          .acknowledged index reading messageId remaining rfl isCall
            (by simp) rfl⟩
      · exact ⟨queue, by simpa [removeFromQueue, isOther] using found,
          .unchanged rfl rfl⟩
  | push request targets queueSet other remaining otherQueue _ otherFound _ =>
      by_cases isOther : queueName = other
      · subst isOther
        rw [found] at otherFound
        cases otherFound
        exact ⟨_, KeyMap.insert_self _ _ _,
          .appended index reading request targets queueSet remaining rfl
            isCall (by rw [ServerState.appended, popOldest_snd])
            (by simp [Trace.push])⟩
      · refine ⟨queue, by simpa [isOther] using found,
          .unchanged rfl ?_⟩
        simp [Trace.push, isOther]
  | skip | announce | join | capture | captureNone | readStatus | spawn =>
      exact ⟨queue, found, .unchanged rfl rfl⟩

/-- Every step changes a queue in one of the three ways. -/
theorem queueChange_step {before after : TracedBroker}
    {event : Broker.Event} {queueName : String} {queue : List QueueEntry}
    (faithful : before.Faithful)
    (stepTo : before.step event = some after)
    (found : before.broker.shared.queues queueName = some queue) :
    ∃ changed, after.broker.shared.queues queueName = some changed ∧
      QueueChange before after event queueName queue changed := by
  rcases step_cases stepTo with
    ⟨invocation, -, rfl⟩ |
    ⟨index, reading, call, shared, next, trace, rfl, isCall, turn, rfl⟩ |
    ⟨index, -, rfl⟩ | ⟨channel, -, rfl⟩ | ⟨shared, flow, rfl⟩
  · exact ⟨queue, found, .unchanged rfl rfl⟩
  · exact queueChange_turn isCall turn found
  · rcases runTask_cases faithful.tasks index with
      ⟨sameState, sameTrace⟩ | ⟨task, entry, rest, -, -, -, isState, isTrace⟩
    · rw [sameState, sameTrace]
      exact ⟨queue, found, .unchanged rfl rfl⟩
    · rw [isState, isTrace]
      refine ⟨queue, found, .unchanged rfl ?_⟩
      dsimp only
      split <;> rfl
  · exact ⟨queue, found, .unchanged rfl rfl⟩
  · exact ⟨queue, flow.queues ▸ found, .unchanged rfl rfl⟩

/-! ## Runs -/

structure BoundedLogs (maxQueueSize : Nat) (traced : TracedBroker) :
    Prop where
  limit : traced.broker.shared.maxQueueSize = maxQueueSize
  sublist : ∀ queueName, (traced.trace.queues queueName).Sublist
    (traced.trace.log queueName)
  length_le : ∀ queueName,
    (traced.trace.queues queueName).length ≤ max 1 maxQueueSize

theorem BoundedLogs.push {maxQueueSize : Nat} {traced : TracedBroker}
    (bounded : traced.BoundedLogs maxQueueSize) (other : String)
    (entry : Stamped) (queueName : String) :
    ((traced.trace.push maxQueueSize other entry).queues queueName).Sublist
        ((traced.trace.push maxQueueSize other entry).log queueName) ∧
      ((traced.trace.push maxQueueSize other entry).queues
        queueName).length ≤ max 1 maxQueueSize := by
  by_cases isOther : queueName = other
  · subst isOther
    have inLog := bounded.sublist queueName
    have short := bounded.length_le queueName
    simp only [Trace.push, Function.update_self]
    split
    · refine ⟨((List.tail_sublist _).trans inLog).append
        (List.Sublist.refl _), ?_⟩
      rw [List.length_append, List.length_tail, List.length_singleton]
      omega
    · refine ⟨inLog.append (List.Sublist.refl _), ?_⟩
      rw [List.length_append, List.length_singleton]
      omega
  · simp only [Trace.push, ne_eq, isOther, not_false_eq_true,
      Function.update_of_ne]
    exact ⟨bounded.sublist queueName, bounded.length_le queueName⟩

theorem BoundedLogs.retain {maxQueueSize : Nat} {traced : TracedBroker}
    (bounded : traced.BoundedLogs maxQueueSize)
    (messageId other queueName : String) :
    ((traced.trace.retain messageId other).queues queueName).Sublist
        ((traced.trace.retain messageId other).log queueName) ∧
      ((traced.trace.retain messageId other).queues queueName).length ≤
        max 1 maxQueueSize := by
  have shrinks : ((traced.trace.retain messageId other).queues
      queueName).Sublist (traced.trace.queues queueName) := by
    by_cases isOther : queueName = other
    · subst isOther
      simp only [Trace.retain, Function.update_self]
      exact List.filter_sublist
    · simp [Trace.retain, isOther]
  exact ⟨shrinks.trans (bounded.sublist queueName),
    shrinks.length_le.trans (bounded.length_le queueName)⟩

theorem BoundedLogs.turn {maxQueueSize : Nat} {traced : TracedBroker}
    (bounded : traced.BoundedLogs maxQueueSize) {index : Nat}
    {call next : Call} {shared : ServerState} {trace : Trace}
    (turn : TracedTurn traced.broker.shared traced.trace index call shared
      next trace) :
    BoundedLogs maxQueueSize
      ⟨⟨shared, traced.broker.calls.set index next⟩, trace⟩ := by
  cases turn with
  | plain _ _ _ _ _ flow | publish _ _ _ _ _ flow =>
      exact ⟨flow.maxQueueSize.trans bounded.limit, bounded.sublist,
        bounded.length_le⟩
  | remove messageId other remaining =>
      have kept := bounded.retain messageId other
      exact ⟨bounded.limit, fun queueName => (kept queueName).1,
        fun queueName => (kept queueName).2⟩
  | push request _ _ other _ _ _ _ _ =>
      rw [bounded.limit]
      have kept := bounded.push other
        (index, request.message.messageId, request.message)
      exact ⟨rfl, fun queueName => (kept queueName).1,
        fun queueName => (kept queueName).2⟩
  | declare | declareFirst | skip | announce | join | capture | captureNone
  | readStatus | spawn =>
      exact ⟨bounded.limit, bounded.sublist, bounded.length_le⟩

theorem BoundedLogs.step {maxQueueSize : Nat} {before after : TracedBroker}
    {event : Broker.Event} (bounded : before.BoundedLogs maxQueueSize)
    (faithful : before.Faithful) (stepTo : before.step event = some after) :
    after.BoundedLogs maxQueueSize := by
  rcases step_cases stepTo with
    ⟨invocation, -, rfl⟩ |
    ⟨index, reading, call, shared, next, trace, -, -, turn, rfl⟩ |
    ⟨index, -, rfl⟩ | ⟨channel, -, rfl⟩ | ⟨shared, flow, rfl⟩
  · exact ⟨bounded.limit, bounded.sublist, bounded.length_le⟩
  · exact bounded.turn turn
  · rcases runTask_cases faithful.tasks index with
      ⟨sameState, sameTrace⟩ | ⟨task, entry, rest, -, -, -, isState, isTrace⟩
    · rw [sameState, sameTrace]
      exact bounded
    · rw [isState, isTrace]
      split <;> exact ⟨bounded.limit, bounded.sublist, bounded.length_le⟩
  · exact ⟨bounded.limit, bounded.sublist, bounded.length_le⟩
  · exact ⟨flow.maxQueueSize.trans bounded.limit, bounded.sublist,
      bounded.length_le⟩

theorem boundedLogs_of_reachable
    {allowed : TracedBroker → Broker.Event → Prop} {maxQueueSize : Nat}
    {traced : TracedBroker}
    (reached : ReachableWhile step allowed (new maxQueueSize) traced) :
    traced.Faithful ∧ traced.BoundedLogs maxQueueSize := by
  refine reached.invariant (fun traced =>
    traced.Faithful ∧ traced.BoundedLogs maxQueueSize) ?_ ?_
  · exact ⟨faithful_new maxQueueSize, rfl, fun _ => List.Sublist.refl _,
      fun _ => Nat.zero_le _⟩
  · rintro before event after ⟨faithful, bounded⟩ _ stepTo
    exact ⟨faithful.step stepTo, bounded.step faithful stepTo⟩

theorem queue_length_le {maxQueueSize : Nat} {broker : Broker}
    (reached : Reachable Broker.step (.new maxQueueSize) broker) :
    broker.shared.maxQueueSize = maxQueueSize ∧
      ∀ queueName queue, broker.shared.queues queueName = some queue →
        queue.length ≤ max 1 maxQueueSize := by
  obtain ⟨trace, traced⟩ := exists_reachable reached
  obtain ⟨faithful, bounded⟩ := boundedLogs_of_reachable traced
  refine ⟨bounded.limit, ?_⟩
  intro queueName queue found
  have isQueue := faithful.queues queueName
  rw [found, Option.getD_some] at isQueue
  rw [← isQueue, List.length_map]
  exact bounded.length_le queueName

/-- In every interleaving a queue holds a part of the entries that publishes
have appended to it, in the same order and within its limit, and each step
leaves it alone, appends an entry, dropping the front one of a full queue, or
removes the entries of an acknowledged message. -/
theorem queue_boundedLog {maxQueueSize : Nat} {traced : TracedBroker}
    (reached : Reachable step (new maxQueueSize) traced)
    {queueName : String} {queue : List QueueEntry}
    (found : traced.broker.shared.queues queueName = some queue) :
    queue = (traced.trace.queues queueName).map Prod.snd ∧
      (traced.trace.queues queueName).Sublist
        (traced.trace.log queueName) ∧
      queue.length ≤ max 1 maxQueueSize ∧
      ∀ event after, traced.step event = some after →
        ∃ changed, after.broker.shared.queues queueName = some changed ∧
          QueueChange traced after event queueName queue changed := by
  obtain ⟨faithful, bounded⟩ := boundedLogs_of_reachable reached
  have isQueue := faithful.queues queueName
  rw [found, Option.getD_some] at isQueue
  refine ⟨isQueue.symm, bounded.sublist queueName, ?_, ?_⟩
  · rw [← isQueue, List.length_map]
    exact bounded.length_le queueName
  · intro event after stepTo
    exact queueChange_step faithful stepTo found

/-- Call `index` publishes a message to the queue, up to its next access after
`count` ones. -/
def publishing (index count : Nat) (messageId : String) :
    List Broker.Event :=
  .invoke (.publish (Broker.sampleRequest messageId "sender_1")) ::
    Broker.accesses index count

/-- Two messages are published to a queue for one entry. -/
theorem queue_boundedLog_evicted :
    ∃ traced, Reachable step (new 1) traced ∧
      traced.broker.shared.queues "q" =
        some [("m2", sampleMessage "m2")] ∧
      (traced.trace.log "q").map (fun entry => entry.2.1) = ["m1", "m2"] ∧
      (traced.trace.queues "q").Sublist (traced.trace.log "q") := by
  have ran : (executeWhile step (fun _ _ => True) (new 1)
      (Broker.boundQueue ++ publishing 3 8 "m1" ++ publishing 4 10 "m2")).map
        (fun traced => (traced.broker.shared.queues "q",
          (traced.trace.log "q").map fun entry => entry.2.1)) =
      some (some [("m2", sampleMessage "m2")], ["m1", "m2"]) := by
    decide +kernel
  obtain ⟨traced, reached, account⟩ := exists_reachableWhile_of_map ran
  simp only [Prod.mk.injEq] at account
  exact ⟨traced, reached, account.1, account.2,
    (queue_boundedLog reached account.1).2.1⟩

end TracedBroker

end CipherMQ
