import CipherMQ.ServerState

/-!
# Topology of the broker

Every binding of every exchange names a queue that exists, and an exchange
never lists a binding twice.  Publishing relies on both: its target queues are
distinct and each of them is there to take the message.  Every operation keeps
them, because queues are only ever added and a binding is only recorded after
its queue has been seen.
-/

namespace CipherMQ

namespace ServerState

def Bound (state : ServerState) (exchangeName routingKey queueName : String) :
    Prop :=
  ∃ bindings, state.bindings exchangeName = some bindings ∧
    (queueName, routingKey) ∈ bindings

/-- The well-formedness of the bindings that publishing relies on. -/
structure Topology (state : ServerState) : Prop where
  bindings_nodup : ∀ exchangeName bindings,
    state.bindings exchangeName = some bindings → bindings.Nodup
  bound_exists : ∀ exchangeName routingKey queueName,
    state.Bound exchangeName routingKey queueName →
      (state.queues queueName).isSome

theorem mem_targetQueues (state : ServerState)
    (exchangeName routingKey queueName : String) :
    queueName ∈ state.targetQueues exchangeName routingKey ↔
      state.Bound exchangeName routingKey queueName := by
  unfold targetQueues Bound
  cases bound : state.bindings exchangeName with
  | none => simp
  | some bindings => simp

theorem Topology.targetQueues_nodup {state : ServerState}
    (topology : state.Topology) (exchangeName routingKey : String) :
    (state.targetQueues exchangeName routingKey).Nodup := by
  unfold targetQueues
  cases bound : state.bindings exchangeName with
  | none => simp
  | some bindings =>
      have distinct := topology.bindings_nodup exchangeName bindings bound
      refine (distinct.filter _).map_on ?_
      rintro ⟨first, firstKey⟩ firstMem ⟨second, secondKey⟩ secondMem same
      simp only [List.mem_filter, decide_eq_true_eq] at firstMem secondMem
      simp_all

theorem Topology.targetQueues_exist {state : ServerState}
    (topology : state.Topology) (exchangeName routingKey : String) :
    ∀ queueName ∈ state.targetQueues exchangeName routingKey,
      (state.queues queueName).isSome := by
  intro queueName member
  exact topology.bound_exists exchangeName routingKey queueName
    ((mem_targetQueues state _ _ _).mp member)

/-- A later state in which no queue has disappeared and the bindings are the
same is as well formed as the earlier one. -/
theorem Topology.of_queues_kept {before after : ServerState}
    (topology : before.Topology)
    (sameBindings : after.bindings = before.bindings)
    (kept : ∀ queueName, (before.queues queueName).isSome →
      (after.queues queueName).isSome) :
    after.Topology where
  bindings_nodup exchangeName bindings bound :=
    topology.bindings_nodup exchangeName bindings (sameBindings ▸ bound)
  bound_exists exchangeName routingKey queueName bound := by
    apply kept
    apply topology.bound_exists exchangeName routingKey queueName
    simpa only [Bound, sameBindings] using bound

theorem topology_new (maxQueueSize : Nat) : (new maxQueueSize).Topology where
  bindings_nodup exchangeName bindings bound := by simp [new] at bound
  bound_exists exchangeName routingKey queueName bound := by
    simp [new, Bound] at bound

theorem bound_insertBinding (state : ServerState)
    (queueName exchangeName routingKey otherExchange otherKey other : String) :
    (state.insertBinding queueName exchangeName routingKey).Bound
        otherExchange otherKey other ↔
      state.Bound otherExchange otherKey other ∨
        (otherExchange = exchangeName ∧ otherKey = routingKey ∧
          other = queueName) := by
  unfold Bound insertBinding
  by_cases sameExchange : otherExchange = exchangeName
  · subst sameExchange
    cases bound : state.bindings otherExchange with
    | none =>
        simp only [KeyMap.insert_apply, if_true]
        simp [and_comm]
    | some bindings =>
        by_cases listed : (queueName, routingKey) ∈ bindings
        · simp only [KeyMap.insert_apply, if_true, listed]
          simp only [Option.some.injEq, exists_eq_left', true_and]
          constructor
          · exact Or.inl
          · rintro (old | ⟨rfl, rfl⟩)
            · exact old
            · exact listed
        · simp only [KeyMap.insert_apply, if_true, listed, if_false]
          simp [and_comm]
  · simp [sameExchange]

theorem Topology.insertBinding {state : ServerState}
    (topology : state.Topology) {queueName : String}
    (exists_queue : (state.queues queueName).isSome)
    (exchangeName routingKey : String) :
    (state.insertBinding queueName exchangeName routingKey).Topology where
  bindings_nodup otherExchange bindings bound := by
    by_cases sameExchange : otherExchange = exchangeName
    · subst sameExchange
      cases old : state.bindings otherExchange with
      | none =>
          simp only [ServerState.insertBinding, old, KeyMap.insert_self,
            Option.some.injEq] at bound
          subst bound
          simp
      | some oldBindings =>
          have distinct := topology.bindings_nodup _ _ old
          simp only [ServerState.insertBinding, old, KeyMap.insert_self,
            Option.some.injEq] at bound
          subst bound
          split
          · exact distinct
          · rename_i notListed
            rw [List.nodup_append]
            refine ⟨distinct, by simp, ?_⟩
            intro binding member other otherMem same
            simp only [List.mem_singleton] at otherMem
            subst same
            exact notListed (otherMem ▸ member)
    · apply topology.bindings_nodup otherExchange bindings
      simpa [ServerState.insertBinding, sameExchange] using bound
  bound_exists otherExchange otherKey other bound := by
    rcases (bound_insertBinding state queueName exchangeName routingKey
      otherExchange otherKey other).mp bound with old | ⟨-, -, rfl⟩
    · exact topology.bound_exists otherExchange otherKey other old
    · exact exists_queue

theorem Topology.declareQueue {state : ServerState}
    (topology : state.Topology) (queueName : String) :
    (state.declareQueue queueName).Topology := by
  have sameBindings :
      (state.declareQueue queueName).bindings = state.bindings := rfl
  apply topology.of_queues_kept sameBindings
  intro other present
  by_cases same : other = queueName
  · simp [ServerState.declareQueue, same]
  · simpa [ServerState.declareQueue, same] using present

theorem Topology.bindQueue {state : ServerState} (topology : state.Topology)
    (queueName exchangeName routingKey : String) :
    (state.bindQueue queueName exchangeName routingKey).Topology := by
  unfold ServerState.bindQueue
  split
  · rename_i declared
    simp only [KeyMap.containsKey_eq, Bool.and_eq_true] at declared
    exact topology.insertBinding declared.1 exchangeName routingKey
  · exact topology

end ServerState

end CipherMQ
