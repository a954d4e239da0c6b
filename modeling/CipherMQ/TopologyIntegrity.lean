import CipherMQ.DuplicateSuppression

/-!
# Integrity of the topology

Every binding belongs to an exchange that was declared and to a queue that
exists, and no exchange lists a binding twice.  A bind looks up its queue and
its exchange in separate accesses and records the binding in a third, so this
needs that neither can go away in between: no step of the broker removes a
queue, an exchange or a binding.

Since nothing is removed, it does not matter in which order declarations are
made, and after them binds: what is there in the end depends only on which
declarations and binds were made.
-/

namespace CipherMQ

open ServerState

namespace ServerState

/-- Bindings are distinct, and each is of a declared exchange to a queue that
exists. -/
structure Integrity (state : ServerState) : Prop extends Topology state where
  bound_declared : ∀ exchangeName routingKey queueName,
    state.Bound exchangeName routingKey queueName →
      (state.exchanges exchangeName).isSome

structure StillDeclares (before after : ServerState) : Prop where
  queues : ∀ queueName, (before.queues queueName).isSome →
    (after.queues queueName).isSome
  exchanges : ∀ exchangeName, (before.exchanges exchangeName).isSome →
    (after.exchanges exchangeName).isSome
  bound : ∀ exchangeName routingKey queueName,
    before.Bound exchangeName routingKey queueName →
      after.Bound exchangeName routingKey queueName

structure SameTopology (first second : ServerState) : Prop where
  queues : ∀ queueName,
    (first.queues queueName).isSome ↔ (second.queues queueName).isSome
  exchanges : ∀ exchangeName,
    (first.exchanges exchangeName).isSome ↔
      (second.exchanges exchangeName).isSome
  bound : ∀ exchangeName routingKey queueName,
    first.Bound exchangeName routingKey queueName ↔
      second.Bound exchangeName routingKey queueName

theorem stillDeclares_of_same {before after : ServerState}
    (queues : after.queues = before.queues)
    (exchanges : after.exchanges = before.exchanges)
    (bindings : after.bindings = before.bindings) :
    before.StillDeclares after := by
  constructor
  · intro queueName present
    rwa [queues]
  · intro exchangeName present
    rwa [exchanges]
  · intro exchangeName routingKey queueName bound
    unfold Bound at bound ⊢
    rwa [bindings]

end ServerState

/-! ## Interleaved calls -/

theorem Access.exchanges_isSome {before after : ServerState} {call : Call}
    (access : Access before call after) {exchangeName : String}
    (present : (before.exchanges exchangeName).isSome) :
    (after.exchanges exchangeName).isSome := by
  cases access with
  | declareExchange _ other =>
      by_cases same : exchangeName = other
      · simp [ServerState.declareExchange, same]
      · simpa [ServerState.declareExchange, same] using present
  | _ => exact present

namespace Broker

theorem stillDeclares_step {before after : Broker} {event : Event}
    (stepTo : before.step event = some after) :
    before.shared.StillDeclares after.shared := by
  rcases step_cases stepTo with
    ⟨invocation, -, rfl⟩ | ⟨index, reading, call, -, found, -, rfl⟩ |
    ⟨messageId, reading, -, rfl⟩ | ⟨channel, -, rfl⟩ | ⟨index, -, rfl⟩ |
    ⟨_, _, -, rfl⟩
  · exact stillDeclares_of_same rfl rfl rfl
  · have access := access_advance reading before.shared call
    exact ⟨fun _ => access.queues_isSome, fun _ => access.exchanges_isSome,
      fun _ _ _ => access.bound⟩
  · obtain ⟨messageStatus, storage, marked, -⟩ :=
      markDelivered_frame before.shared messageId reading.now reading.time
    rw [marked]
    exact stillDeclares_of_same rfl rfl rfl
  · exact stillDeclares_of_same rfl rfl rfl
  · obtain ⟨channels, deliveryTasks, ran⟩ :=
      runDeliveryTask_frame before.shared index
    rw [ran]
    exact stillDeclares_of_same rfl rfl rfl
  · exact stillDeclares_of_same rfl rfl rfl

/-- A call that is about to record a binding has seen its exchange. -/
def ExchangeSeen (state : ServerState) : Call → Prop
  | .bindQueue _ exchangeName _ .insertBinding =>
      (state.exchanges exchangeName).isSome
  | _ => True

theorem ExchangeSeen.mono {before after : ServerState} {call : Call}
    (declares : before.StillDeclares after)
    (seen : ExchangeSeen before call) : ExchangeSeen after call := by
  unfold ExchangeSeen at seen ⊢
  split
  · exact declares.exchanges _ seen
  · trivial

theorem exchangeSeen_advance (reading : Reading) (state : ServerState)
    (call : Call) :
    ExchangeSeen (call.advance reading state).1
      (call.advance reading state).2 := by
  cases call with
  | bindQueue queueName exchangeName routingKey point =>
      cases point with
      | checkQueue =>
          simp only [Call.advance, bindQueueStep]
          split <;> trivial
      | checkExchange =>
          by_cases present : state.exchanges.containsKey exchangeName
          · simp only [Call.advance, bindQueueStep, present, if_true]
            exact present
          · simp only [Call.advance, bindQueueStep, present]
            trivial
      | insertBinding => trivial
      | returned => trivial
  | declareQueue queueName point => cases point <;> trivial
  | declareExchange exchangeName point => cases point <;> trivial
  | publish request point => trivial
  | registerConsumer queueName sender point => trivial
  | acknowledge messageId point => trivial

/-- Bindings are of declared exchanges, also those about to be recorded. -/
structure BindsDeclared (broker : Broker) : Prop where
  bound : ∀ exchangeName routingKey queueName,
    broker.shared.Bound exchangeName routingKey queueName →
      (broker.shared.exchanges exchangeName).isSome
  seen : ∀ call ∈ broker.calls, ExchangeSeen broker.shared call

theorem BindsDeclared.of_bindings {before after : Broker}
    (declared : before.BindsDeclared)
    (declares : before.shared.StillDeclares after.shared)
    (bindings : after.shared.bindings = before.shared.bindings)
    (seen : ∀ call ∈ after.calls,
      call ∈ before.calls ∨ ExchangeSeen after.shared call) :
    after.BindsDeclared := by
  constructor
  · intro exchangeName routingKey queueName bound
    apply declares.exchanges
    apply declared.bound exchangeName routingKey queueName
    unfold Bound at bound ⊢
    rwa [bindings] at bound
  · intro call member
    rcases seen call member with old | isSeen
    · exact (declared.seen call old).mono declares
    · exact isSeen

theorem BindsDeclared.advance {broker : Broker}
    (declared : broker.BindsDeclared) {index : Nat} {call : Call}
    (found : broker.calls[index]? = some call) (reading : Reading)
    (declares : broker.shared.StillDeclares
      (call.advance reading broker.shared).1) :
    BindsDeclared ⟨(call.advance reading broker.shared).1,
      broker.calls.set index (call.advance reading broker.shared).2⟩ := by
  have seen : ∀ other ∈
      broker.calls.set index (call.advance reading broker.shared).2,
        other ∈ broker.calls ∨
          ExchangeSeen (call.advance reading broker.shared).1 other := by
    intro other member
    rcases List.mem_or_eq_of_mem_set member with old | rfl
    · exact .inl old
    · exact .inr (exchangeSeen_advance reading broker.shared call)
  by_cases binds : ∃ queueName exchangeName routingKey,
      call = .bindQueue queueName exchangeName routingKey .insertBinding
  · obtain ⟨queueName, exchangeName, routingKey, rfl⟩ := binds
    have isSeen := declared.seen _ (List.mem_of_getElem? found)
    constructor
    · intro otherExchange otherKey other bound
      rcases (bound_insertBinding _ _ _ _ _ _ _).mp bound with
        old | ⟨rfl, -, -⟩
      · exact declared.bound otherExchange otherKey other old
      · exact isSeen
    · intro other member
      rcases seen other member with old | isSeen
      · exact (declared.seen other old).mono declares
      · exact isSeen
  · have access := access_advance reading broker.shared call
    apply declared.of_bindings declares
    · apply access.bindings_eq
      intro queueName exchangeName routingKey isBind
      exact binds ⟨queueName, exchangeName, routingKey, isBind⟩
    · exact seen

theorem BindsDeclared.step {before after : Broker} {event : Event}
    (declared : before.BindsDeclared)
    (stepTo : before.step event = some after) : after.BindsDeclared := by
  have declares := stillDeclares_step stepTo
  rcases step_cases stepTo with
    ⟨invocation, -, rfl⟩ | ⟨index, reading, call, -, found, -, rfl⟩ |
    ⟨messageId, reading, -, rfl⟩ | ⟨channel, -, rfl⟩ | ⟨index, -, rfl⟩ |
    ⟨_, _, -, rfl⟩
  · apply declared.of_bindings declares rfl
    intro call member
    rcases List.mem_append.mp member with old | started
    · exact .inl old
    · right
      rw [List.mem_singleton] at started
      subst started
      cases invocation <;> trivial
  · exact declared.advance found reading declares
  · obtain ⟨messageStatus, storage, marked, -⟩ :=
      markDelivered_frame before.shared messageId reading.now reading.time
    apply declared.of_bindings declares
    · rw [marked]
    · exact fun _ member => .inl member
  · exact declared.of_bindings declares rfl fun _ member => .inl member
  · obtain ⟨channels, deliveryTasks, ran⟩ :=
      runDeliveryTask_frame before.shared index
    apply declared.of_bindings declares
    · rw [ran]
    · exact fun _ member => .inl member
  · exact declared.of_bindings declares rfl fun _ member => .inl member

theorem integrity_of_reachable {maxQueueSize : Nat} {broker : Broker}
    (reached : Reachable step (new maxQueueSize) broker) :
    broker.shared.Integrity := by
  have declared : broker.BindsDeclared := by
    apply reached.invariant BindsDeclared
    · constructor
      · rintro exchangeName routingKey queueName ⟨bindings, found, -⟩
        cases found
      · intro call member
        cases member
    · intro before event after declared _ stepTo
      exact declared.step stepTo
  exact { (wellFormed_of_reachable reached).topology with
    bound_declared := declared.bound }

end Broker

/-! ## Orders of declarations and binds -/

inductive Declaration where
  | queue (queueName : String)
  | exchange (exchangeName : String)
  deriving DecidableEq, Repr

def Declaration.operation : Declaration → Operation
  | .queue queueName => .declareQueue queueName
  | .exchange exchangeName => .declareExchange exchangeName

structure BindRequest where
  queueName : String
  exchangeName : String
  routingKey : String
  deriving DecidableEq, Repr

def BindRequest.operation (bind : BindRequest) : Operation :=
  .bindQueue bind.queueName bind.exchangeName bind.routingKey

namespace ServerState

def setUp (state : ServerState) (declarations : List Declaration)
    (binds : List BindRequest) : ServerState :=
  runFrom apply (runFrom apply state
    (declarations.map Declaration.operation)) (binds.map BindRequest.operation)

/-- After declarations there is what was there before and what was
declared. -/
theorem declared_after (declarations : List Declaration)
    (state : ServerState) :
    (∀ queueName, ((runFrom apply state
        (declarations.map Declaration.operation)).queues queueName).isSome ↔
      (state.queues queueName).isSome ∨ .queue queueName ∈ declarations) ∧
    (∀ exchangeName, ((runFrom apply state
        (declarations.map Declaration.operation)).exchanges
          exchangeName).isSome ↔
      (state.exchanges exchangeName).isSome ∨
        .exchange exchangeName ∈ declarations) ∧
    (runFrom apply state
      (declarations.map Declaration.operation)).bindings =
        state.bindings := by
  induction declarations generalizing state with
  | nil => simp
  | cons declaration declarations ih =>
      obtain ⟨queues, exchanges, bindings⟩ :=
        ih (state.apply declaration.operation)
      have runs : runFrom apply state ((declaration :: declarations).map
          Declaration.operation) =
          runFrom apply (state.apply declaration.operation)
            (declarations.map Declaration.operation) :=
        rfl
      rw [runs]
      cases declaration with
      | queue declared =>
          refine ⟨?_, ?_, bindings⟩
          · intro queueName
            rw [queues queueName]
            by_cases same : queueName = declared
            · simp [apply, Declaration.operation, declareQueue, same]
            · simp [apply, Declaration.operation, declareQueue, same]
          · intro exchangeName
            rw [exchanges exchangeName]
            simp [apply, Declaration.operation, declareQueue]
      | exchange declared =>
          refine ⟨?_, ?_, bindings⟩
          · intro queueName
            rw [queues queueName]
            simp [apply, Declaration.operation, declareExchange]
          · intro exchangeName
            rw [exchanges exchangeName]
            by_cases same : exchangeName = declared
            · simp [apply, Declaration.operation, declareExchange, same]
            · simp [apply, Declaration.operation, declareExchange, same]

/-- A bind takes effect exactly if its queue and its exchange exist. -/
theorem bound_bindQueue (state : ServerState) (bind : BindRequest)
    (exchangeName routingKey queueName : String) :
    (state.apply bind.operation).Bound exchangeName routingKey queueName ↔
      state.Bound exchangeName routingKey queueName ∨
        (bind = ⟨queueName, exchangeName, routingKey⟩ ∧
          (state.queues queueName).isSome ∧
          (state.exchanges exchangeName).isSome) := by
  obtain ⟨boundQueue, boundExchange, boundKey⟩ := bind
  simp only [apply, BindRequest.operation, bindQueue, BindRequest.mk.injEq]
  split
  · rename_i exist
    simp only [KeyMap.containsKey_eq, Bool.and_eq_true] at exist
    rw [bound_insertBinding]
    constructor
    · rintro (old | ⟨rfl, rfl, rfl⟩)
      · exact .inl old
      · exact .inr ⟨⟨rfl, rfl, rfl⟩, exist⟩
    · rintro (old | ⟨⟨rfl, rfl, rfl⟩, -⟩)
      · exact .inl old
      · exact .inr ⟨rfl, rfl, rfl⟩
  · rename_i missing
    constructor
    · exact .inl
    · rintro (old | ⟨⟨rfl, rfl, rfl⟩, exist⟩)
      · exact old
      · exact absurd (by simpa using exist) missing

/-- After binds there are the bindings from before and those of the binds
whose queue and exchange exist. -/
theorem bound_after (binds : List BindRequest) (state : ServerState) :
    (runFrom apply state (binds.map BindRequest.operation)).queues =
        state.queues ∧
    (runFrom apply state (binds.map BindRequest.operation)).exchanges =
        state.exchanges ∧
    ∀ exchangeName routingKey queueName,
      (runFrom apply state (binds.map BindRequest.operation)).Bound
          exchangeName routingKey queueName ↔
        state.Bound exchangeName routingKey queueName ∨
          (⟨queueName, exchangeName, routingKey⟩ ∈ binds ∧
            (state.queues queueName).isSome ∧
            (state.exchanges exchangeName).isSome) := by
  induction binds generalizing state with
  | nil => simp
  | cons bind binds ih =>
      obtain ⟨queues, exchanges, bound⟩ := ih (state.apply bind.operation)
      have runs : runFrom apply state ((bind :: binds).map
          BindRequest.operation) = runFrom apply (state.apply bind.operation)
            (binds.map BindRequest.operation) :=
        rfl
      have sameQueues : (state.apply bind.operation).queues =
          state.queues := by
        simp only [apply, BindRequest.operation, bindQueue]
        split <;> rfl
      have sameExchanges : (state.apply bind.operation).exchanges =
          state.exchanges := by
        simp only [apply, BindRequest.operation, bindQueue]
        split <;> rfl
      rw [runs]
      refine ⟨queues.trans sameQueues, exchanges.trans sameExchanges, ?_⟩
      intro exchangeName routingKey queueName
      rw [bound, bound_bindQueue, sameQueues, sameExchanges, List.mem_cons]
      constructor
      · rintro ((old | ⟨isThis, exist⟩) | ⟨later, exist⟩)
        · exact .inl old
        · exact .inr ⟨.inl isThis.symm, exist⟩
        · exact .inr ⟨.inr later, exist⟩
      · rintro (old | ⟨isThis | later, exist⟩)
        · exact .inl (.inl old)
        · exact .inl (.inr ⟨isThis.symm, exist⟩)
        · exact .inr ⟨later, exist⟩

/-- Two orders of the same declarations, followed by the same binds, set up
the same topology. -/
theorem sameTopology_setUp (state : ServerState)
    {first second : List Declaration} {firstBinds secondBinds :
      List BindRequest}
    (sameDeclarations : ∀ declaration,
      declaration ∈ first ↔ declaration ∈ second)
    (sameBinds : ∀ bind, bind ∈ firstBinds ↔ bind ∈ secondBinds) :
    SameTopology (state.setUp first firstBinds)
      (state.setUp second secondBinds) := by
  unfold setUp
  obtain ⟨queues, exchanges, bindings⟩ := declared_after first state
  obtain ⟨otherQueues, otherExchanges, otherBindings⟩ :=
    declared_after second state
  generalize runFrom apply state (first.map Declaration.operation) =
    declared at queues exchanges bindings ⊢
  generalize runFrom apply state (second.map Declaration.operation) =
    otherDeclared at otherQueues otherExchanges otherBindings ⊢
  obtain ⟨keptQueues, keptExchanges, bound⟩ := bound_after firstBinds declared
  obtain ⟨otherKeptQueues, otherKeptExchanges, otherBound⟩ :=
    bound_after secondBinds otherDeclared
  have boundBefore : ∀ exchangeName routingKey queueName,
      declared.Bound exchangeName routingKey queueName ↔
        otherDeclared.Bound exchangeName routingKey queueName := by
    intro exchangeName routingKey queueName
    unfold Bound
    rw [bindings, otherBindings]
  constructor
  · intro queueName
    rw [keptQueues, otherKeptQueues, queues, otherQueues, sameDeclarations]
  · intro exchangeName
    rw [keptExchanges, otherKeptExchanges, exchanges, otherExchanges,
      sameDeclarations]
  · intro exchangeName routingKey queueName
    rw [bound, otherBound, boundBefore, sameBinds, queues, otherQueues,
      exchanges, otherExchanges, sameDeclarations, sameDeclarations]

end ServerState

/-- In every interleaving of calls the bindings of every exchange are
distinct and lead from declared exchanges to existing queues; no step removes
a queue, an exchange or a binding; and the order of declarations and of the
binds that follow them does not matter. -/
theorem topology_integrity :
    (∀ maxQueueSize broker,
      Reachable Broker.step (Broker.new maxQueueSize) broker →
        broker.shared.Integrity) ∧
    (∀ before event after, Broker.step before event = some after →
      before.shared.StillDeclares after.shared) ∧
    ∀ (state : ServerState) (first second : List Declaration)
      (firstBinds secondBinds : List BindRequest),
      (∀ declaration, declaration ∈ first ↔ declaration ∈ second) →
        (∀ bind, bind ∈ firstBinds ↔ bind ∈ secondBinds) →
          SameTopology (state.setUp first firstBinds)
            (state.setUp second secondBinds) := by
  refine ⟨?_, ?_, ?_⟩
  · intro maxQueueSize broker reached
    exact Broker.integrity_of_reachable reached
  · intro before event after stepTo
    exact Broker.stillDeclares_step stepTo
  · intro state first second firstBinds secondBinds sameDeclarations
      sameBinds
    exact sameTopology_setUp state sameDeclarations sameBinds

/-- A bind of a queue that a consumer's registration creates between the
invocation and the bind's first access. -/
def bindingRun : List Broker.Event :=
  [.invoke (.declareExchange "e"), .advance 0 Broker.savedReading,
    .invoke (.bindQueue "q" "e" "k"), .invoke (.registerConsumer "q" 0)] ++
  Broker.accesses 2 2 ++ Broker.accesses 1 3

theorem topology_integrity_bindingRun :
    (∃ broker, Reachable Broker.step (Broker.new 10) broker ∧
      broker.shared.bindings "e" = some [("q", "k")] ∧
      broker.shared.Integrity) ∧
    SameTopology
      ((ServerState.new 10).setUp [.queue "q", .exchange "e"]
        [⟨"q", "e", "k"⟩, ⟨"p", "e", "k"⟩])
      ((ServerState.new 10).setUp [.exchange "e", .queue "q", .exchange "e"]
        [⟨"p", "e", "k"⟩, ⟨"q", "e", "k"⟩]) := by
  obtain ⟨integrity, -, orders⟩ := topology_integrity
  constructor
  · have ran : (executeWhile Broker.step (fun _ _ => True) (Broker.new 10)
        bindingRun).map (fun broker => broker.shared.bindings "e") =
        some (some [("q", "k")]) := by
      decide +kernel
    obtain ⟨broker, reached, isBound⟩ := exists_reachableWhile_of_map ran
    exact ⟨broker, reached, isBound, integrity 10 broker reached⟩
  · apply orders
    · intro declaration
      simp only [List.mem_cons, List.not_mem_nil, or_false]
      tauto
    · intro bind
      simp only [List.mem_cons, List.not_mem_nil, or_false]
      tauto

end CipherMQ
