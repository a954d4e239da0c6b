import CipherMQ.CallSteps

/-!
# Uninterrupted calls

A call that runs without interruption has the effect of the corresponding
operation on the broker state.  Hence every state reached by completed
operations is also reached by the broker whose calls interleave, and what is
proved of all interleavings holds there as well.
-/

namespace CipherMQ

open ServerState

/-- A call run to completion, with what it returns. -/
def Invocation.run (reading : Reading) (state : ServerState) :
    Invocation → ServerState × Except String Unit
  | .declareQueue queueName => (state.declareQueue queueName, .ok ())
  | .declareExchange exchangeName =>
      (state.declareExchange exchangeName, .ok ())
  | .bindQueue queueName exchangeName routingKey =>
      (state.bindQueue queueName exchangeName routingKey, .ok ())
  | .publish request =>
      state.publish request.exchangeName request.routingKey request.message
        request.clientId request.receivedTime reading.time reading.reply
  | .registerConsumer queueName sender =>
      (state.registerConsumer queueName sender, .ok ())
  | .acknowledge messageId =>
      (state.acknowledge messageId reading.now reading.time, .ok ())

namespace Broker

/-- The brokers reached while only one call advances, always on the same
readings. -/
def Alone (index : Nat) (reading : Reading) : Broker → Broker → Prop :=
  ReachableWhile step fun _ event => event = .advance index reading

section Alone

variable {index : Nat} {reading : Reading} {calls : List Call}
  (inRange : index < calls.length)

include inRange

/-- One access of a running call, followed by the rest of its run. -/
theorem alone_of_advance {before after : ServerState} {call next : Call}
    {final : Broker} (running : call.isReturned = false)
    (advances : call.advance reading before = (after, next))
    (rest : Alone index reading ⟨after, calls.set index next⟩ final) :
    Alone index reading ⟨before, calls.set index call⟩ final := by
  have first : Alone index reading ⟨before, calls.set index call⟩
      ⟨after, calls.set index next⟩ := by
    refine .next (.advance index reading) .start rfl ?_
    simp [step, inRange, running, advances]
  exact first.trans rest

/-! ## Publishing -/

theorem alone_of_publishStep {before after : ServerState}
    {request : PublishRequest} {point next : PublishPoint} {final : Broker}
    (running : (Call.publish request point).isReturned = false)
    (advances : before.publishStep request reading point = (after, next))
    (rest : Alone index reading
      ⟨after, calls.set index (.publish request next)⟩ final) :
    Alone index reading
      ⟨before, calls.set index (.publish request point)⟩ final :=
  alone_of_advance inRange running (by simp [Call.advance, advances]) rest

theorem alone_enqueue (request : PublishRequest) (state : ServerState)
    (targets queueSet : List String) (queueName : String)
    (remaining : List String) {final : Broker}
    (rest : Alone index reading
      ⟨(enqueue request.message state queueSet queueName).1,
        calls.set index (.publish request (.enqueue targets
          (enqueue request.message state queueSet queueName).2
          remaining))⟩ final) :
    Alone index reading
      ⟨state, calls.set index (.publish request
        (.enqueue targets queueSet (queueName :: remaining)))⟩ final := by
  cases found : state.queues queueName with
  | none =>
      simp only [enqueue, found] at rest
      exact alone_of_publishStep inRange rfl
        (by simp [publishStep, found]) rest
  | some queue =>
      simp only [enqueue, found] at rest
      cases popped : (popOldest state.maxQueueSize queue).1 with
      | none =>
          rw [popped] at rest
          refine alone_of_publishStep inRange rfl ?_ rest
          simp only [publishStep, found, popped]
          rfl
      | some oldMessageId =>
          rw [popped] at rest
          refine alone_of_publishStep inRange rfl
            (by simp only [publishStep, found, popped]; rfl) ?_
          refine alone_of_publishStep inRange rfl rfl ?_
          exact alone_of_publishStep inRange rfl rfl rest

theorem alone_enqueueAll (request : PublishRequest) (state : ServerState)
    (targets queueSet remaining : List String) {final : Broker}
    (rest : Alone index reading
      ⟨(enqueueAll request.message state queueSet remaining).1,
        calls.set index (.publish request (.enqueue targets
          (enqueueAll request.message state queueSet remaining).2 []))⟩
      final) :
    Alone index reading
      ⟨state, calls.set index (.publish request
        (.enqueue targets queueSet remaining))⟩ final := by
  induction remaining generalizing state queueSet with
  | nil => exact rest
  | cons queueName remaining ih =>
      refine alone_enqueue inRange request state targets queueSet queueName
        remaining ?_
      exact ih _ _ rest

theorem alone_notifyAll (request : PublishRequest) (state : ServerState)
    (targets : List String) :
    Alone index reading
      ⟨state, calls.set index (.publish request (.notify targets))⟩
      ⟨targets.foldl (notifyConsumers request.message) state,
        calls.set index (.publish request (.returned (.ok ())))⟩ := by
  induction targets generalizing state with
  | nil => exact alone_of_publishStep inRange rfl rfl .start
  | cons queueName remaining ih =>
      exact alone_of_publishStep inRange rfl rfl (ih _)

theorem alone_publish (request : PublishRequest) (state : ServerState) :
    Alone index reading
      ⟨state, calls.set index (.publish request .checkDuplicate)⟩
      ⟨(state.publish request.exchangeName request.routingKey
          request.message request.clientId request.receivedTime reading.time
          reading.reply).1,
        calls.set index (.publish request (.returned
          (state.publish request.exchangeName request.routingKey
            request.message request.clientId request.receivedTime
            reading.time reading.reply).2))⟩ := by
  unfold ServerState.publish
  by_cases duplicate :
      state.messageStatus.containsKey request.message.messageId
  · rw [if_pos duplicate]
    exact alone_of_publishStep inRange rfl (if_pos duplicate) .start
  · rw [if_neg duplicate]
    refine alone_of_publishStep inRange rfl (if_neg duplicate) ?_
    cases saved : state.storage.saveMetadata
        (publishMetadata request.exchangeName request.routingKey
          request.message request.clientId reading.time) reading.reply with
    | mk storage reply =>
        cases reply with
        | error error =>
            exact alone_of_publishStep inRange rfl
              (by simp [publishStep, saved]) .start
        | ok value =>
            refine alone_of_publishStep inRange rfl
              (by simp only [publishStep, saved]; rfl) ?_
            dsimp only
            generalize ({ state with storage := storage } : ServerState) =
              stored
            split
            · rename_i unbound
              exact alone_of_publishStep inRange rfl (if_pos unbound) .start
            · rename_i bound
              refine alone_of_publishStep inRange rfl (if_neg bound) ?_
              refine alone_enqueueAll inRange request stored _ [] _ ?_
              refine alone_of_publishStep inRange rfl rfl ?_
              refine alone_of_publishStep inRange rfl rfl ?_
              exact alone_notifyAll inRange request _ _

/-! ## Acknowledging -/

theorem alone_of_acknowledgeStep {before after : ServerState}
    {messageId : String} {point next : AcknowledgePoint} {final : Broker}
    (running : (Call.acknowledge messageId point).isReturned = false)
    (advances :
      before.acknowledgeStep messageId reading point = (after, next))
    (rest : Alone index reading
      ⟨after, calls.set index (.acknowledge messageId next)⟩ final) :
    Alone index reading
      ⟨before, calls.set index (.acknowledge messageId point)⟩ final :=
  alone_of_advance inRange running (by simp [Call.advance, advances]) rest

/-- The walk over the queue set.  Nothing strikes a queue off meanwhile. -/
theorem alone_removeFrom (messageId : String) (state : ServerState)
    (remaining : List String)
    (listed : ∀ queueName ∈ remaining,
      queueName ∈ (state.messageQueues messageId).getD []) {final : Broker}
    (rest : Alone index reading
      ⟨remaining.foldl (removeFromQueue messageId) state,
        calls.set index (.acknowledge messageId (.removeFrom []))⟩ final) :
    Alone index reading
      ⟨state, calls.set index (.acknowledge messageId
        (.removeFrom remaining))⟩ final := by
  induction remaining generalizing state with
  | nil => exact rest
  | cons queueName remaining ih =>
      refine alone_of_acknowledgeStep inRange rfl
        (if_pos (listed queueName (by simp))) ?_
      refine ih _ ?_ rest
      intro other member
      exact listed other (by simp [member])

theorem alone_acknowledge (messageId : String) (state : ServerState) :
    Alone index reading
      ⟨state, calls.set index (.acknowledge messageId .checkStatus)⟩
      ⟨state.acknowledge messageId reading.now reading.time,
        calls.set index (.acknowledge messageId .returned)⟩ := by
  unfold ServerState.acknowledge
  by_cases tracked : state.messageStatus.containsKey messageId
  · rw [if_pos tracked]
    refine alone_of_acknowledgeStep inRange rfl (if_pos tracked) ?_
    refine alone_of_acknowledgeStep inRange rfl rfl ?_
    refine alone_of_acknowledgeStep inRange rfl rfl ?_
    refine alone_of_acknowledgeStep inRange rfl rfl ?_
    refine alone_removeFrom inRange messageId _ _ (fun _ member => member) ?_
    refine alone_of_acknowledgeStep inRange rfl rfl ?_
    refine alone_of_acknowledgeStep inRange rfl rfl ?_
    exact alone_of_acknowledgeStep inRange rfl rfl .start
  · rw [if_neg tracked]
    exact alone_of_acknowledgeStep inRange rfl (if_neg tracked) .start

/-! ## Registering a consumer -/

theorem alone_of_registerConsumerStep {before after : ServerState}
    {queueName : String} {sender : ChannelId} {point next : RegisterPoint}
    {final : Broker}
    (running :
      (Call.registerConsumer queueName sender point).isReturned = false)
    (advances :
      before.registerConsumerStep queueName sender point = (after, next))
    (rest : Alone index reading
      ⟨after, calls.set index (.registerConsumer queueName sender next)⟩
      final) :
    Alone index reading
      ⟨before, calls.set index (.registerConsumer queueName sender point)⟩
      final :=
  alone_of_advance inRange running (by simp [Call.advance, advances]) rest

theorem alone_readStatus (queueName : String) (sender : ChannelId)
    (state : ServerState) (captured unread : List QueueEntry)
    {final : Broker}
    (rest : Alone index reading
      ⟨state, calls.set index (.registerConsumer queueName sender
        (.readStatus (captured ++ unread.filter state.deliverable) []))⟩
      final) :
    Alone index reading
      ⟨state, calls.set index (.registerConsumer queueName sender
        (.readStatus captured unread))⟩ final := by
  induction unread generalizing captured with
  | nil => simpa using rest
  | cons entry unread ih =>
      by_cases live : state.deliverable entry
      · refine alone_of_registerConsumerStep inRange rfl (if_pos live) ?_
        refine ih _ ?_
        simpa [live] using rest
      · refine alone_of_registerConsumerStep inRange rfl (if_neg live) ?_
        refine ih _ ?_
        simpa [live] using rest

/-- An uninterrupted registration registers the consumer. -/
theorem alone_registerConsumer (queueName : String) (sender : ChannelId)
    (state : ServerState) :
    ∃ task, Alone index reading
      ⟨state, calls.set index
        (.registerConsumer queueName sender .declareQueue)⟩
      ⟨state.registerConsumer queueName sender,
        calls.set index
          (.registerConsumer queueName sender (.returned task))⟩ := by
  unfold ServerState.registerConsumer
  dsimp only
  have registered : ∀ {final : Broker},
      Alone index reading
        ⟨(state.declareQueue queueName).addConsumer queueName sender,
          calls.set index
            (.registerConsumer queueName sender .readQueue)⟩ final →
      Alone index reading
        ⟨state, calls.set index
          (.registerConsumer queueName sender .declareQueue)⟩ final := by
    intro final rest
    refine alone_of_registerConsumerStep inRange rfl rfl ?_
    exact alone_of_registerConsumerStep inRange rfl rfl rest
  generalize (state.declareQueue queueName).addConsumer queueName sender =
    current at registered
  cases found : current.queues queueName with
  | none =>
      refine ⟨none, registered ?_⟩
      exact alone_of_registerConsumerStep inRange rfl
        (by simp only [registerConsumerStep, found]) .start
  | some queue =>
      by_cases nonempty : 0 < queue.length
      · refine ⟨some current.deliveryTasks.length, registered ?_⟩
        refine alone_of_registerConsumerStep inRange rfl
          (by simp only [registerConsumerStep, found, nonempty, if_true];
              rfl) ?_
        refine alone_readStatus inRange queueName sender current [] queue ?_
        have pending : current.pendingMessages queueName =
            [] ++ queue.filter current.deliverable := by
          simp [pendingMessages, found]
        simp only [nonempty, if_true, pending]
        exact alone_of_registerConsumerStep inRange rfl rfl .start
      · refine ⟨none, registered ?_⟩
        simp only [nonempty, if_false]
        exact alone_of_registerConsumerStep inRange rfl
          (by simp only [registerConsumerStep, found, nonempty, if_false])
          .start

/-! ## Binding -/

theorem alone_of_bindQueueStep {before after : ServerState}
    {queueName exchangeName routingKey : String} {point next : BindPoint}
    {final : Broker}
    (running : (Call.bindQueue queueName exchangeName routingKey
      point).isReturned = false)
    (advances : before.bindQueueStep queueName exchangeName routingKey point =
      (after, next))
    (rest : Alone index reading
      ⟨after, calls.set index
        (.bindQueue queueName exchangeName routingKey next)⟩ final) :
    Alone index reading
      ⟨before, calls.set index
        (.bindQueue queueName exchangeName routingKey point)⟩ final :=
  alone_of_advance inRange running (by simp [Call.advance, advances]) rest

theorem alone_bindQueue (queueName exchangeName routingKey : String)
    (state : ServerState) :
    Alone index reading
      ⟨state, calls.set index
        (.bindQueue queueName exchangeName routingKey .checkQueue)⟩
      ⟨state.bindQueue queueName exchangeName routingKey,
        calls.set index
          (.bindQueue queueName exchangeName routingKey .returned)⟩ := by
  unfold ServerState.bindQueue
  by_cases queueExists : state.queues.containsKey queueName
  · refine alone_of_bindQueueStep inRange rfl (if_pos queueExists) ?_
    by_cases exchangeExists : state.exchanges.containsKey exchangeName
    · rw [if_pos (by rw [queueExists, exchangeExists]; rfl)]
      refine alone_of_bindQueueStep inRange rfl (if_pos exchangeExists) ?_
      exact alone_of_bindQueueStep inRange rfl rfl .start
    · rw [if_neg fun both => exchangeExists (Bool.and_eq_true_iff.mp both).2]
      exact alone_of_bindQueueStep inRange rfl (if_neg exchangeExists) .start
  · rw [if_neg fun both => queueExists (Bool.and_eq_true_iff.mp both).1]
    exact alone_of_bindQueueStep inRange rfl (if_neg queueExists) .start

end Alone

/-! ## Completed operations -/

theorem alone_run (reading : Reading) {index : Nat} {calls : List Call}
    (inRange : index < calls.length) (invocation : Invocation)
    (state : ServerState) :
    ∃ returned : Call,
      Alone index reading ⟨state, calls.set index invocation.start⟩
        ⟨(invocation.run reading state).1, calls.set index returned⟩ ∧
      returned.result = some (invocation.run reading state).2 := by
  cases invocation with
  | declareQueue queueName =>
      exact ⟨_, alone_of_advance inRange rfl rfl .start, rfl⟩
  | declareExchange exchangeName =>
      exact ⟨_, alone_of_advance inRange rfl rfl .start, rfl⟩
  | bindQueue queueName exchangeName routingKey =>
      exact ⟨_, alone_bindQueue inRange queueName exchangeName routingKey
        state, rfl⟩
  | publish request =>
      exact ⟨_, alone_publish inRange request state, rfl⟩
  | registerConsumer queueName sender =>
      obtain ⟨task, ran⟩ :=
        alone_registerConsumer inRange queueName sender state
      exact ⟨_, ran, rfl⟩
  | acknowledge messageId =>
      exact ⟨_, alone_acknowledge inRange messageId state, rfl⟩

/-- A call made on a reachable broker and run without interruption. -/
theorem reachable_run {maxQueueSize : Nat} {broker : Broker}
    (reached : Reachable step (new maxQueueSize) broker)
    (invocation : Invocation) (reading : Reading) :
    ∃ calls, Reachable step (new maxQueueSize)
      ⟨(invocation.run reading broker.shared).1, calls⟩ := by
  have invoked : Reachable step (new maxQueueSize)
      ⟨broker.shared, broker.calls ++ [invocation.start]⟩ :=
    .next (.invoke invocation) reached trivial rfl
  have inRange : broker.calls.length <
      (broker.calls ++ [invocation.start]).length := by
    simp
  obtain ⟨returned, ran, -⟩ := alone_run reading inRange invocation
    broker.shared
  simp only [List.set_append_right _ _ (le_refl _), Nat.sub_self,
    List.set_cons_zero] at ran
  exact ⟨_, invoked.trans (ran.mono fun _ _ _ => trivial)⟩

/-- Completing an operation on a reachable broker is one of its runs. -/
theorem reachable_apply {maxQueueSize : Nat} {broker : Broker}
    (reached : Reachable step (new maxQueueSize) broker)
    (operation : Operation) :
    ∃ calls, Reachable step (new maxQueueSize)
      ⟨broker.shared.apply operation, calls⟩ := by
  cases operation with
  | declareQueue queueName =>
      exact reachable_run reached (.declareQueue queueName) ⟨.ok (), 0, ""⟩
  | declareExchange exchangeName =>
      exact reachable_run reached (.declareExchange exchangeName)
        ⟨.ok (), 0, ""⟩
  | bindQueue queueName exchangeName routingKey =>
      exact reachable_run reached
        (.bindQueue queueName exchangeName routingKey) ⟨.ok (), 0, ""⟩
  | publish exchangeName routingKey message clientId receivedTime sentTime
      reply =>
      exact reachable_run reached
        (.publish ⟨exchangeName, routingKey, message, clientId,
          receivedTime⟩) ⟨reply, 0, sentTime⟩
  | registerConsumer queueName sender =>
      exact reachable_run reached (.registerConsumer queueName sender)
        ⟨.ok (), 0, ""⟩
  | acknowledge messageId now ackTime =>
      exact reachable_run reached (.acknowledge messageId)
        ⟨.ok (), now, ackTime⟩
  | markDelivered messageId now deliveredTime =>
      exact ⟨_, .next (.markDelivered messageId
        ⟨.ok (), now, deliveredTime⟩) reached trivial rfl⟩
  | dropReceiver channel =>
      exact ⟨_, .next (.dropReceiver channel) reached trivial rfl⟩
  | runDeliveryTask index =>
      exact ⟨_, .next (.runDeliveryTask index) reached trivial rfl⟩

/-- Every state reached by completed operations is reached by the broker. -/
theorem reachable_after (maxQueueSize : Nat) (operations : List Operation) :
    ∃ calls, Reachable step (new maxQueueSize)
      ⟨after maxQueueSize operations, calls⟩ := by
  refine runFrom_invariant
    (fun state => ∃ calls, Reachable step (new maxQueueSize) ⟨state, calls⟩)
    ⟨[], .start⟩ ?_ operations
  rintro state operation ⟨calls, reached⟩
  exact reachable_apply reached operation

end Broker

end CipherMQ
