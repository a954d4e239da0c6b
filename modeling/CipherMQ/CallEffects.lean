import CipherMQ.CallSteps
import CipherMQ.OperationEffects

/-!
# What one access of a call does

Every access of a call changes at most one of the shared maps.  `Access` lists
the changes with the calls that make them; the results about interleaved runs
go through this list instead of the step functions.  The first of them is that
the topology of the broker stays well formed in every interleaving.
-/

namespace CipherMQ

open ServerState

/-- The changes of the shared state that the next access of a call can make. -/
inductive Access (state : ServerState) : Call → ServerState → Prop
  | look (call : Call) : Access state call state
  | tellStorage (call : Call) (storage : Storage) :
      Access state call { state with storage := storage }
  | declareQueue (call : Call) (queueName : String) :
      Access state call (state.declareQueue queueName)
  | declareExchange (call : Call) (exchangeName : String) :
      Access state call (state.declareExchange exchangeName)
  | insertBinding (queueName exchangeName routingKey : String) :
      Access state (.bindQueue queueName exchangeName routingKey
          .insertBinding)
        (state.insertBinding queueName exchangeName routingKey)
  | append (request : PublishRequest) (targets queueSet : List String)
      (queueName : String) (remaining : List String)
      (queue : List QueueEntry) :
      state.queues queueName = some queue →
        Access state (.publish request
            (.enqueue targets queueSet (queueName :: remaining)))
          { state with
            queues := state.queues.insert queueName
              (appended state.maxQueueSize request.message queue) }
  | evictIndex (request : PublishRequest)
      (targets queueSet remaining : List String)
      (queueName oldMessageId : String) :
      Access state (.publish request (.evictIndex targets queueSet remaining
          queueName oldMessageId))
        (state.evictFromIndex queueName oldMessageId)
  | evictStatus (request : PublishRequest)
      (targets queueSet remaining : List String) (oldMessageId : String) :
      Access state (.publish request (.evictStatus targets queueSet remaining
          oldMessageId))
        (state.evictStatus oldMessageId)
  | insertIndex (request : PublishRequest) (targets queueSet : List String) :
      Access state (.publish request (.enqueue targets queueSet []))
        { state with
          messageQueues :=
            state.messageQueues.insert request.message.messageId queueSet }
  | insertStatus (request : PublishRequest) (targets : List String) :
      Access state (.publish request (.insertStatus targets))
        { state with
          messageStatus :=
            state.messageStatus.insert request.message.messageId
              (.sent request.receivedTime) }
  | notify (request : PublishRequest) (queueName : String)
      (remaining : List String) :
      Access state (.publish request (.notify (queueName :: remaining)))
        (state.notified request.message [queueName])
  | addConsumer (queueName : String) (sender : ChannelId) :
      Access state (.registerConsumer queueName sender .addConsumer)
        (state.addConsumer queueName sender)
  | spawn (queueName : String) (sender : ChannelId)
      (captured : List QueueEntry) :
      Access state (.registerConsumer queueName sender
          (.readStatus captured []))
        (state.spawn ⟨sender, queueName, captured⟩)
  | markAcknowledged (messageId : String) (now : Nat) :
      Access state (.acknowledge messageId .markAcknowledged)
        (state.markAcknowledged messageId now)
  | removeFrom (messageId queueName : String) (remaining : List String) :
      Access state (.acknowledge messageId
          (.removeFrom (queueName :: remaining)))
        (removeFromQueue messageId state queueName)
  | removeIndex (messageId : String) :
      Access state (.acknowledge messageId .removeIndex)
        { state with messageQueues := state.messageQueues.remove messageId }
  | removeStatus (messageId : String) :
      Access state (.acknowledge messageId .removeStatus)
        { state with messageStatus := state.messageStatus.remove messageId }

theorem access_advance (reading : Reading) (state : ServerState)
    (call : Call) :
    Access state call (call.advance reading state).1 := by
  cases call with
  | declareQueue queueName point =>
      cases point with
      | declare => exact .declareQueue _ queueName
      | returned => exact .look _
  | declareExchange exchangeName point =>
      cases point with
      | declare => exact .declareExchange _ exchangeName
      | returned => exact .look _
  | bindQueue queueName exchangeName routingKey point =>
      cases point with
      | checkQueue =>
          simp only [Call.advance, bindQueueStep]
          split <;> exact .look _
      | checkExchange =>
          simp only [Call.advance, bindQueueStep]
          split <;> exact .look _
      | insertBinding => exact .insertBinding queueName exchangeName routingKey
      | returned => exact .look _
  | publish request point =>
      cases point with
      | checkDuplicate =>
          simp only [Call.advance, publishStep]
          split <;> exact .look _
      | saveMetadata =>
          simp only [Call.advance, publishStep]
          split <;> exact .tellStorage _ _
      | findTargets =>
          simp only [Call.advance, publishStep]
          split <;> exact .look _
      | enqueue targets queueSet remaining =>
          cases remaining with
          | nil => exact .insertIndex request targets queueSet
          | cons queueName remaining =>
              simp only [Call.advance, publishStep]
              split
              · exact .look _
              · rename_i queue found
                split <;> exact .append request targets queueSet queueName
                  remaining queue found
      | evictIndex targets queueSet remaining queueName oldMessageId =>
          exact .evictIndex request targets queueSet remaining queueName
            oldMessageId
      | evictStatus targets queueSet remaining oldMessageId =>
          exact .evictStatus request targets queueSet remaining oldMessageId
      | insertStatus targets => exact .insertStatus request targets
      | notify remaining =>
          cases remaining with
          | nil => exact .look _
          | cons queueName remaining =>
              change Access state _
                (notifyConsumers request.message state queueName)
              rw [notifyConsumers_eq]
              exact .notify request queueName remaining
      | returned result => exact .look _
  | registerConsumer queueName sender point =>
      cases point with
      | declareQueue => exact .declareQueue _ queueName
      | addConsumer => exact .addConsumer queueName sender
      | readQueue =>
          simp only [Call.advance, registerConsumerStep]
          split
          · split <;> exact .look _
          · exact .look _
      | readStatus captured unread =>
          cases unread with
          | nil => exact .spawn queueName sender captured
          | cons entry unread =>
              simp only [Call.advance, registerConsumerStep]
              split <;> exact .look _
      | returned task => exact .look _
  | acknowledge messageId point =>
      cases point with
      | checkStatus =>
          simp only [Call.advance, acknowledgeStep]
          split <;> exact .look _
      | markAcknowledged => exact .markAcknowledged messageId reading.now
      | report => exact .tellStorage _ _
      | readQueueSet => exact .look _
      | removeFrom remaining =>
          cases remaining with
          | nil => exact .look _
          | cons queueName remaining =>
              simp only [Call.advance, acknowledgeStep]
              split
              · exact .removeFrom messageId queueName remaining
              · exact .look _
      | removeIndex => exact .removeIndex messageId
      | removeStatus => exact .removeStatus messageId
      | returned => exact .look _

namespace Access

variable {before after : ServerState} {call : Call}
  (access : Access before call after)

include access

theorem queues_isSome {queueName : String}
    (present : (before.queues queueName).isSome) :
    (after.queues queueName).isSome := by
  cases access with
  | declareQueue _ other =>
      by_cases same : queueName = other
      · simp [ServerState.declareQueue, same]
      · simpa [ServerState.declareQueue, same] using present
  | append request targets queueSet other remaining queue found =>
      by_cases same : queueName = other
      · simp [same]
      · simpa [same] using present
  | removeFrom messageId other remaining =>
      by_cases same : queueName = other
      · simpa [removeFromQueue, same] using present
      · simpa [removeFromQueue, same] using present
  | _ => exact present

/-- Only the last access of a bind changes the bindings. -/
theorem bindings_eq
    (notBind : ∀ queueName exchangeName routingKey,
      call ≠ .bindQueue queueName exchangeName routingKey .insertBinding) :
    after.bindings = before.bindings := by
  cases access with
  | insertBinding queueName exchangeName routingKey =>
      exact (notBind queueName exchangeName routingKey rfl).elim
  | _ => rfl

theorem bound {exchangeName routingKey queueName : String}
    (bound : before.Bound exchangeName routingKey queueName) :
    after.Bound exchangeName routingKey queueName := by
  cases access with
  | insertBinding other otherExchange otherKey =>
      exact (bound_insertBinding _ _ _ _ _ _ _).mpr (Or.inl bound)
  | _ => exact bound

theorem channel_push (channel : ChannelId) :
    ∃ more, after.channels channel = (before.channels channel).push more := by
  cases access with
  | notify request queueName remaining => exact ⟨_, rfl⟩
  | _ => exact ⟨[], (Channel.push_nil _).symm⟩

theorem consumer_kept {queueName : String} {sender : ChannelId}
    (isOpen : (before.channels sender).closed = false)
    (registered : sender ∈ (before.consumers queueName).getD []) :
    sender ∈ (after.consumers queueName).getD [] := by
  cases access with
  | notify request other remaining =>
      by_cases same : queueName = other
      · cases listed : before.consumers queueName with
        | none => simp [listed] at registered
        | some senders =>
            subst same
            simp only [listed, Option.getD_some] at registered
            simp [notified, listed, openSenders, registered, isOpen]
      · simpa [notified, same] using registered
  | addConsumer other newSender =>
      by_cases same : queueName = other
      · subst same
        simp [ServerState.addConsumer, registered]
      · simpa [ServerState.addConsumer, same] using registered
  | _ => exact registered

/-- Only the last access of a registration spawns a task. -/
theorem tasks_eq
    (notSpawn : ∀ queueName sender captured,
      call ≠ .registerConsumer queueName sender (.readStatus captured [])) :
    after.deliveryTasks = before.deliveryTasks := by
  cases access with
  | spawn queueName sender captured =>
      exact (notSpawn queueName sender captured rfl).elim
  | _ => rfl

theorem tasks_append :
    ∃ more, after.deliveryTasks = before.deliveryTasks ++ more := by
  cases access with
  | spawn queueName sender captured => exact ⟨_, rfl⟩
  | _ => exact ⟨[], (List.append_nil _).symm⟩

end Access

/-- The next access of the call evicts this message from a queue or takes part
in acknowledging it. -/
def Disturbs (messageId : String) (state : ServerState) : Call → Prop
  | .publish _ (.enqueue _ _ (queueName :: _)) =>
      state.evictedFrom queueName = some messageId
  | .publish _ (.evictIndex _ _ _ _ oldMessageId) =>
      oldMessageId = messageId
  | .publish _ (.evictStatus _ _ _ oldMessageId) => oldMessageId = messageId
  | .acknowledge other point => other = messageId ∧ point ≠ .checkStatus
  | _ => False

instance (messageId : String) (state : ServerState) (call : Call) :
    Decidable (Disturbs messageId state call) := by
  unfold Disturbs
  split <;> infer_instance

namespace Access

variable {before after : ServerState} {call : Call}
  (access : Access before call after)

include access

theorem entry_kept {queueName : String} {entry : QueueEntry}
    (undisturbed : ¬ Disturbs entry.1 before call)
    (stored : ∃ queue, before.queues queueName = some queue ∧
      entry ∈ queue) :
    ∃ queue, after.queues queueName = some queue ∧ entry ∈ queue := by
  obtain ⟨queue, found, member⟩ := stored
  cases access with
  | declareQueue _ other =>
      refine ⟨queue, ?_, member⟩
      by_cases same : queueName = other
      · subst same
        simp [ServerState.declareQueue, found]
      · simpa [ServerState.declareQueue, same] using found
  | append request targets queueSet other remaining otherQueue otherFound =>
      by_cases same : queueName = other
      · subst same
        rw [found] at otherFound
        cases otherFound
        refine ⟨_, by simp; rfl, ?_⟩
        -- The entry is not the one at the front of a full queue.
        have kept : entry ∈ (popOldest before.maxQueueSize queue).2 := by
          rw [popOldest_snd]
          split
          · rename_i full
            cases queue with
            | nil => cases member
            | cons front rest =>
                rcases List.mem_cons.mp member with rfl | inRest
                · refine (undisturbed ?_).elim
                  simp only [Disturbs, evictedFrom, found, Option.bind_some,
                    popOldest_fst, full, if_true]
                  rfl
                · exact inRest
          · exact member
        exact List.mem_append_left _ kept
      · exact ⟨queue, by simpa [same] using found, member⟩
  | removeFrom messageId other remaining =>
      by_cases same : queueName = other
      · subst same
        refine ⟨_, by simp [removeFromQueue, found]; rfl, ?_⟩
        rw [List.mem_filter]
        refine ⟨member, ?_⟩
        simp only [Bool.not_eq_eq_eq_not, Bool.not_true,
          decide_eq_false_iff_not]
        intro sameId
        exact undisturbed ⟨sameId.symm, by simp⟩
      · exact ⟨queue, by simpa [removeFromQueue, same] using found, member⟩
  | _ => exact ⟨queue, found, member⟩

theorem deliverable_kept {entry : QueueEntry}
    (undisturbed : ¬ Disturbs entry.1 before call)
    (live : before.deliverable entry = true) :
    after.deliverable entry = true := by
  unfold deliverable at live ⊢
  cases access with
  | evictStatus request targets queueSet remaining oldMessageId =>
      have different : entry.1 ≠ oldMessageId := by
        rintro rfl
        exact undisturbed rfl
      simpa [ServerState.evictStatus, different] using live
  | insertStatus request targets =>
      by_cases same : entry.1 = request.message.messageId
      · simp [same]
      · simpa [same] using live
  | markAcknowledged messageId now =>
      have different : entry.1 ≠ messageId := by
        rintro rfl
        exact undisturbed ⟨rfl, by simp⟩
      simpa [ServerState.markAcknowledged, different] using live
  | removeStatus messageId =>
      have different : entry.1 ≠ messageId := by
        rintro rfl
        exact undisturbed ⟨rfl, by simp⟩
      simpa [different] using live
  | _ => exact live

end Access

namespace Broker

/-- A call that is about to record a binding has seen its queue. -/
def QueueSeen (state : ServerState) : Call → Prop
  | .bindQueue queueName _ _ .checkExchange =>
      (state.queues queueName).isSome
  | .bindQueue queueName _ _ .insertBinding =>
      (state.queues queueName).isSome
  | _ => True

/-- The topology of a broker whose calls interleave. -/
structure WellFormed (broker : Broker) : Prop where
  topology : broker.shared.Topology
  queue_seen : ∀ call ∈ broker.calls, QueueSeen broker.shared call

theorem QueueSeen.mono {before after : ServerState} {call : Call}
    (kept : ∀ queueName, (before.queues queueName).isSome →
      (after.queues queueName).isSome)
    (seen : QueueSeen before call) : QueueSeen after call := by
  cases call with
  | bindQueue queueName exchangeName routingKey point =>
      cases point with
      | checkExchange => exact kept queueName seen
      | insertBinding => exact kept queueName seen
      | _ => trivial
  | _ => trivial

/-- An access to the queue before the binding leaves the call with a queue it
has seen. -/
theorem QueueSeen.advance {state : ServerState} {call : Call}
    (seen : QueueSeen state call) (reading : Reading) :
    QueueSeen (call.advance reading state).1
      (call.advance reading state).2 := by
  cases call with
  | bindQueue queueName exchangeName routingKey point =>
      cases point with
      | checkQueue =>
          by_cases present : state.queues.containsKey queueName
          · simp only [Call.advance, bindQueueStep, present, if_true]
            exact present
          · simp only [Call.advance, bindQueueStep, present]
            trivial
      | checkExchange =>
          by_cases present : state.exchanges.containsKey exchangeName
          · simp only [Call.advance, bindQueueStep, present, if_true]
            exact seen
          · simp only [Call.advance, bindQueueStep, present]
            trivial
      | insertBinding => trivial
      | returned => trivial
  | declareQueue queueName point => cases point <;> trivial
  | declareExchange exchangeName point => cases point <;> trivial
  | publish request point => trivial
  | registerConsumer queueName sender point => trivial
  | acknowledge messageId point => trivial

theorem WellFormed.of_kept {before after : Broker}
    (wellFormed : before.WellFormed)
    (sameBindings : after.shared.bindings = before.shared.bindings)
    (kept : ∀ queueName, (before.shared.queues queueName).isSome →
      (after.shared.queues queueName).isSome)
    (sameCalls : after.calls = before.calls) : after.WellFormed where
  topology := wellFormed.topology.of_queues_kept sameBindings kept
  queue_seen call member :=
    (wellFormed.queue_seen call (sameCalls ▸ member)).mono kept

theorem WellFormed.advance {broker : Broker} (wellFormed : broker.WellFormed)
    {index : Nat} {call : Call} (found : broker.calls[index]? = some call)
    (reading : Reading) :
    WellFormed ⟨(call.advance reading broker.shared).1,
      broker.calls.set index (call.advance reading broker.shared).2⟩ := by
  have access := access_advance reading broker.shared call
  have seen := wellFormed.queue_seen call (List.mem_of_getElem? found)
  constructor
  · by_cases binds : ∃ queueName exchangeName routingKey,
        call = .bindQueue queueName exchangeName routingKey .insertBinding
    · obtain ⟨queueName, exchangeName, routingKey, rfl⟩ := binds
      exact wellFormed.topology.insertBinding seen exchangeName routingKey
    · have notBind : ∀ queueName exchangeName routingKey,
          call ≠ .bindQueue queueName exchangeName routingKey
            .insertBinding := by
        intro queueName exchangeName routingKey same
        exact binds ⟨queueName, exchangeName, routingKey, same⟩
      exact wellFormed.topology.of_queues_kept (access.bindings_eq notBind)
        fun _ present => access.queues_isSome present
  · intro other member
    rcases List.mem_or_eq_of_mem_set member with old | rfl
    · exact (wellFormed.queue_seen other old).mono
        fun _ present => access.queues_isSome present
    · exact seen.advance reading

theorem WellFormed.step {before after : Broker} {event : Event}
    (wellFormed : before.WellFormed)
    (stepTo : before.step event = some after) : after.WellFormed := by
  rcases step_cases stepTo with
    ⟨invocation, -, rfl⟩ | ⟨index, reading, call, -, found, -, rfl⟩ |
    ⟨messageId, reading, -, rfl⟩ | ⟨channel, -, rfl⟩ | ⟨index, -, rfl⟩ |
    ⟨_, _, -, rfl⟩
  · refine ⟨wellFormed.topology, ?_⟩
    intro call member
    rcases List.mem_append.mp member with old | started
    · exact wellFormed.queue_seen call old
    · rw [List.mem_singleton] at started
      subst started
      cases invocation <;> trivial
  · exact wellFormed.advance found reading
  · obtain ⟨messageStatus, storage, marked, -⟩ :=
      markDelivered_frame before.shared messageId reading.now reading.time
    rw [marked]
    exact wellFormed.of_kept rfl (fun _ present => present) rfl
  · exact wellFormed.of_kept rfl (fun _ present => present) rfl
  · obtain ⟨channels, deliveryTasks, ran⟩ :=
      runDeliveryTask_frame before.shared index
    rw [ran]
    exact wellFormed.of_kept rfl (fun _ present => present) rfl
  · exact wellFormed.of_kept rfl (fun _ present => present) rfl

/-- The topology is well formed in every interleaving. -/
theorem wellFormed_of_reachable {maxQueueSize : Nat} {broker : Broker}
    (reached : Reachable step (new maxQueueSize) broker) :
    broker.WellFormed := by
  apply reached.invariant WellFormed
  · exact ⟨topology_new maxQueueSize, by simp [new]⟩
  · intro before event after wellFormed _ stepTo
    exact wellFormed.step stepTo

end Broker

end CipherMQ
