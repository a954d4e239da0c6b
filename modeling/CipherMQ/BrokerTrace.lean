import CipherMQ.CallEffects

/-!
# A broker that remembers who appended what

The entries of a queue, the copies a registration makes of them and what is
sent on a channel do not say which publish they come from, and an id may be
published again.  A trace kept beside the broker stamps every entry with the
call that appended it and follows it through queues, registrations, delivery
tasks and channels.  Without the stamps the trace is what the broker holds.

`TracedTurn` lists what one access of a call does to the broker and its trace
together; the results about queues and consumers go through this list.
-/

namespace CipherMQ

open ServerState

/-- An entry of a queue with the publish call that appended it. -/
abbrev Stamped := Nat × QueueEntry

/-- The stamped contents of a broker.  `log` lists everything ever appended to
a queue, and `captured` and `unread` are the two parts of the copy that a
registration works on. -/
structure Trace where
  log : String → List Stamped
  queues : String → List Stamped
  captured : Nat → List Stamped
  unread : Nat → List Stamped
  tasks : List (List Stamped)
  sent : ChannelId → List Stamped

namespace Trace

def new : Trace :=
  ⟨fun _ => [], fun _ => [], fun _ => [], fun _ => [], [], fun _ => []⟩

def push (trace : Trace) (maxQueueSize : Nat) (queueName : String)
    (entry : Stamped) : Trace :=
  { trace with
    log := Function.update trace.log queueName
      (trace.log queueName ++ [entry])
    queues := Function.update trace.queues queueName
      ((if maxQueueSize ≤ (trace.queues queueName).length then
          (trace.queues queueName).tail
        else
          trace.queues queueName) ++ [entry]) }

def retain (trace : Trace) (messageId queueName : String) : Trace :=
  { trace with
    queues := Function.update trace.queues queueName
      ((trace.queues queueName).filter fun entry => entry.2.1 ≠ messageId) }

def announce (trace : Trace) (state : ServerState) (queueName : String)
    (entry : Stamped) : Trace :=
  { trace with
    sent := fun channel =>
      if (state.channels channel).closed then trace.sent channel
      else trace.sent channel ++ List.replicate
        (((state.consumers queueName).getD []).count channel) entry }

def readQueue (trace : Trace) (index : Nat) (queueName : String) : Trace :=
  { trace with
    captured := Function.update trace.captured index []
    unread := Function.update trace.unread index (trace.queues queueName) }

/-- A registration keeps the next entry of its copy or passes over it. -/
def readStatus (trace : Trace) (index : Nat) (live : Bool) : Trace :=
  { trace with
    captured := Function.update trace.captured index
      (trace.captured index ++
        if live then (trace.unread index).take 1 else [])
    unread := Function.update trace.unread index
      ((trace.unread index).drop 1) }

def spawn (trace : Trace) (index : Nat) : Trace :=
  { trace with tasks := trace.tasks ++ [trace.captured index] }

def runTask (trace : Trace) (state : ServerState) (index : Nat) : Trace :=
  match state.deliveryTasks[index]?, trace.tasks[index]? with
  | some task, some (entry :: rest) =>
      if (state.channels task.channel).closed then
        { trace with tasks := trace.tasks.set index [] }
      else
        { trace with
          tasks := trace.tasks.set index rest
          sent := Function.update trace.sent task.channel
            (trace.sent task.channel ++ [entry]) }
  | _, _ => trace

def access (trace : Trace) (state : ServerState) (index : Nat) :
    Call → Trace
  | .publish request (.enqueue _ _ (queueName :: _)) =>
      if (state.queues queueName).isSome then
        trace.push state.maxQueueSize queueName
          (index, request.message.messageId, request.message)
      else
        trace
  | .publish request (.notify (queueName :: _)) =>
      trace.announce state queueName
        (index, request.message.messageId, request.message)
  | .registerConsumer queueName _ .readQueue =>
      trace.readQueue index queueName
  | .registerConsumer _ _ (.readStatus _ (entry :: _)) =>
      trace.readStatus index (state.deliverable entry)
  | .registerConsumer _ _ (.readStatus _ []) => trace.spawn index
  | .acknowledge messageId (.removeFrom (queueName :: _)) =>
      if queueName ∈ (state.messageQueues messageId).getD [] then
        trace.retain messageId queueName
      else
        trace
  | _ => trace

end Trace

structure TracedBroker where
  broker : Broker
  trace : Trace

namespace TracedBroker

def new (maxQueueSize : Nat) : TracedBroker :=
  ⟨.new maxQueueSize, .new⟩

def follow (traced : TracedBroker) : Broker.Event → Trace
  | .advance index _ =>
      match traced.broker.calls[index]? with
      | some call => traced.trace.access traced.broker.shared index call
      | none => traced.trace
  | .runDeliveryTask index =>
      traced.trace.runTask traced.broker.shared index
  | _ => traced.trace

def step (traced : TracedBroker) (event : Broker.Event) :
    Option TracedBroker :=
  (traced.broker.step event).map fun after => ⟨after, traced.follow event⟩

/-- Every run of a broker can be traced. -/
theorem exists_reachable {maxQueueSize : Nat} {broker : Broker}
    (reached : Reachable Broker.step (.new maxQueueSize) broker) :
    ∃ trace, Reachable step (new maxQueueSize) ⟨broker, trace⟩ := by
  induction reached with
  | start => exact ⟨.new, .start⟩
  | @next before after event reached permitted stepTo ih =>
      obtain ⟨trace, traced⟩ := ih
      refine ⟨follow ⟨before, trace⟩ event, .next event traced trivial ?_⟩
      simp only [step, stepTo]
      rfl

end TracedBroker

/-! ## What one access does to a broker and its trace -/

structure SameFlow (before after : ServerState) : Prop where
  queues : after.queues = before.queues
  consumers : after.consumers = before.consumers
  channels : after.channels = before.channels
  deliveryTasks : after.deliveryTasks = before.deliveryTasks
  maxQueueSize : after.maxQueueSize = before.maxQueueSize

theorem SameFlow.refl (state : ServerState) : SameFlow state state :=
  ⟨rfl, rfl, rfl, rfl, rfl⟩

def Call.isPlain : Call → Bool
  | .publish _ _ => false
  | .registerConsumer _ _ _ => false
  | _ => true

inductive PublishMove (state : ServerState) (request : PublishRequest) :
    PublishPoint → PublishPoint → Prop
  | fail (point : PublishPoint) (error : String) :
      (point = .checkDuplicate ∨ point = .saveMetadata ∨
        point = .findTargets) →
        PublishMove state request point (.returned (.error error))
  | unknown : PublishMove state request .checkDuplicate .saveMetadata
  | saved : PublishMove state request .saveMetadata .findTargets
  | found :
      PublishMove state request .findTargets
        (.enqueue
          (state.targetQueues request.exchangeName request.routingKey) []
          (state.targetQueues request.exchangeName request.routingKey))
  | evictIndex (targets queueSet remaining : List String)
      (queueName oldMessageId : String) :
      PublishMove state request
        (.evictIndex targets queueSet remaining queueName oldMessageId)
        (.evictStatus targets queueSet remaining oldMessageId)
  | evictStatus (targets queueSet remaining : List String)
      (oldMessageId : String) :
      PublishMove state request
        (.evictStatus targets queueSet remaining oldMessageId)
        (.enqueue targets queueSet remaining)
  | insertIndex (targets queueSet : List String) :
      PublishMove state request (.enqueue targets queueSet [])
        (.insertStatus targets)
  | insertStatus (targets : List String) :
      PublishMove state request (.insertStatus targets) (.notify targets)
  | finish : PublishMove state request (.notify []) (.returned (.ok ()))

/-- The accesses of a call, by what they do to messages. -/
inductive TracedTurn (state : ServerState) (trace : Trace) (index : Nat) :
    Call → ServerState → Call → Trace → Prop
  | plain (call next : Call) (after : ServerState) :
      call.isPlain = true → next.isPlain = true → SameFlow state after →
        TracedTurn state trace index call after next trace
  | declare (queueName : String) :
      TracedTurn state trace index (.declareQueue queueName .declare)
        (state.declareQueue queueName) (.declareQueue queueName .returned)
        trace
  | remove (messageId queueName : String) (remaining : List String) :
      TracedTurn state trace index
        (.acknowledge messageId (.removeFrom (queueName :: remaining)))
        (removeFromQueue messageId state queueName)
        (.acknowledge messageId (.removeFrom remaining))
        (trace.retain messageId queueName)
  | publish (request : PublishRequest) (point next : PublishPoint)
      (after : ServerState) :
      PublishMove state request point next → SameFlow state after →
        TracedTurn state trace index (.publish request point) after
          (.publish request next) trace
  | push (request : PublishRequest) (targets queueSet : List String)
      (queueName : String) (remaining : List String)
      (queue : List QueueEntry) (next : PublishPoint) :
      state.queues queueName = some queue →
        (next = .enqueue targets (queueSet.insert queueName) remaining ∨
          ∃ oldMessageId, next = .evictIndex targets
            (queueSet.insert queueName) remaining queueName oldMessageId) →
          TracedTurn state trace index
            (.publish request
              (.enqueue targets queueSet (queueName :: remaining)))
            { state with
              queues := state.queues.insert queueName
                (appended state.maxQueueSize request.message queue) }
            (.publish request next)
            (trace.push state.maxQueueSize queueName
              (index, request.message.messageId, request.message))
  | skip (request : PublishRequest) (targets queueSet : List String)
      (queueName : String) (remaining : List String) :
      state.queues queueName = none →
        TracedTurn state trace index
          (.publish request
            (.enqueue targets queueSet (queueName :: remaining)))
          state (.publish request (.enqueue targets queueSet remaining))
          trace
  | announce (request : PublishRequest) (queueName : String)
      (remaining : List String) :
      TracedTurn state trace index
        (.publish request (.notify (queueName :: remaining)))
        (state.notified request.message [queueName])
        (.publish request (.notify remaining))
        (trace.announce state queueName
          (index, request.message.messageId, request.message))
  | declareFirst (queueName : String) (sender : ChannelId) :
      TracedTurn state trace index
        (.registerConsumer queueName sender .declareQueue)
        (state.declareQueue queueName)
        (.registerConsumer queueName sender .addConsumer) trace
  | join (queueName : String) (sender : ChannelId) :
      TracedTurn state trace index
        (.registerConsumer queueName sender .addConsumer)
        (state.addConsumer queueName sender)
        (.registerConsumer queueName sender .readQueue) trace
  | capture (queueName : String) (sender : ChannelId)
      (queue : List QueueEntry) :
      state.queues queueName = some queue →
        TracedTurn state trace index
          (.registerConsumer queueName sender .readQueue) state
          (.registerConsumer queueName sender (.readStatus [] queue))
          (trace.readQueue index queueName)
  | captureNone (queueName : String) (sender : ChannelId) :
      (state.queues queueName).getD [] = [] →
        TracedTurn state trace index
          (.registerConsumer queueName sender .readQueue) state
          (.registerConsumer queueName sender (.returned none))
          (trace.readQueue index queueName)
  | readStatus (queueName : String) (sender : ChannelId)
      (captured : List QueueEntry) (entry : QueueEntry)
      (unread : List QueueEntry) :
      TracedTurn state trace index
        (.registerConsumer queueName sender
          (.readStatus captured (entry :: unread)))
        state
        (.registerConsumer queueName sender
          (.readStatus (captured ++
            if state.deliverable entry then [entry] else []) unread))
        (trace.readStatus index (state.deliverable entry))
  | spawn (queueName : String) (sender : ChannelId)
      (captured : List QueueEntry) :
      TracedTurn state trace index
        (.registerConsumer queueName sender (.readStatus captured []))
        (state.spawn ⟨sender, queueName, captured⟩)
        (.registerConsumer queueName sender
          (.returned (some state.deliveryTasks.length)))
        (trace.spawn index)

theorem publishTurn (reading : Reading) (state : ServerState)
    (trace : Trace) (index : Nat) (request : PublishRequest)
    {point : PublishPoint}
    (running : (Call.publish request point).isReturned = false) :
    TracedTurn state trace index (.publish request point)
      (state.publishStep request reading point).1
      (.publish request (state.publishStep request reading point).2)
      (trace.access state index (.publish request point)) := by
  cases point with
  | checkDuplicate =>
      simp only [publishStep]
      split
      · exact .publish request _ _ _ (.fail _ _ (.inl rfl)) (.refl state)
      · exact .publish request _ _ _ .unknown (.refl state)
  | saveMetadata =>
      simp only [publishStep]
      split
      · exact .publish request _ _ _ (.fail _ _ (.inr (.inl rfl)))
          ⟨rfl, rfl, rfl, rfl, rfl⟩
      · exact .publish request _ _ _ .saved ⟨rfl, rfl, rfl, rfl, rfl⟩
  | findTargets =>
      simp only [publishStep]
      split
      · exact .publish request _ _ _ (.fail _ _ (.inr (.inr rfl)))
          (.refl state)
      · exact .publish request _ _ _ .found (.refl state)
  | enqueue targets queueSet remaining =>
      cases remaining with
      | nil =>
          exact .publish request _ _ _ (.insertIndex targets queueSet)
            ⟨rfl, rfl, rfl, rfl, rfl⟩
      | cons queueName remaining =>
          cases found : state.queues queueName with
          | none =>
              simp only [publishStep, Trace.access, found]
              exact .skip request targets queueSet queueName remaining found
          | some queue =>
              simp only [publishStep, Trace.access, found]
              split
              · exact .push request targets queueSet queueName remaining
                  queue _ found (.inr ⟨_, rfl⟩)
              · exact .push request targets queueSet queueName remaining
                  queue _ found (.inl rfl)
  | evictIndex targets queueSet remaining queueName oldMessageId =>
      exact .publish request _ _ _
        (.evictIndex targets queueSet remaining queueName oldMessageId)
        ⟨rfl, rfl, rfl, rfl, rfl⟩
  | evictStatus targets queueSet remaining oldMessageId =>
      exact .publish request _ _ _
        (.evictStatus targets queueSet remaining oldMessageId)
        ⟨rfl, rfl, rfl, rfl, rfl⟩
  | insertStatus targets =>
      exact .publish request _ _ _ (.insertStatus targets)
        ⟨rfl, rfl, rfl, rfl, rfl⟩
  | notify remaining =>
      cases remaining with
      | nil => exact .publish request _ _ _ .finish (.refl state)
      | cons queueName remaining =>
          simp only [publishStep, notifyConsumers_eq]
          exact .announce request queueName remaining
  | returned result => cases running

theorem registerTurn (state : ServerState) (trace : Trace) (index : Nat)
    (queueName : String) (sender : ChannelId) {point : RegisterPoint}
    (running :
      (Call.registerConsumer queueName sender point).isReturned = false) :
    TracedTurn state trace index (.registerConsumer queueName sender point)
      (state.registerConsumerStep queueName sender point).1
      (.registerConsumer queueName sender
        (state.registerConsumerStep queueName sender point).2)
      (trace.access state index
        (.registerConsumer queueName sender point)) := by
  cases point with
  | declareQueue => exact .declareFirst queueName sender
  | addConsumer => exact .join queueName sender
  | readQueue =>
      cases found : state.queues queueName with
      | none =>
          simp only [registerConsumerStep, found]
          exact .captureNone queueName sender (by rw [found]; rfl)
      | some queue =>
          simp only [registerConsumerStep, found]
          split
          · exact .capture queueName sender queue found
          · rename_i isEmpty
            have noEntries : queue = [] :=
              List.length_eq_zero_iff.mp (by omega)
            exact .captureNone queueName sender (by rw [found, noEntries]; rfl)
  | readStatus captured unread =>
      cases unread with
      | nil => exact .spawn queueName sender captured
      | cons entry unread =>
          have turn : TracedTurn state trace index _ state _ _ :=
            .readStatus queueName sender captured entry unread
          simp only [registerConsumerStep, Trace.access]
          split
          · rename_i live
            simpa [live] using turn
          · rename_i dead
            simpa [dead] using turn
  | returned task => cases running

/-- The next access of every running call is in the list. -/
theorem tracedTurn_advance (reading : Reading) (state : ServerState)
    (trace : Trace) (index : Nat) {call : Call}
    (running : call.isReturned = false) :
    TracedTurn state trace index call (call.advance reading state).1
      (call.advance reading state).2 (trace.access state index call) := by
  cases call with
  | declareQueue queueName point =>
      cases point with
      | declare => exact .declare queueName
      | returned => cases running
  | declareExchange exchangeName point =>
      cases point with
      | declare => exact .plain _ _ _ rfl rfl ⟨rfl, rfl, rfl, rfl, rfl⟩
      | returned => cases running
  | bindQueue queueName exchangeName routingKey point =>
      refine .plain _ _ _ rfl rfl ?_
      cases point with
      | checkQueue =>
          simp only [Call.advance, bindQueueStep]
          split <;> exact .refl state
      | checkExchange =>
          simp only [Call.advance, bindQueueStep]
          split <;> exact .refl state
      | insertBinding => exact ⟨rfl, rfl, rfl, rfl, rfl⟩
      | returned => exact .refl state
  | publish request point =>
      exact publishTurn reading state trace index request running
  | registerConsumer queueName sender point =>
      exact registerTurn state trace index queueName sender running
  | acknowledge messageId point =>
      cases point with
      | removeFrom remaining =>
          cases remaining with
          | nil => exact .plain _ _ _ rfl rfl (.refl state)
          | cons queueName remaining =>
              simp only [Call.advance, acknowledgeStep, Trace.access]
              split
              · exact .remove messageId queueName remaining
              · exact .plain _ _ _ rfl rfl (.refl state)
      | checkStatus =>
          simp only [Call.advance, acknowledgeStep]
          split <;> exact .plain _ _ _ rfl rfl (.refl state)
      | _ => exact .plain _ _ _ rfl rfl ⟨rfl, rfl, rfl, rfl, rfl⟩

namespace TracedBroker

/-- The shapes of a step: a call is made, a call advances, a task runs, a
receiver goes away, or no message moves. -/
theorem step_cases {before after : TracedBroker} {event : Broker.Event}
    (stepTo : before.step event = some after) :
    (∃ invocation, event = .invoke invocation ∧
      after = ⟨⟨before.broker.shared,
        before.broker.calls ++ [invocation.start]⟩, before.trace⟩) ∨
    (∃ index reading call shared next trace,
      event = .advance index reading ∧
      before.broker.calls[index]? = some call ∧
      TracedTurn before.broker.shared before.trace index call shared next
        trace ∧
      after = ⟨⟨shared, before.broker.calls.set index next⟩, trace⟩) ∨
    (∃ index, event = .runDeliveryTask index ∧
      after = ⟨⟨before.broker.shared.runDeliveryTask index,
        before.broker.calls⟩,
        before.trace.runTask before.broker.shared index⟩) ∨
    (∃ channel, event = .dropReceiver channel ∧
      after = ⟨⟨before.broker.shared.dropReceiver channel,
        before.broker.calls⟩, before.trace⟩) ∨
    ∃ shared, SameFlow before.broker.shared shared ∧
      after = ⟨⟨shared, before.broker.calls⟩, before.trace⟩ := by
  obtain ⟨broker, stepped, rfl⟩ := Option.map_eq_some_iff.mp stepTo
  rcases Broker.step_cases stepped with
    ⟨invocation, rfl, rfl⟩ |
    ⟨index, reading, call, rfl, found, running, rfl⟩ |
    ⟨messageId, reading, rfl, rfl⟩ | ⟨channel, rfl, rfl⟩ |
    ⟨index, rfl, rfl⟩ | ⟨connectedClients, storage, rfl, rfl⟩
  · exact .inl ⟨invocation, rfl, rfl⟩
  · refine .inr (.inl ⟨index, reading, call, _, _, _, rfl, found,
      tracedTurn_advance reading before.broker.shared before.trace index
        running, ?_⟩)
    simp only [follow, found]
  · obtain ⟨messageStatus, storage, marked, -⟩ :=
      markDelivered_frame before.broker.shared messageId reading.now
        reading.time
    refine .inr (.inr (.inr (.inr ⟨_, ?_, rfl⟩)))
    rw [marked]
    exact ⟨rfl, rfl, rfl, rfl, rfl⟩
  · exact .inr (.inr (.inr (.inl ⟨channel, rfl, rfl⟩)))
  · exact .inr (.inr (.inl ⟨index, rfl, rfl⟩))
  · refine .inr (.inr (.inr (.inr ⟨_, ?_, rfl⟩)))
    exact ⟨rfl, rfl, rfl, rfl, rfl⟩

end TracedBroker

/-! ## The trace without its stamps -/

def Delivery.entry (delivery : Delivery) : QueueEntry :=
  (delivery.messageId, delivery.message)

namespace TracedBroker

/-- Without its stamps the trace is what the broker holds. -/
structure Faithful (traced : TracedBroker) : Prop where
  queues : ∀ queueName, (traced.trace.queues queueName).map Prod.snd =
    (traced.broker.shared.queues queueName).getD []
  reads : ∀ (index : Nat) queueName sender captured unread,
    traced.broker.calls[index]? = some
        (.registerConsumer queueName sender (.readStatus captured unread)) →
      (traced.trace.captured index).map Prod.snd = captured ∧
        (traced.trace.unread index).map Prod.snd = unread
  tasks : traced.trace.tasks.map (List.map Prod.snd) =
    traced.broker.shared.deliveryTasks.map DeliveryTask.remaining
  sent : ∀ channel, (traced.trace.sent channel).map Prod.snd =
    (traced.broker.shared.channels channel).sent.map Delivery.entry

end TracedBroker

section Turns

variable {state after : ServerState} {trace traceAfter : Trace}
  {index : Nat} {call next : Call}
  (turn : TracedTurn state trace index call after next traceAfter)

include turn

theorem TracedTurn.map_queues
    (same : ∀ queueName, (trace.queues queueName).map Prod.snd =
      (state.queues queueName).getD []) (queueName : String) :
    (traceAfter.queues queueName).map Prod.snd =
      (after.queues queueName).getD [] := by
  cases turn with
  | plain _ _ _ _ _ flow | publish _ _ _ _ _ flow =>
      rw [flow.queues]
      exact same queueName
  | declare other | declareFirst other =>
      rw [same]
      by_cases isOther : queueName = other
      · simp [ServerState.declareQueue, isOther]
      · simp [ServerState.declareQueue, isOther]
  | remove messageId other =>
      by_cases isOther : queueName = other
      · subst isOther
        have before := same queueName
        cases found : state.queues queueName with
        | none =>
            rw [found, Option.getD_none, List.map_eq_nil_iff] at before
            simp [Trace.retain, removeFromQueue, found, before]
        | some queue =>
            rw [found, Option.getD_some] at before
            simp only [Trace.retain, removeFromQueue, Function.update_self,
              KeyMap.modify_apply, if_true, found, Option.map_some,
              Option.getD_some, ← before, List.filter_map]
            rfl
      · simp [Trace.retain, removeFromQueue, isOther, same]
  | push request _ _ other _ queue _ found _ =>
      by_cases isOther : queueName = other
      · subst isOther
        have before := same queueName
        rw [found, Option.getD_some] at before
        have sameLength := congrArg List.length before
        rw [List.length_map] at sameLength
        simp only [Trace.push, Function.update_self, KeyMap.insert_apply,
          if_true, Option.getD_some, appended, popOldest_snd, sameLength,
          List.map_append, List.map_cons, List.map_nil]
        split
        · rw [List.map_tail, before]
        · rw [before]
      · simp [Trace.push, isOther, same]
  | skip | announce | join | capture | captureNone | readStatus | spawn =>
      exact same queueName

theorem TracedTurn.map_tasks
    (captured : ∀ queueName sender captured,
      call = .registerConsumer queueName sender (.readStatus captured []) →
        (trace.captured index).map Prod.snd = captured)
    (same : trace.tasks.map (List.map Prod.snd) =
      state.deliveryTasks.map DeliveryTask.remaining) :
    traceAfter.tasks.map (List.map Prod.snd) =
      after.deliveryTasks.map DeliveryTask.remaining := by
  cases turn with
  | plain _ _ _ _ _ flow | publish _ _ _ _ _ flow =>
      rw [flow.deliveryTasks]
      exact same
  | spawn queueName sender copy =>
      simp [Trace.spawn, ServerState.spawn, same,
        captured queueName sender copy rfl]
  | _ => exact same

theorem TracedTurn.map_sent
    (same : ∀ channel, (trace.sent channel).map Prod.snd =
      (state.channels channel).sent.map Delivery.entry)
    (channel : ChannelId) :
    (traceAfter.sent channel).map Prod.snd =
      (after.channels channel).sent.map Delivery.entry := by
  cases turn with
  | plain _ _ _ _ _ flow | publish _ _ _ _ _ flow =>
      rw [flow.channels]
      exact same channel
  | announce request queueName remaining =>
      have before := same channel
      cases isClosed : (state.channels channel).closed with
      | true => simp [Trace.announce, notified, Channel.push, isClosed, before]
      | false =>
          simp [Trace.announce, notified, Channel.push, isClosed, before,
            copies, Delivery.entry]
  | _ => exact same channel

/-- A turn touches the copy of its own call only. -/
theorem TracedTurn.reads_of_ne {other : Nat} (different : other ≠ index) :
    traceAfter.captured other = trace.captured other ∧
      traceAfter.unread other = trace.unread other := by
  cases turn with
  | capture | captureNone => simp [Trace.readQueue, different]
  | readStatus => simp [Trace.readStatus, different]
  | _ => exact ⟨rfl, rfl⟩

theorem TracedTurn.map_reads
    (queues : ∀ queueName, (trace.queues queueName).map Prod.snd =
      (state.queues queueName).getD [])
    (same : ∀ queueName sender captured unread,
      call = .registerConsumer queueName sender
          (.readStatus captured unread) →
        (trace.captured index).map Prod.snd = captured ∧
          (trace.unread index).map Prod.snd = unread)
    {queueName : String} {sender : ChannelId}
    {captured unread : List QueueEntry}
    (isNext : next = .registerConsumer queueName sender
      (.readStatus captured unread)) :
    (traceAfter.captured index).map Prod.snd = captured ∧
      (traceAfter.unread index).map Prod.snd = unread := by
  cases turn with
  | plain _ _ _ _ isPlain _ =>
      rw [isNext] at isPlain
      cases isPlain
  | capture other _ queue found =>
      cases isNext
      have copied := queues queueName
      rw [found] at copied
      simpa [Trace.readQueue] using copied
  | readStatus other _ earlier entry rest =>
      cases isNext
      obtain ⟨isCaptured, isUnread⟩ := same _ _ _ _ rfl
      cases stamped : trace.unread index with
      | nil => simp [stamped] at isUnread
      | cons first others =>
          simp only [stamped, List.map_cons, List.cons.injEq] at isUnread
          simp only [Trace.readStatus, Function.update_self, stamped,
            List.map_append, isCaptured, List.drop_succ_cons,
            List.drop_zero, isUnread.2, and_true]
          split <;> simp [isUnread.1]
  | declare | remove | publish | push | skip | announce | declareFirst
  | join | captureNone | spawn => cases isNext

end Turns

/-- A task that runs does nothing, sends its next entry, or gives up. -/
theorem runTask_cases {state : ServerState} {trace : Trace}
    (same : trace.tasks.map (List.map Prod.snd) =
      state.deliveryTasks.map DeliveryTask.remaining) (index : Nat) :
    (state.runDeliveryTask index = state ∧
      trace.runTask state index = trace) ∨
    ∃ task entry rest, state.deliveryTasks[index]? = some task ∧
      trace.tasks[index]? = some (entry :: rest) ∧
      task.remaining = entry.2 :: rest.map Prod.snd ∧
      state.runDeliveryTask index =
        { state with
          channels := Function.update state.channels task.channel
            ((state.channels task.channel).push
              [⟨task.source, entry.2.1, entry.2.2⟩])
          deliveryTasks := state.deliveryTasks.set index
            { task with
              remaining :=
                if (state.channels task.channel).closed then []
                else rest.map Prod.snd } } ∧
      trace.runTask state index =
        if (state.channels task.channel).closed then
          { trace with tasks := trace.tasks.set index [] }
        else
          { trace with
            tasks := trace.tasks.set index rest
            sent := Function.update trace.sent task.channel
              (trace.sent task.channel ++ [entry]) } := by
  have atIndex := congrArg (fun tasks => tasks[index]?) same
  simp only [List.getElem?_map] at atIndex
  cases found : state.deliveryTasks[index]? with
  | none =>
      left
      simp [runDeliveryTask, Trace.runTask, found]
  | some task =>
      rw [found, Option.map_some] at atIndex
      obtain ⟨stamped, isStamped, isRemaining⟩ :=
        Option.map_eq_some_iff.mp atIndex
      obtain ⟨channel, source, remaining⟩ := task
      subst isRemaining
      cases stamped with
      | nil =>
          left
          simp [runDeliveryTask, Trace.runTask, found, isStamped]
      | cons entry rest =>
          right
          refine ⟨_, entry, rest, rfl, isStamped, rfl, ?_, ?_⟩
          · simp only [runDeliveryTask, found, List.map_cons]
            by_cases closed : (state.channels channel).closed
            · simp [send, closed, Channel.push]
            · simp [send, closed, Channel.push]
          · simp [Trace.runTask, found, isStamped]

namespace TracedBroker

theorem faithful_new (maxQueueSize : Nat) :
    (new maxQueueSize).Faithful := by
  constructor <;> simp [new, Trace.new, Broker.new, ServerState.new]

theorem Faithful.of_flow {traced : TracedBroker} (faithful : traced.Faithful)
    {shared : ServerState} (flow : SameFlow traced.broker.shared shared) :
    Faithful ⟨⟨shared, traced.broker.calls⟩, traced.trace⟩ where
  queues queueName := by
    rw [flow.queues]
    exact faithful.queues queueName
  reads := faithful.reads
  tasks := by
    rw [flow.deliveryTasks]
    exact faithful.tasks
  sent channel := by
    rw [flow.channels]
    exact faithful.sent channel

theorem Faithful.turn {traced : TracedBroker} (faithful : traced.Faithful)
    {index : Nat} {call next : Call} {shared : ServerState} {trace : Trace}
    (found : traced.broker.calls[index]? = some call)
    (turn : TracedTurn traced.broker.shared traced.trace index call shared
      next trace) :
    Faithful ⟨⟨shared, traced.broker.calls.set index next⟩, trace⟩ where
  queues := turn.map_queues faithful.queues
  reads other queueName sender captured unread isCall := by
    rcases getElem?_set_cases isCall with ⟨rfl, isNext⟩ | ⟨different, old⟩
    · exact turn.map_reads faithful.queues
        (fun _ _ _ _ isRead => faithful.reads _ _ _ _ _ (isRead ▸ found))
        isNext.symm
    · obtain ⟨sameCaptured, sameUnread⟩ := turn.reads_of_ne different
      rw [sameCaptured, sameUnread]
      exact faithful.reads other queueName sender captured unread old
  tasks := turn.map_tasks
    (fun _ _ _ isRead => (faithful.reads _ _ _ _ _ (isRead ▸ found)).1)
    faithful.tasks
  sent := turn.map_sent faithful.sent

theorem Faithful.runTask {traced : TracedBroker}
    (faithful : traced.Faithful) (index : Nat) :
    Faithful ⟨⟨traced.broker.shared.runDeliveryTask index,
      traced.broker.calls⟩,
      traced.trace.runTask traced.broker.shared index⟩ := by
  rcases runTask_cases faithful.tasks index with
    ⟨sameState, sameTrace⟩ |
    ⟨task, entry, rest, found, stamped, -, isState, isTrace⟩
  · rw [sameState, sameTrace]
    exact faithful
  · rw [isState, isTrace]
    cases isClosed :
        (traced.broker.shared.channels task.channel).closed with
    | true =>
        refine ⟨faithful.queues, faithful.reads, ?_, ?_⟩
        · simp [List.map_set, faithful.tasks]
        · intro channel
          by_cases isChannel : channel = task.channel
          · subst isChannel
            simpa [Channel.push, isClosed] using faithful.sent task.channel
          · simpa [isChannel] using faithful.sent channel
    | false =>
        refine ⟨faithful.queues, faithful.reads, ?_, ?_⟩
        · simp [List.map_set, faithful.tasks]
        · intro channel
          by_cases isChannel : channel = task.channel
          · subst isChannel
            simpa [Channel.push, isClosed, Delivery.entry] using
              faithful.sent task.channel
          · simpa [isChannel] using faithful.sent channel

theorem Faithful.step {before after : TracedBroker} {event : Broker.Event}
    (faithful : before.Faithful) (stepTo : before.step event = some after) :
    after.Faithful := by
  rcases step_cases stepTo with
    ⟨invocation, -, rfl⟩ |
    ⟨index, reading, call, shared, next, trace, -, found, turn, rfl⟩ |
    ⟨index, -, rfl⟩ | ⟨channel, -, rfl⟩ | ⟨shared, flow, rfl⟩
  · refine ⟨faithful.queues, ?_, faithful.tasks, faithful.sent⟩
    intro index queueName sender captured unread isCall
    rcases getElem?_concat_cases isCall with old | ⟨-, started⟩
    · exact faithful.reads index queueName sender captured unread old
    · cases invocation <;> cases started
  · exact faithful.turn found turn
  · exact faithful.runTask index
  · refine ⟨faithful.queues, faithful.reads, faithful.tasks, ?_⟩
    intro other
    by_cases isChannel : other = channel
    · subst isChannel
      simpa [dropReceiver] using faithful.sent other
    · simpa [dropReceiver, isChannel] using faithful.sent other
  · exact faithful.of_flow flow

theorem faithful_of_reachable {allowed : TracedBroker → Broker.Event → Prop}
    {maxQueueSize : Nat} {traced : TracedBroker}
    (reached : ReachableWhile step allowed (new maxQueueSize) traced) :
    traced.Faithful := by
  apply reached.invariant Faithful (faithful_new maxQueueSize)
  intro before event after faithful _ stepTo
  exact faithful.step stepTo

end TracedBroker

end CipherMQ
