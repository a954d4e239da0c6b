import CipherMQ.ReceiverIsolation
import CipherMQ.Registrations

/-!
# Where the messages on a channel come from

A message moves from a publish to a queue, from the queue to a registration
and its task, and from a publish or a task to a channel; it is copied on the
way and never changed.  So what lies on a channel was published, to an
exchange under a routing key to which its queue is bound, and the channel was
registered for the queue.  Calls stay on record and bindings are never taken
back, so both remain true.
-/

namespace CipherMQ

open ServerState

/-- The queues a publish has found and still has to do with. -/
def PublishPoint.aims : PublishPoint → List String
  | .enqueue targets _ remaining => targets ++ remaining
  | .evictIndex targets _ remaining _ _ => targets ++ remaining
  | .evictStatus targets _ remaining _ => targets ++ remaining
  | .insertStatus targets => targets
  | .notify remaining => remaining
  | _ => []

/-- A publish finds the queues that are bound, and turns to no others. -/
theorem PublishMove.aims {state : ServerState} {request : PublishRequest}
    {point next : PublishPoint} (move : PublishMove state request point next)
    {queueName : String} (isAim : queueName ∈ next.aims) :
    queueName ∈ point.aims ∨
      state.Bound request.exchangeName request.routingKey queueName := by
  cases move with
  | fail | unknown | saved | finish => cases isAim
  | found =>
      right
      rw [← mem_targetQueues]
      simpa [PublishPoint.aims] using isAim
  | insertIndex => exact Or.inl (List.mem_append_left _ isAim)
  | evictIndex | evictStatus | insertStatus => exact Or.inl isAim

/-- A call with a property stays when a call advances that keeps it. -/
theorem exists_mem_set {calls : List Call} {index : Nat} {call next : Call}
    {property : Call → Prop} (found : calls[index]? = some call)
    (keeps : property call → property next)
    (there : ∃ other ∈ calls, property other) :
    ∃ other ∈ calls.set index next, property other := by
  obtain ⟨other, isMember, holds⟩ := there
  obtain ⟨position, isOther⟩ := List.getElem?_of_mem isMember
  by_cases same : position = index
  · subst same
    rw [found] at isOther
    cases isOther
    exact ⟨next, List.mem_of_getElem? (getElem?_set_moved found next),
      keeps holds⟩
  · refine ⟨other, ?_, holds⟩
    apply List.mem_of_getElem?
    rwa [List.getElem?_set_ne (Ne.symm same)]

namespace Broker

/-- A message was published that is brought to the queue. -/
def Brought (broker : Broker) (queueName : String) (entry : QueueEntry) :
    Prop :=
  ∃ request, (∃ call ∈ broker.calls, call.invocation = .publish request) ∧
    entry = (request.message.messageId, request.message) ∧
      broker.shared.Bound request.exchangeName request.routingKey queueName

def Joined (broker : Broker) (queueName : String) (channel : ChannelId) :
    Prop :=
  ∃ call ∈ broker.calls, call.invocation = .registerConsumer queueName channel

structure Remembers (before after : Broker) : Prop where
  calls : ∀ call ∈ before.calls, ∃ later ∈ after.calls,
    later.invocation = call.invocation
  bound : ∀ exchangeName routingKey queueName,
    before.shared.Bound exchangeName routingKey queueName →
      after.shared.Bound exchangeName routingKey queueName

section Remembers

variable {before after : Broker} (remembers : before.Remembers after)

include remembers

theorem Remembers.invocation {invocation : Invocation}
    (made : ∃ call ∈ before.calls, call.invocation = invocation) :
    ∃ call ∈ after.calls, call.invocation = invocation := by
  obtain ⟨call, isCall, rfl⟩ := made
  exact remembers.calls call isCall

theorem Remembers.brought {queueName : String} {entry : QueueEntry}
    (brought : before.Brought queueName entry) :
    after.Brought queueName entry := by
  obtain ⟨request, made, isEntry, bound⟩ := brought
  exact ⟨request, remembers.invocation made, isEntry,
    remembers.bound _ _ _ bound⟩

theorem Remembers.joined {queueName : String} {channel : ChannelId}
    (joined : before.Joined queueName channel) :
    after.Joined queueName channel :=
  remembers.invocation joined

end Remembers

theorem remembers_of_same {before : Broker} {shared : ServerState}
    (bindings : shared.bindings = before.shared.bindings) :
    before.Remembers { before with shared := shared } := by
  refine ⟨fun call isCall => ⟨call, isCall, rfl⟩, ?_⟩
  intro exchangeName routingKey queueName bound
  unfold Bound at bound ⊢
  rwa [bindings]

theorem remembers_advance {before : Broker} {index : Nat} {call : Call}
    (reading : Reading) (found : before.calls[index]? = some call) :
    before.Remembers ⟨(call.advance reading before.shared).1,
      before.calls.set index (call.advance reading before.shared).2⟩ := by
  refine ⟨?_, fun _ _ _ => (access_advance reading before.shared call).bound⟩
  intro other isOther
  refine exists_mem_set found ?_ ⟨other, isOther, rfl⟩
  exact (Call.invocation_advance reading before.shared call).trans

theorem remembers_invoke (before : Broker) (invocation : Invocation) :
    before.Remembers
      { before with calls := before.calls ++ [invocation.start] } :=
  ⟨fun call isCall => ⟨call, List.mem_append_left _ isCall, rfl⟩,
    fun _ _ _ => id⟩

end Broker

/-! ## Where one access takes messages from -/

def Call.held : Call → List QueueEntry
  | .registerConsumer _ _ (.readStatus captured unread) => captured ++ unread
  | _ => []

section Turns

variable {state after : ServerState} {trace traceAfter : Trace}
  {index : Nat} {call next : Call}
  (turn : TracedTurn state trace index call after next traceAfter)

include turn

theorem TracedTurn.aims_cases {request : PublishRequest}
    {point : PublishPoint} (isNext : next = .publish request point)
    {queueName : String} (isAim : queueName ∈ point.aims) :
    (∃ earlier, call = .publish request earlier ∧
      queueName ∈ earlier.aims) ∨
    state.Bound request.exchangeName request.routingKey queueName := by
  cases turn with
  | plain _ _ _ _ isPlain =>
      rw [isNext] at isPlain
      cases isPlain
  | publish other earlier later _ move =>
      cases isNext
      rcases move.aims isAim with old | bound
      · exact Or.inl ⟨earlier, rfl, old⟩
      · exact Or.inr bound
  | push other targets queueSet name remaining queue later found isLater =>
      cases isNext
      refine Or.inl ⟨_, rfl, ?_⟩
      have kept : queueName ∈ targets ++ remaining := by
        rcases isLater with rfl | ⟨_, rfl⟩ <;> exact isAim
      rcases List.mem_append.mp kept with isTarget | isRemaining
      · exact List.mem_append_left _ isTarget
      · exact List.mem_append_right _ (List.mem_cons_of_mem _ isRemaining)
  | skip other targets queueSet name remaining =>
      cases isNext
      refine Or.inl ⟨_, rfl, ?_⟩
      rcases List.mem_append.mp isAim with isTarget | isRemaining
      · exact List.mem_append_left _ isTarget
      · exact List.mem_append_right _ (List.mem_cons_of_mem _ isRemaining)
  | announce other name remaining =>
      cases isNext
      exact Or.inl ⟨_, rfl, List.mem_cons_of_mem _ isAim⟩
  | declare | remove | declareFirst | join | capture | captureNone |
    readStatus | spawn => cases isNext

theorem TracedTurn.held_cases {queueName : String} {channel : ChannelId}
    (isNext : next.invocation = .registerConsumer queueName channel)
    {entry : QueueEntry} (isHeld : entry ∈ next.held) :
    entry ∈ (state.queues queueName).getD [] ∨
      (call.invocation = .registerConsumer queueName channel ∧
        entry ∈ call.held) := by
  cases turn with
  | capture name sender queue found =>
      cases isNext
      left
      rw [found]
      exact isHeld
  | readStatus name sender captured first unread =>
      cases isNext
      refine Or.inr ⟨rfl, ?_⟩
      simp only [Call.held, List.mem_append, List.mem_cons] at isHeld ⊢
      rcases isHeld with (isCaptured | isFirst) | isUnread
      · exact Or.inl isCaptured
      · split at isFirst
        · exact Or.inr (Or.inl (List.mem_singleton.mp isFirst))
        · cases isFirst
      · exact Or.inr (Or.inr isUnread)
  | plain _ _ _ _ isPlain =>
      cases next with
      | publish | registerConsumer => cases isPlain
      | _ => cases isHeld
  | publish | declare | remove | push | skip | announce | declareFirst |
    join | captureNone | spawn => cases isHeld

/-- An entry is in a queue because it was before or because the call brought
it. -/
theorem TracedTurn.entry_cases {queueName : String} {entry : QueueEntry}
    (isEntry : entry ∈ (after.queues queueName).getD []) :
    entry ∈ (state.queues queueName).getD [] ∨
      ∃ request targets queueSet remaining, call = .publish request
        (.enqueue targets queueSet (queueName :: remaining)) ∧
        entry = (request.message.messageId, request.message) := by
  cases turn with
  | plain _ _ _ _ _ flow | publish _ _ _ _ _ flow =>
      rw [flow.queues] at isEntry
      exact Or.inl isEntry
  | declare other | declareFirst other =>
      left
      by_cases same : queueName = other
      · simpa [ServerState.declareQueue, same] using isEntry
      · simpa [ServerState.declareQueue, same] using isEntry
  | remove messageId other remaining =>
      left
      by_cases same : queueName = other
      · subst same
        cases found : state.queues queueName with
        | none => simp [removeFromQueue, found] at isEntry
        | some queue =>
            simp only [removeFromQueue, KeyMap.modify, if_true, found,
              Option.map_some, Option.getD_some, List.mem_filter] at isEntry
            exact isEntry.1
      · simpa [removeFromQueue, same] using isEntry
  | push request targets queueSet other remaining queue following found
      isNext =>
      by_cases same : queueName = other
      · subst same
        simp only [KeyMap.insert_apply, if_true, Option.getD_some, appended,
          List.mem_append, List.mem_singleton] at isEntry
        rcases isEntry with old | rfl
        · left
          rw [found, Option.getD_some]
          rw [popOldest_snd] at old
          split at old
          · exact List.mem_of_mem_tail old
          · exact old
        · exact Or.inr ⟨request, targets, queueSet, remaining, rfl, rfl⟩
      · left
        simpa [same] using isEntry
  | skip | announce | join | capture | captureNone | readStatus | spawn =>
      exact Or.inl isEntry

/-- A consumer is there because it was before or because the registration has
just added it. -/
theorem TracedTurn.member_cases {queueName : String} {channel : ChannelId}
    (registered : channel ∈ (after.consumers queueName).getD []) :
    channel ∈ (state.consumers queueName).getD [] ∨
      next = .registerConsumer queueName channel .readQueue := by
  rcases turn.consumer_cases queueName channel with fewer | ⟨-, isNext, -⟩
  · left
    rw [← List.count_pos_iff] at registered ⊢
    omega
  · exact Or.inr isNext

/-- A task is spawned by a registration with what the registration holds. -/
theorem TracedTurn.spawned_cases {task : DeliveryTask}
    (isTask : task ∈ after.deliveryTasks) :
    task ∈ state.deliveryTasks ∨
      (call.invocation = .registerConsumer task.source task.channel ∧
        ∀ entry ∈ task.remaining, entry ∈ call.held) := by
  cases turn with
  | spawn queueName sender captured =>
      rcases List.mem_append.mp isTask with old | isNew
      · exact Or.inl old
      · rw [List.mem_singleton.mp isNew]
        exact Or.inr ⟨rfl, fun entry => List.mem_append_left _⟩
  | plain _ _ _ _ _ flow | publish _ _ _ _ _ flow =>
      rw [flow.deliveryTasks] at isTask
      exact Or.inl isTask
  | declare | remove | push | skip | announce | declareFirst | join |
    capture | captureNone | readStatus => exact Or.inl isTask

/-- A publish sends its own message to the consumers of a queue it is to
notify. -/
theorem TracedTurn.delivery_cases {channel : ChannelId} {delivery : Delivery}
    (isSent : delivery ∈ (after.channels channel).sent) :
    delivery ∈ (state.channels channel).sent ∨
      ∃ request remaining,
        call = .publish request (.notify (delivery.source :: remaining)) ∧
        delivery.entry = (request.message.messageId, request.message) ∧
        channel ∈ (state.consumers delivery.source).getD [] := by
  cases turn with
  | announce request queueName remaining =>
      rcases Broker.mem_push_sent isSent with old | copied
      · exact Or.inl old
      · right
        simp only [copies, List.flatMap_cons, List.flatMap_nil,
          List.append_nil, List.mem_replicate] at copied
        obtain ⟨isConsumer, rfl⟩ := copied
        exact ⟨request, remaining, rfl, rfl,
          List.count_pos_iff.mp (Nat.pos_of_ne_zero isConsumer)⟩
  | plain _ _ _ _ _ flow | publish _ _ _ _ _ flow =>
      rw [flow.channels] at isSent
      exact Or.inl isSent
  | declare | remove | push | skip | declareFirst | join | capture |
    captureNone | readStatus | spawn => exact Or.inl isSent

end Turns

namespace Broker

structure Genuine (broker : Broker) : Prop where
  aims : ∀ request point, .publish request point ∈ broker.calls →
    ∀ queueName ∈ point.aims,
      broker.shared.Bound request.exchangeName request.routingKey queueName
  queues : ∀ queueName, ∀ entry ∈ (broker.shared.queues queueName).getD [],
    broker.Brought queueName entry
  held : ∀ call ∈ broker.calls, ∀ queueName channel,
    call.invocation = .registerConsumer queueName channel →
      ∀ entry ∈ call.held, broker.Brought queueName entry
  tasks : ∀ task ∈ broker.shared.deliveryTasks,
    broker.Joined task.source task.channel ∧
      ∀ entry ∈ task.remaining, broker.Brought task.source entry
  consumers : ∀ queueName,
    ∀ channel ∈ (broker.shared.consumers queueName).getD [],
      broker.Joined queueName channel
  sent : ∀ channel, ∀ delivery ∈ (broker.shared.channels channel).sent,
    broker.Joined delivery.source channel ∧
      broker.Brought delivery.source delivery.entry

theorem genuine_new (maxQueueSize : Nat) : (new maxQueueSize).Genuine where
  aims request point isCall := by cases isCall
  queues queueName entry isEntry := by cases isEntry
  held call isCall := by cases isCall
  tasks task isTask := by cases isTask
  consumers queueName channel isConsumer := by cases isConsumer
  sent channel delivery isSent := by cases isSent

section Genuine

variable {before : Broker} (genuine : before.Genuine)

include genuine

theorem Genuine.advance {index : Nat} {call : Call} (reading : Reading)
    (found : before.calls[index]? = some call)
    (running : call.isReturned = false) :
    Genuine ⟨(call.advance reading before.shared).1,
      before.calls.set index (call.advance reading before.shared).2⟩ := by
  have turn := tracedTurn_advance reading before.shared Trace.new index
    running
  have remembers := remembers_advance reading found
  have isCall := List.mem_of_getElem? found
  have isNext : (call.advance reading before.shared).2 ∈
      before.calls.set index (call.advance reading before.shared).2 :=
    List.mem_of_getElem? (getElem?_set_moved found _)
  have sameInvocation := Call.invocation_advance reading before.shared call
  -- A registration that advances has joined.
  have joins : ∀ {queueName channel},
      call.invocation = .registerConsumer queueName channel → Joined
        ⟨(call.advance reading before.shared).1,
          before.calls.set index (call.advance reading before.shared).2⟩
        queueName channel :=
    fun isRegistration => ⟨_, isNext, sameInvocation.trans isRegistration⟩
  constructor
  · intro request point isPublish queueName isAim
    rcases List.mem_or_eq_of_mem_set isPublish with old | isThis
    · exact remembers.bound _ _ _
        (genuine.aims request point old queueName isAim)
    · rcases turn.aims_cases isThis.symm isAim with
        ⟨earlier, rfl, wasAim⟩ | bound
      · exact remembers.bound _ _ _
          (genuine.aims request earlier isCall queueName wasAim)
      · exact remembers.bound _ _ _ bound
  · intro queueName entry isEntry
    rcases turn.entry_cases isEntry with
      old | ⟨request, targets, queueSet, remaining, rfl, rfl⟩
    · exact remembers.brought (genuine.queues queueName entry old)
    · refine ⟨request, ⟨_, isNext, sameInvocation⟩, rfl, ?_⟩
      exact remembers.bound _ _ _ (genuine.aims request _ isCall queueName
        (List.mem_append_right _ List.mem_cons_self))
  · intro other isOther queueName channel isRegistration entry isHeld
    rcases List.mem_or_eq_of_mem_set isOther with old | rfl
    · exact remembers.brought
        (genuine.held other old queueName channel isRegistration entry isHeld)
    · rcases turn.held_cases isRegistration isHeld with
        queued | ⟨wasRegistration, wasHeld⟩
      · exact remembers.brought (genuine.queues queueName entry queued)
      · exact remembers.brought (genuine.held call isCall queueName channel
          wasRegistration entry wasHeld)
  · intro task isTask
    rcases turn.spawned_cases isTask with old | ⟨isRegistration, fromHeld⟩
    · obtain ⟨joined, brought⟩ := genuine.tasks task old
      exact ⟨remembers.joined joined, fun entry isEntry =>
        remembers.brought (brought entry isEntry)⟩
    · exact ⟨joins isRegistration, fun entry isEntry =>
        remembers.brought (genuine.held call isCall _ _ isRegistration entry
          (fromHeld entry isEntry))⟩
  · intro queueName channel isConsumer
    rcases turn.member_cases isConsumer with old | isRegistration
    · exact remembers.joined (genuine.consumers queueName channel old)
    · apply joins
      rw [← sameInvocation, isRegistration]
      rfl
  · intro channel delivery isSent
    rcases turn.delivery_cases isSent with
      old | ⟨request, remaining, rfl, isEntry, isConsumer⟩
    · obtain ⟨joined, brought⟩ := genuine.sent channel delivery old
      exact ⟨remembers.joined joined, remembers.brought brought⟩
    · refine ⟨remembers.joined
        (genuine.consumers delivery.source channel isConsumer), request,
        ⟨_, isNext, sameInvocation⟩, isEntry, ?_⟩
      exact remembers.bound _ _ _
        (genuine.aims request _ isCall delivery.source List.mem_cons_self)

/-- The calls, the queues, the bindings and the consumers stay. -/
theorem Genuine.of_same {shared : ServerState}
    (queues : shared.queues = before.shared.queues)
    (bindings : shared.bindings = before.shared.bindings)
    (consumers : shared.consumers = before.shared.consumers)
    (tasks : ∀ task ∈ shared.deliveryTasks,
      before.Joined task.source task.channel ∧
        ∀ entry ∈ task.remaining, before.Brought task.source entry)
    (sent : ∀ channel, ∀ delivery ∈ (shared.channels channel).sent,
      before.Joined delivery.source channel ∧
        before.Brought delivery.source delivery.entry) :
    Genuine { before with shared := shared } := by
  have remembers := remembers_of_same bindings
  constructor
  · intro request point isPublish queueName isAim
    exact remembers.bound _ _ _
      (genuine.aims request point isPublish queueName isAim)
  · intro queueName entry isEntry
    rw [queues] at isEntry
    exact remembers.brought (genuine.queues queueName entry isEntry)
  · intro call isCall queueName channel isRegistration entry isHeld
    exact remembers.brought
      (genuine.held call isCall queueName channel isRegistration entry isHeld)
  · intro task isTask
    obtain ⟨joined, brought⟩ := tasks task isTask
    exact ⟨joined, fun entry isEntry =>
      remembers.brought (brought entry isEntry)⟩
  · intro queueName channel isConsumer
    rw [consumers] at isConsumer
    exact genuine.consumers queueName channel isConsumer
  · intro channel delivery isSent
    obtain ⟨joined, brought⟩ := sent channel delivery isSent
    exact ⟨joined, remembers.brought brought⟩

theorem Genuine.invoke (invocation : Invocation) :
    Genuine { before with calls := before.calls ++ [invocation.start] } := by
  have remembers := remembers_invoke before invocation
  constructor
  · intro request point isPublish queueName isAim
    rcases List.mem_append.mp isPublish with old | isNew
    · exact genuine.aims request point old queueName isAim
    · cases invocation with
      | publish other =>
          cases List.mem_singleton.mp isNew
          cases isAim
      | _ => cases List.mem_singleton.mp isNew
  · intro queueName entry isEntry
    exact remembers.brought (genuine.queues queueName entry isEntry)
  · intro call isCall queueName channel isRegistration entry isHeld
    rcases List.mem_append.mp isCall with old | isNew
    · exact remembers.brought
        (genuine.held call old queueName channel isRegistration entry isHeld)
    · rw [List.mem_singleton.mp isNew] at isHeld
      cases invocation <;> cases isHeld
  · intro task isTask
    obtain ⟨joined, brought⟩ := genuine.tasks task isTask
    exact ⟨remembers.joined joined, fun entry isEntry =>
      remembers.brought (brought entry isEntry)⟩
  · intro queueName channel isConsumer
    exact remembers.joined (genuine.consumers queueName channel isConsumer)
  · intro channel delivery isSent
    obtain ⟨joined, brought⟩ := genuine.sent channel delivery isSent
    exact ⟨remembers.joined joined, remembers.brought brought⟩

theorem Genuine.runDeliveryTask (index : Nat) :
    Genuine { before with
      shared := before.shared.runDeliveryTask index } := by
  rcases runDeliveryTask_cases before.shared index with
    same | ⟨task, entry, rest, isTask, remaining, ran⟩
  · rw [same]
    exact genuine
  · obtain ⟨joined, brought⟩ :=
      genuine.tasks task (List.mem_of_getElem? isTask)
    rw [remaining] at brought
    rw [ran]
    refine genuine.of_same rfl rfl rfl ?_ ?_
    · intro other isOther
      rcases List.mem_or_eq_of_mem_set isOther with old | rfl
      · exact genuine.tasks other old
      · refine ⟨joined, fun item isItem => ?_⟩
        dsimp only at isItem
        split at isItem
        · cases isItem
        · exact brought item (List.mem_cons_of_mem _ isItem)
    · intro channel delivery isSent
      rcases mem_sent_update isSent with old | ⟨rfl, rfl⟩
      · exact genuine.sent channel delivery old
      · exact ⟨joined, brought entry List.mem_cons_self⟩

theorem Genuine.step {after : Broker} {event : Event}
    (stepTo : before.step event = some after) : after.Genuine := by
  rcases step_cases stepTo with
    ⟨invocation, -, rfl⟩ | ⟨index, reading, call, -, found, running, rfl⟩ |
    ⟨messageId, reading, -, rfl⟩ | ⟨channel, -, rfl⟩ | ⟨index, -, rfl⟩ |
    ⟨_, _, -, rfl⟩
  · exact genuine.invoke invocation
  · exact genuine.advance reading found running
  · obtain ⟨messageStatus, storage, marked, -⟩ :=
      markDelivered_frame before.shared messageId reading.now reading.time
    rw [marked]
    exact genuine.of_same rfl rfl rfl genuine.tasks genuine.sent
  · refine genuine.of_same rfl rfl rfl genuine.tasks ?_
    intro other delivery isSent
    rw [sent_dropReceiver] at isSent
    exact genuine.sent other delivery isSent
  · exact genuine.runDeliveryTask index
  · exact genuine.of_same rfl rfl rfl genuine.tasks genuine.sent

end Genuine

theorem genuine_of_reachable {maxQueueSize : Nat} {broker : Broker}
    (reached : Reachable step (new maxQueueSize) broker) :
    broker.Genuine :=
  reached.invariant Genuine (genuine_new maxQueueSize)
    fun _ _ _ genuine _ stepTo => genuine.step stepTo

/-! ## Channels only grow -/

theorem prefix_push (channel : Channel) (more : List Delivery) :
    channel.sent <+: (channel.push more).sent := by
  unfold Channel.push
  split
  · exact List.prefix_refl _
  · exact List.prefix_append _ _

theorem sent_prefix_step {before after : Broker} {event : Event}
    (stepTo : before.step event = some after) (channel : ChannelId) :
    (before.shared.channels channel).sent <+:
      (after.shared.channels channel).sent := by
  rcases step_cases stepTo with
    ⟨invocation, -, rfl⟩ | ⟨index, reading, call, -, found, running, rfl⟩ |
    ⟨messageId, reading, -, rfl⟩ | ⟨dropped, -, rfl⟩ | ⟨index, -, rfl⟩ |
    ⟨_, _, -, rfl⟩
  · exact List.prefix_refl _
  · obtain ⟨more, pushed⟩ :=
      (access_advance reading before.shared call).channel_push channel
    dsimp only
    rw [pushed]
    exact prefix_push _ more
  · obtain ⟨messageStatus, storage, marked, -⟩ :=
      markDelivered_frame before.shared messageId reading.now reading.time
    dsimp only
    rw [marked]
  · dsimp only
    rw [sent_dropReceiver]
  · rcases runDeliveryTask_cases before.shared index with
      same | ⟨task, entry, rest, -, -, ran⟩
    · dsimp only
      rw [same]
    · dsimp only
      rw [ran]
      dsimp only
      by_cases own : channel = task.channel
      · subst own
        rw [Function.update_self]
        exact prefix_push _ _
      · rw [Function.update_of_ne own]
  · exact List.prefix_refl _


end Broker

end CipherMQ
