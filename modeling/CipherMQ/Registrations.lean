import CipherMQ.BrokerTrace

/-!
# Registrations of consumers

If no channel is registered twice, everything that goes to a channel goes
there for one registration: the channel is at most once among the consumers of
a queue, and only of the queue it is registered on, the task that sends its
backlog is the one the registration has spawned, and nothing is sent on a
channel before it is registered.
-/

namespace CipherMQ

open ServerState

def RegisterPoint.hasJoined : RegisterPoint → Bool
  | .declareQueue => false
  | .addConsumer => false
  | _ => true

def Call.registers : Call → Option ChannelId
  | .registerConsumer _ sender _ => some sender
  | _ => none

section Turns

variable {state after : ServerState} {trace traceAfter : Trace}
  {index : Nat} {call next : Call}
  (turn : TracedTurn state trace index call after next traceAfter)

include turn

/-- A registration that moves stays one, and a consumer that was added stays
added. -/
theorem TracedTurn.next_register {queueName : String} {sender : ChannelId}
    {point : RegisterPoint}
    (isCall : call = .registerConsumer queueName sender point) :
    ∃ following, next = .registerConsumer queueName sender following ∧
      (point.hasJoined = true → following.hasJoined = true) ∧
      ∀ task, point ≠ .returned task := by
  cases turn with
  | plain _ _ _ isPlain =>
      rw [isCall] at isPlain
      cases isPlain
  | declareFirst | join | capture | captureNone | readStatus | spawn =>
      cases isCall
      exact ⟨_, rfl, fun _ => by first | rfl | contradiction, by simp⟩
  | declare | remove | publish | push | skip | announce => cases isCall

theorem TracedTurn.call_register {queueName : String} {sender : ChannelId}
    {point : RegisterPoint}
    (isNext : next = .registerConsumer queueName sender point) :
    ∃ earlier, call = .registerConsumer queueName sender earlier := by
  cases turn with
  | plain _ _ _ _ isPlain =>
      rw [isNext] at isPlain
      cases isPlain
  | declareFirst | join | capture | captureNone | readStatus | spawn =>
      cases isNext
      exact ⟨_, rfl⟩
  | declare | remove | publish | push | skip | announce => cases isNext

/-- A channel becomes a consumer when its registration adds it. -/
theorem TracedTurn.consumer_cases (queueName : String)
    (channel : ChannelId) :
    ((after.consumers queueName).getD []).count channel ≤
        ((state.consumers queueName).getD []).count channel ∨
      (call = .registerConsumer queueName channel .addConsumer ∧
        next = .registerConsumer queueName channel .readQueue ∧
        ((after.consumers queueName).getD []).count channel =
          ((state.consumers queueName).getD []).count channel + 1) := by
  cases turn with
  | plain _ _ _ _ _ flow | publish _ _ _ _ _ flow =>
      left
      rw [flow.consumers]
  | remove messageId other =>
      exact .inl (le_refl _)
  | announce request other =>
      left
      by_cases isOther : queueName = other
      · subst isOther
        cases found : state.consumers queueName with
        | none => simp [notified, found]
        | some senders =>
            simp only [notified, List.mem_singleton, if_true, found,
              Option.map_some, Option.getD_some, openSenders]
            exact List.filter_sublist.count_le channel
      · simp [notified, isOther]
  | join other sender =>
      by_cases isOther : queueName = other
      · subst isOther
        by_cases isSender : channel = sender
        · subst isSender
          right
          simp [addConsumer]
        · left
          simp [addConsumer, List.count_append, Ne.symm isSender]
      · left
        simp [addConsumer, isOther]
  | declare | push | skip | declareFirst | capture | captureNone
  | readStatus | spawn => exact .inl (le_refl _)

/-- A task is spawned by a registration, for its queue and its channel. -/
theorem TracedTurn.task_cases {position : Nat} {task : DeliveryTask}
    (found : after.deliveryTasks[position]? = some task) :
    state.deliveryTasks[position]? = some task ∨
      next = .registerConsumer task.source task.channel
        (.returned (some position)) := by
  cases turn with
  | plain _ _ _ _ _ flow | publish _ _ _ _ _ flow =>
      left
      rwa [flow.deliveryTasks] at found
  | spawn queueName sender captured =>
      rcases getElem?_concat_cases found with old | ⟨rfl, rfl⟩
      · exact .inl old
      · exact .inr rfl
  | _ => exact .inl found

theorem TracedTurn.task_kept {position : Nat} {task : DeliveryTask}
    (found : state.deliveryTasks[position]? = some task) :
    after.deliveryTasks[position]? = some task := by
  cases turn with
  | plain _ _ _ _ _ flow | publish _ _ _ _ _ flow =>
      rwa [flow.deliveryTasks]
  | spawn => exact getElem?_append_kept found _
  | _ => exact found

theorem TracedTurn.spawned {queueName : String} {sender : ChannelId}
    {position : Nat}
    (isNext : next = .registerConsumer queueName sender
      (.returned (some position))) :
    ∃ remaining, after.deliveryTasks[position]? =
      some ⟨sender, queueName, remaining⟩ := by
  cases turn with
  | plain _ _ _ _ isPlain =>
      rw [isNext] at isPlain
      cases isPlain
  | spawn _ _ captured =>
      cases isNext
      exact ⟨captured, by simp [ServerState.spawn]⟩
  | declare | remove | publish | push | skip | announce | declareFirst
  | join | capture | captureNone | readStatus => cases isNext

theorem TracedTurn.sent_cases (channel : ChannelId) :
    traceAfter.sent channel = trace.sent channel ∨
      ∃ request queueName remaining,
        call = .publish request (.notify (queueName :: remaining)) ∧
          channel ∈ (state.consumers queueName).getD [] := by
  cases turn with
  | announce request queueName =>
      by_cases isConsumer : channel ∈ (state.consumers queueName).getD []
      · exact .inr ⟨request, queueName, _, rfl, isConsumer⟩
      · left
        simp [Trace.announce, List.count_eq_zero_of_not_mem isConsumer]
  | _ => exact .inl rfl

end Turns

namespace TracedBroker

/-- A call registers a channel on a queue and has got to a point. -/
def Registers (traced : TracedBroker) (index : Nat) (queueName : String)
    (channel : ChannelId) (point : RegisterPoint) : Prop :=
  traced.broker.calls[index]? =
    some (.registerConsumer queueName channel point)

def RegistersOnce (traced : TracedBroker) : Broker.Event → Prop
  | .invoke (.registerConsumer _ channel) =>
      ∀ call ∈ traced.broker.calls, call.registers ≠ some channel
  | _ => True

/-- Everything that goes to a channel goes there for its registration. -/
structure Registrations (traced : TracedBroker) : Prop where
  once : ∀ {first second firstQueue secondQueue channel firstPoint
    secondPoint},
    traced.Registers first firstQueue channel firstPoint →
      traced.Registers second secondQueue channel secondPoint →
        first = second
  consumer : ∀ queueName channel,
    channel ∈ (traced.broker.shared.consumers queueName).getD [] →
      ∃ index point, traced.Registers index queueName channel point ∧
        point.hasJoined = true
  count_le : ∀ queueName channel,
    ((traced.broker.shared.consumers queueName).getD []).count channel ≤ 1
  task : ∀ position task,
    traced.broker.shared.deliveryTasks[position]? = some task →
      ∃ index, traced.Registers index task.source task.channel
        (.returned (some position))
  spawned : ∀ index queueName channel position,
    traced.Registers index queueName channel (.returned (some position)) →
      ∃ remaining, traced.broker.shared.deliveryTasks[position]? =
        some ⟨channel, queueName, remaining⟩
  silent : ∀ channel,
    (∀ index queueName point,
      ¬ traced.Registers index queueName channel point) →
      traced.trace.sent channel = []

theorem registrations_new (maxQueueSize : Nat) :
    (new maxQueueSize).Registrations := by
  constructor <;>
    simp [new, Broker.new, ServerState.new, Trace.new, Registers,
      KeyMap.empty]

section Turn

variable {traced : TracedBroker} {index : Nat} {call next : Call}
  {shared : ServerState} {trace : Trace}
  (found : traced.broker.calls[index]? = some call)
  (turn : TracedTurn traced.broker.shared traced.trace index call shared
    next trace)

include found turn

theorem Registers.after_turn {other : Nat} {queueName : String}
    {channel : ChannelId} {point : RegisterPoint}
    (registers : traced.Registers other queueName channel point) :
    ∃ following,
      Registers ⟨⟨shared, traced.broker.calls.set index next⟩, trace⟩ other
        queueName channel following ∧
      (point.hasJoined = true → following.hasJoined = true) ∧
      (other ≠ index ∨ (∃ task, point = .returned task) →
        following = point) := by
  by_cases isIndex : other = index
  · subst isIndex
    rw [Registers, found] at registers
    obtain ⟨following, rfl, joined, notReturned⟩ :=
      turn.next_register (Option.some.inj registers)
    refine ⟨following, getElem?_set_moved found _, joined, ?_⟩
    rintro (different | ⟨task, isReturned⟩)
    · exact absurd rfl different
    · exact absurd isReturned (notReturned task)
  · exact ⟨point, (List.getElem?_set_ne (Ne.symm isIndex)).trans registers,
      id, fun _ => rfl⟩

theorem Registers.before_turn {other : Nat} {queueName : String}
    {channel : ChannelId} {point : RegisterPoint}
    (registers : Registers
      ⟨⟨shared, traced.broker.calls.set index next⟩, trace⟩ other queueName
      channel point) :
    ∃ earlier, traced.Registers other queueName channel earlier := by
  rcases getElem?_set_cases registers with ⟨rfl, isNext⟩ | ⟨-, old⟩
  · obtain ⟨earlier, isCall⟩ := turn.call_register isNext.symm
    rw [isCall] at found
    exact ⟨earlier, found⟩
  · exact ⟨point, old⟩

theorem Registrations.after_turn (registrations : traced.Registrations) :
    Registrations
      ⟨⟨shared, traced.broker.calls.set index next⟩, trace⟩ where
  once isFirst isSecond := by
    obtain ⟨_, wasFirst⟩ := isFirst.before_turn found turn
    obtain ⟨_, wasSecond⟩ := isSecond.before_turn found turn
    exact registrations.once wasFirst wasSecond
  consumer queueName channel member := by
    rcases turn.consumer_cases queueName channel with
      fewer | ⟨-, isNext, -⟩
    · have wasMember : channel ∈
          (traced.broker.shared.consumers queueName).getD [] :=
        List.count_pos_iff.mp
          ((List.count_pos_iff.mpr member).trans_le fewer)
      obtain ⟨other, point, registers, joined⟩ :=
        registrations.consumer queueName channel wasMember
      obtain ⟨following, stays, stillJoined, -⟩ :=
        registers.after_turn found turn
      exact ⟨other, following, stays, stillJoined joined⟩
    · exact ⟨index, .readQueue, isNext ▸ getElem?_set_moved found next, rfl⟩
  count_le queueName channel := by
    rcases turn.consumer_cases queueName channel with
      fewer | ⟨isCall, -, grows⟩
    · exact fewer.trans (registrations.count_le queueName channel)
    · -- a consumer that is being added was not there yet
      have notYet : channel ∉
          (traced.broker.shared.consumers queueName).getD [] := by
        intro member
        obtain ⟨other, point, registers, joined⟩ :=
          registrations.consumer queueName channel member
        have registering : traced.Registers index queueName channel
            .addConsumer := by
          rw [isCall] at found
          exact found
        have same := registrations.once registers registering
        subst same
        rw [Registers, registering] at registers
        cases registers
        cases joined
      rw [List.count_eq_zero_of_not_mem notYet] at grows
      exact grows.le
  task position task isTask := by
    rcases turn.task_cases isTask with old | isNext
    · obtain ⟨other, registers⟩ := registrations.task position task old
      obtain ⟨following, stays, -, same⟩ := registers.after_turn found turn
      rw [same (.inr ⟨_, rfl⟩)] at stays
      exact ⟨other, stays⟩
    · exact ⟨index, isNext ▸ getElem?_set_moved found next⟩
  spawned other queueName channel position registers := by
    rcases getElem?_set_cases registers with ⟨-, isNext⟩ | ⟨-, old⟩
    · exact turn.spawned isNext.symm
    · obtain ⟨remaining, isTask⟩ :=
        registrations.spawned other queueName channel position old
      exact ⟨remaining, turn.task_kept isTask⟩
  silent channel unregistered := by
    have wasUnregistered : ∀ other queueName point,
        ¬ traced.Registers other queueName channel point := by
      intro other queueName point registers
      obtain ⟨following, stays, -⟩ := registers.after_turn found turn
      exact unregistered other queueName following stays
    rcases turn.sent_cases channel with same | ⟨-, queueName, -, -, member⟩
    · exact same.trans (registrations.silent channel wasUnregistered)
    · obtain ⟨other, point, registers, -⟩ :=
        registrations.consumer queueName channel member
      exact absurd registers (wasUnregistered other queueName point)

end Turn

/-- A new call keeps the registrations if it does not register a channel
again. -/
theorem Registrations.invoke {traced : TracedBroker}
    (registrations : traced.Registrations) {invocation : Invocation}
    (isNew : traced.RegistersOnce (.invoke invocation)) :
    Registrations ⟨⟨traced.broker.shared,
      traced.broker.calls ++ [invocation.start]⟩, traced.trace⟩ := by
  have kept : ∀ {index queueName channel point},
      traced.Registers index queueName channel point →
        Registers ⟨⟨traced.broker.shared,
          traced.broker.calls ++ [invocation.start]⟩, traced.trace⟩ index
          queueName channel point :=
    fun registers => getElem?_append_kept registers _
  have fresh : ∀ {index queueName channel point otherQueue},
      invocation.start = .registerConsumer otherQueue channel .declareQueue →
        ¬ traced.Registers index queueName channel point := by
    intro index queueName channel point otherQueue isStart registers
    cases invocation <;> cases isStart
    exact isNew _ (List.mem_of_getElem? registers) rfl
  have start_register : ∀ {queueName channel point},
      Call.registerConsumer queueName channel point = invocation.start →
        point = .declareQueue := by
    intro queueName channel point isStart
    cases invocation <;> cases isStart
    rfl
  refine ⟨?_, ?_, registrations.count_le, ?_, ?_, ?_⟩
  · intro first second firstQueue secondQueue channel firstPoint secondPoint
      isFirst isSecond
    rcases getElem?_concat_cases isFirst with oldFirst | ⟨rfl, newFirst⟩ <;>
      rcases getElem?_concat_cases isSecond with
        oldSecond | ⟨rfl, newSecond⟩
    · exact registrations.once oldFirst oldSecond
    · obtain rfl := start_register newSecond
      exact absurd oldFirst (fresh newSecond.symm)
    · obtain rfl := start_register newFirst
      exact absurd oldSecond (fresh newFirst.symm)
    · rfl
  · intro queueName channel member
    obtain ⟨index, point, registers, joined⟩ :=
      registrations.consumer queueName channel member
    exact ⟨index, point, kept registers, joined⟩
  · intro position task found
    obtain ⟨index, registers⟩ := registrations.task position task found
    exact ⟨index, kept registers⟩
  · intro index queueName channel position registers
    rcases getElem?_concat_cases registers with old | ⟨-, isStart⟩
    · exact registrations.spawned index queueName channel position old
    · cases start_register isStart
  · intro channel unregistered
    apply registrations.silent channel
    intro index queueName point registers
    exact unregistered index queueName point (kept registers)

theorem Registrations.runTask {traced : TracedBroker}
    (registrations : traced.Registrations) (faithful : traced.Faithful)
    (index : Nat) :
    Registrations ⟨⟨traced.broker.shared.runDeliveryTask index,
      traced.broker.calls⟩,
      traced.trace.runTask traced.broker.shared index⟩ := by
  rcases runTask_cases faithful.tasks index with
    ⟨sameState, sameTrace⟩ |
    ⟨task, entry, rest, found, -, -, isState, isTrace⟩
  · rw [sameState, sameTrace]
    exact registrations
  · rw [isState, isTrace]
    refine ⟨registrations.once, registrations.consumer,
      registrations.count_le, ?_, ?_, ?_⟩
    · intro position other isTask
      rcases getElem?_set_cases isTask with ⟨rfl, rfl⟩ | ⟨-, old⟩
      · exact registrations.task position task found
      · exact registrations.task position other old
    · intro other queueName channel position registers
      obtain ⟨remaining, isTask⟩ :=
        registrations.spawned other queueName channel position registers
      by_cases isIndex : position = index
      · subst isIndex
        rw [found] at isTask
        cases isTask
        exact ⟨_, getElem?_set_moved found _⟩
      · exact ⟨remaining,
          (List.getElem?_set_ne (Ne.symm isIndex)).trans isTask⟩
    · intro channel unregistered
      have wasSilent := registrations.silent channel unregistered
      have notOwner : channel ≠ task.channel := by
        rintro rfl
        obtain ⟨owner, registers⟩ := registrations.task index task found
        exact unregistered _ _ _ registers
      split
      · exact wasSilent
      · simpa [notOwner] using wasSilent

theorem Registrations.step {before after : TracedBroker}
    {event : Broker.Event} (registrations : before.Registrations)
    (faithful : before.Faithful) (isNew : before.RegistersOnce event)
    (stepTo : before.step event = some after) : after.Registrations := by
  rcases step_cases stepTo with
    ⟨invocation, rfl, rfl⟩ |
    ⟨index, reading, call, shared, next, trace, -, found, turn, rfl⟩ |
    ⟨index, -, rfl⟩ | ⟨channel, -, rfl⟩ | ⟨shared, flow, rfl⟩
  · exact registrations.invoke isNew
  · exact registrations.after_turn found turn
  · exact registrations.runTask faithful index
  · exact ⟨registrations.once, registrations.consumer,
      registrations.count_le, registrations.task, registrations.spawned,
      registrations.silent⟩
  · refine ⟨registrations.once, ?_, ?_, ?_, ?_, registrations.silent⟩
    · rw [flow.consumers]
      exact registrations.consumer
    · rw [flow.consumers]
      exact registrations.count_le
    · rw [flow.deliveryTasks]
      exact registrations.task
    · rw [flow.deliveryTasks]
      exact registrations.spawned

end TracedBroker

end CipherMQ
