import CipherMQ.BrokerTrace

/-!
# Where publishes stand

A publish appends to the queues it is routed to one after the other and then
notifies their consumers.  Between the two it is announcing a queue: the entry
is there, and a consumer that joins now finds it and is notified of it as well.
The targets are distinct queues that exist, so every publish appends to a queue
at most once, and what is in the log of a queue was appended by a publish that
has got past it.
-/

namespace CipherMQ

open ServerState

def Announcing (queueName : String) : PublishPoint → Prop
  | .enqueue targets _ remaining =>
      queueName ∈ targets ∧ queueName ∉ remaining
  | .evictIndex targets _ remaining _ _ =>
      queueName ∈ targets ∧ queueName ∉ remaining
  | .evictStatus targets _ remaining _ =>
      queueName ∈ targets ∧ queueName ∉ remaining
  | .insertStatus targets => queueName ∈ targets
  | .notify remaining => queueName ∈ remaining
  | _ => False

instance (queueName : String) : DecidablePred (Announcing queueName)
  | .enqueue _ _ _ | .evictIndex _ _ _ _ _ | .evictStatus _ _ _ _ =>
      inferInstanceAs (Decidable (_ ∧ _))
  | .insertStatus _ | .notify _ => inferInstanceAs (Decidable (_ ∈ _))
  | .checkDuplicate | .saveMetadata | .findTargets | .returned _ =>
      inferInstanceAs (Decidable False)

def Ahead (queueName : String) : PublishPoint → Prop
  | .checkDuplicate => True
  | .saveMetadata => True
  | .findTargets => True
  | .enqueue _ _ remaining => queueName ∈ remaining
  | .evictIndex _ _ remaining _ _ => queueName ∈ remaining
  | .evictStatus _ _ remaining _ => queueName ∈ remaining
  | _ => False

/-- The queues a publish works through are distinct, and those it appends to
exist. -/
def Placed (state : ServerState) : PublishPoint → Prop
  | .enqueue targets _ remaining =>
      targets.Nodup ∧ remaining <:+ targets ∧
        ∀ queueName ∈ targets, (state.queues queueName).isSome
  | .evictIndex targets _ remaining _ _ =>
      targets.Nodup ∧ remaining <:+ targets ∧
        ∀ queueName ∈ targets, (state.queues queueName).isSome
  | .evictStatus targets _ remaining _ =>
      targets.Nodup ∧ remaining <:+ targets ∧
        ∀ queueName ∈ targets, (state.queues queueName).isSome
  | .insertStatus targets => targets.Nodup
  | .notify remaining => remaining.Nodup
  | _ => True

def Call.Announces (queueName : String) (entry : QueueEntry) : Call → Prop
  | .publish request point =>
      entry = (request.message.messageId, request.message) ∧
        Announcing queueName point
  | _ => False

theorem PublishMove.announcing_iff {state : ServerState}
    {request : PublishRequest} {point next : PublishPoint}
    (move : PublishMove state request point next) (queueName : String) :
    Announcing queueName next ↔ Announcing queueName point := by
  cases move with
  | fail _ _ isPoint =>
      rcases isPoint with rfl | rfl | rfl <;> exact Iff.rfl
  | found => simp [Announcing]
  | insertIndex => simp [Announcing]
  | finish => simp [Announcing]
  | unknown | saved | evictIndex | evictStatus | insertStatus =>
      exact Iff.rfl

theorem PublishMove.not_ahead {state : ServerState}
    {request : PublishRequest} {point next : PublishPoint}
    (move : PublishMove state request point next) {queueName : String}
    (past : ¬ Ahead queueName point) : ¬ Ahead queueName next := by
  cases move with
  | fail | insertIndex | insertStatus | finish => exact id
  | unknown | saved | evictIndex | evictStatus => exact past
  | found => exact absurd trivial past

theorem PublishMove.placed {state after : ServerState}
    {request : PublishRequest} {point next : PublishPoint}
    (move : PublishMove state request point next)
    (topology : state.Topology) (same : after.queues = state.queues)
    (placed : Placed state point) : Placed after next := by
  cases move with
  | fail | unknown | saved | finish => trivial
  | found =>
      refine ⟨topology.targetQueues_nodup _ _, List.suffix_refl _, ?_⟩
      rw [same]
      exact topology.targetQueues_exist _ _
  | evictIndex | evictStatus =>
      simp only [Placed, same]
      exact placed
  | insertIndex => exact placed.1
  | insertStatus => exact placed

/-- A publish stays placed as long as no queue disappears. -/
theorem Placed.mono {state after : ServerState} {point : PublishPoint}
    (kept : ∀ queueName, (state.queues queueName).isSome →
      (after.queues queueName).isSome)
    (placed : Placed state point) : Placed after point := by
  cases point with
  | enqueue | evictIndex | evictStatus =>
      exact ⟨placed.1, placed.2.1, fun queueName target =>
        kept queueName (placed.2.2 queueName target)⟩
  | _ => exact placed

section Turns

variable {state after : ServerState} {trace traceAfter : Trace}
  {index : Nat} {call next : Call}
  (turn : TracedTurn state trace index call after next traceAfter)

include turn

theorem TracedTurn.queues_isSome {queueName : String}
    (present : (state.queues queueName).isSome) :
    (after.queues queueName).isSome := by
  cases turn with
  | plain _ _ _ _ _ flow | publish _ _ _ _ _ flow =>
      rw [flow.queues]
      exact present
  | declare other | declareFirst other =>
      by_cases isOther : queueName = other
      · simp [ServerState.declareQueue, isOther]
      · simpa [ServerState.declareQueue, isOther] using present
  | remove messageId other =>
      by_cases isOther : queueName = other
      · simpa [removeFromQueue, isOther] using present
      · simpa [removeFromQueue, isOther] using present
  | push request _ _ other =>
      by_cases isOther : queueName = other
      · simp [isOther]
      · simpa [isOther] using present
  | skip | announce | join | capture | captureNone | readStatus | spawn =>
      exact present

/-- A publish does not fall behind a queue it has got past. -/
theorem TracedTurn.not_ahead {queueName : String} {request : PublishRequest}
    {point : PublishPoint} (isCall : call = .publish request point)
    (past : ¬ Ahead queueName point) :
    ∃ following, next = .publish request following ∧
      ¬ Ahead queueName following := by
  cases turn with
  | plain _ _ _ isPlain =>
      rw [isCall] at isPlain
      cases isPlain
  | publish _ _ _ _ move =>
      cases isCall
      exact ⟨_, rfl, move.not_ahead past⟩
  | push _ _ _ _ _ _ following _ isNext =>
      cases isCall
      have pastRest := mt (List.mem_cons_of_mem _) past
      rcases isNext with rfl | ⟨_, rfl⟩ <;> exact ⟨_, rfl, pastRest⟩
  | skip =>
      cases isCall
      exact ⟨_, rfl, mt (List.mem_cons_of_mem _) past⟩
  | announce =>
      cases isCall
      exact ⟨_, rfl, id⟩
  | declare | remove | declareFirst | join | capture | captureNone
  | readStatus | spawn => cases isCall

theorem TracedTurn.placed (topology : state.Topology)
    (before : ∀ request point, call = .publish request point →
      Placed state point)
    {request : PublishRequest} {point : PublishPoint}
    (isNext : next = .publish request point) : Placed after point := by
  have kept : ∀ queueName, (state.queues queueName).isSome →
      (after.queues queueName).isSome := fun _ => turn.queues_isSome
  cases turn with
  | plain _ _ _ _ isPlain =>
      rw [isNext] at isPlain
      cases isPlain
  | publish _ _ _ _ move flow =>
      cases isNext
      exact move.placed topology flow.queues (before _ _ rfl)
  | push _ _ _ _ _ _ _ _ isPoint =>
      cases isNext
      obtain ⟨distinct, suffix, exist⟩ := (before _ _ rfl).mono kept
      have shorter := (List.suffix_cons _ _).trans suffix
      rcases isPoint with rfl | ⟨_, rfl⟩ <;> exact ⟨distinct, shorter, exist⟩
  | skip =>
      cases isNext
      obtain ⟨distinct, suffix, exist⟩ := before _ _ rfl
      exact ⟨distinct, (List.suffix_cons _ _).trans suffix, exist⟩
  | announce =>
      cases isNext
      exact (List.nodup_cons.mp (before _ _ rfl)).2
  | declare | remove | declareFirst | join | capture | captureNone
  | readStatus | spawn => cases isNext

/-- What a turn adds to a log comes from its own publish, which has then got
past the queue. -/
theorem TracedTurn.log_cases
    (placed : ∀ request point, call = .publish request point →
      Placed state point)
    {queueName : String} {entry : Stamped}
    (member : entry ∈ traceAfter.log queueName) :
    entry ∈ trace.log queueName ∨
      ∃ request point, next = .publish request point ∧ entry.1 = index ∧
        entry.2 = (request.message.messageId, request.message) ∧
        ¬ Ahead queueName point := by
  cases turn with
  | push request targets queueSet other remaining queue following _ isNext =>
      by_cases isOther : queueName = other
      · subst isOther
        simp only [Trace.push, Function.update_self, List.mem_append,
          List.mem_singleton] at member
        rcases member with old | rfl
        · exact .inl old
        · right
          obtain ⟨distinct, suffix, -⟩ := placed _ _ rfl
          have notAgain := (List.nodup_cons.mp
            (suffix.sublist.nodup distinct)).1
          rcases isNext with rfl | ⟨_, rfl⟩ <;>
            exact ⟨request, _, rfl, rfl, rfl, notAgain⟩
      · left
        simpa [Trace.push, isOther] using member
  | _ => exact .inl member

end Turns

namespace TracedBroker

/-- Where publishes stand, and that the log of a queue was written by
publishes that have got past the queue. -/
structure Placement (traced : TracedBroker) : Prop where
  wellFormed : traced.broker.WellFormed
  placed : ∀ (index : Nat) request point,
    traced.broker.calls[index]? = some (.publish request point) →
      Placed traced.broker.shared point
  logged : ∀ queueName, ∀ entry ∈ traced.trace.log queueName,
    ∃ request point,
      traced.broker.calls[entry.1]? = some (.publish request point) ∧
        entry.2 = (request.message.messageId, request.message) ∧
        ¬ Ahead queueName point

theorem placement_new (maxQueueSize : Nat) :
    (new maxQueueSize).Placement where
  wellFormed := Broker.wellFormed_of_reachable .start
  placed := by simp [new, Broker.new]
  logged := by simp [new, Trace.new]

theorem Placement.turn {traced : TracedBroker}
    (placement : traced.Placement) {index : Nat} {call next : Call}
    {shared : ServerState} {trace : Trace}
    (found : traced.broker.calls[index]? = some call)
    (turn : TracedTurn traced.broker.shared traced.trace index call shared
      next trace)
    (wellFormed : Broker.WellFormed
      ⟨shared, traced.broker.calls.set index next⟩) :
    Placement ⟨⟨shared, traced.broker.calls.set index next⟩, trace⟩ := by
  have isPlaced : ∀ request point, call = .publish request point →
      Placed traced.broker.shared point := fun request point isCall =>
    placement.placed index request point (isCall ▸ found)
  refine ⟨wellFormed, ?_, ?_⟩
  · intro other request point isCall
    rcases getElem?_set_cases isCall with ⟨-, isNext⟩ | ⟨-, old⟩
    · exact turn.placed placement.wellFormed.topology isPlaced isNext.symm
    · exact (placement.placed other request point old).mono
        fun _ => turn.queues_isSome
  · intro queueName entry member
    rcases turn.log_cases isPlaced member with
      old | ⟨request, point, rfl, isIndex, isEntry, past⟩
    · obtain ⟨request, point, isCall, isEntry, past⟩ :=
        placement.logged queueName entry old
      by_cases isIndex : entry.1 = index
      · rw [isIndex, found] at isCall
        obtain ⟨following, rfl, stillPast⟩ :=
          turn.not_ahead (Option.some.inj isCall) past
        refine ⟨request, following, ?_, isEntry, stillPast⟩
        rw [isIndex]
        exact getElem?_set_moved found _
      · refine ⟨request, point, ?_, isEntry, past⟩
        exact (List.getElem?_set_ne (Ne.symm isIndex)).trans isCall
    · refine ⟨request, point, ?_, isEntry, past⟩
      rw [isIndex]
      exact getElem?_set_moved found _

theorem Placement.step {before after : TracedBroker} {event : Broker.Event}
    (placement : before.Placement) (faithful : before.Faithful)
    (stepTo : before.step event = some after) : after.Placement := by
  obtain ⟨broker, stepped, isAfter⟩ := Option.map_eq_some_iff.mp stepTo
  have wellFormed := placement.wellFormed.step stepped
  have sameBroker : after.broker = broker := by rw [← isAfter]
  rw [← sameBroker] at wellFormed
  rcases step_cases stepTo with
    ⟨invocation, -, rfl⟩ |
    ⟨index, reading, call, shared, next, trace, -, found, turn, rfl⟩ |
    ⟨index, -, rfl⟩ | ⟨channel, -, rfl⟩ | ⟨shared, flow, rfl⟩
  · refine ⟨wellFormed, ?_, ?_⟩
    · intro index request point isCall
      rcases getElem?_concat_cases isCall with old | ⟨-, started⟩
      · exact placement.placed index request point old
      · cases invocation <;> cases started
        trivial
    · intro queueName entry member
      obtain ⟨request, point, isCall, written⟩ :=
        placement.logged queueName entry member
      exact ⟨request, point, getElem?_append_kept isCall _, written⟩
  · exact placement.turn found turn wellFormed
  · rcases runTask_cases faithful.tasks index with
      ⟨sameState, sameTrace⟩ | ⟨task, entry, rest, -, -, -, isState, isTrace⟩
    · rw [sameState, sameTrace]
      exact placement
    · rw [isState] at wellFormed
      rw [isState, isTrace]
      refine ⟨wellFormed, ?_, ?_⟩
      · intro position request point isCall
        exact (placement.placed position request point isCall).mono
          fun _ present => present
      · split <;> exact placement.logged
  · exact ⟨wellFormed, fun position request point isCall =>
      (placement.placed position request point isCall).mono
        fun _ present => present, placement.logged⟩
  · refine ⟨wellFormed, ?_, placement.logged⟩
    intro position request point isCall
    refine (placement.placed position request point isCall).mono ?_
    intro queueName present
    rwa [flow.queues]

end TracedBroker

end CipherMQ
