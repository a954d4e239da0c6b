import CipherMQ.SubscribeHandOff

/-!
# Messages after their acknowledgement

An acknowledgement forgets the status that the duplicate check looks for, so a
publish that repeats the identifier afterwards is accepted and the message
comes back.  Apart from that nothing brings an acknowledged message back: while
no publish of it takes a step, no queue gets another entry of it, and the
copies still sent are those that tasks and registrations had picked up before.
-/

namespace CipherMQ

open ServerState

def Call.Publishes (messageId : String) : Call → Prop
  | .publish request _ => request.message.messageId = messageId
  | _ => False

instance (messageId : String) (call : Call) :
    Decidable (call.Publishes messageId) := by
  unfold Call.Publishes
  split <;> infer_instance

def entriesOf (messageId : String) (queue : List QueueEntry) :
    List QueueEntry :=
  queue.filter fun entry => entry.1 = messageId

def sentCopies (messageId : String) (channel : Channel) : Nat :=
  channel.sent.countP fun delivery => delivery.messageId = messageId

namespace Access

variable {messageId : String} {before after : ServerState} {call : Call}
  (access : Access before call after)
  (unpublished : ¬ call.Publishes messageId)

include access unpublished

theorem untracked_kept
    (untracked : before.messageStatus messageId = none) :
    after.messageStatus messageId = none := by
  cases access with
  | evictStatus request targets queueSet remaining oldMessageId =>
      simp [ServerState.evictStatus, untracked]
  | insertStatus request targets =>
      have different : messageId ≠ request.message.messageId :=
        Ne.symm unpublished
      simp [different, untracked]
  | markAcknowledged other now =>
      simp [ServerState.markAcknowledged, untracked]
  | removeStatus other => simp [untracked]
  | _ => exact untracked

theorem entriesOf_sublist (queueName : String) :
    List.Sublist (entriesOf messageId ((after.queues queueName).getD []))
      (entriesOf messageId ((before.queues queueName).getD [])) := by
  cases access with
  | declareQueue _ other =>
      by_cases same : queueName = other
      · subst same
        cases found : before.queues queueName with
        | none => simp [ServerState.declareQueue, found]
        | some queue => simp [ServerState.declareQueue, found]
      · simp [ServerState.declareQueue, same]
  | append request targets queueSet other remaining queue found =>
      by_cases same : queueName = other
      · subst same
        have different : request.message.messageId ≠ messageId := unpublished
        simp only [KeyMap.insert_apply, if_true, Option.getD_some, found,
          entriesOf, appended, List.filter_append, popOldest_snd]
        simp only [List.filter_cons, different, decide_false,
          Bool.false_eq_true, if_false, List.filter_nil, List.append_nil]
        split
        · exact (List.tail_sublist queue).filter _
        · exact List.Sublist.refl _
      · simp [same]
  | removeFrom other otherQueue remaining =>
      by_cases same : queueName = otherQueue
      · subst same
        cases found : before.queues queueName with
        | none => simp [removeFromQueue, found]
        | some queue =>
            simp only [removeFromQueue, KeyMap.modify_apply, if_true, found,
              Option.map_some, Option.getD_some]
            exact List.filter_sublist.filter _
      · simp [removeFromQueue, same]
  | _ => exact List.Sublist.refl _

theorem sentCopies_eq (channel : ChannelId) :
    sentCopies messageId (after.channels channel) =
      sentCopies messageId (before.channels channel) := by
  cases access with
  | notify request queueName remaining =>
      change sentCopies messageId ((before.channels channel).push _) = _
      have none_copied :
          (before.copies request.message [queueName] channel).countP
            (fun delivery => delivery.messageId = messageId) = 0 := by
        rw [List.countP_eq_zero]
        intro delivery member
        have sameId := (mem_copies member).1
        simp only [decide_eq_true_eq, sameId]
        exact unpublished
      unfold sentCopies Channel.push
      split
      · rfl
      · simp [List.countP_append, none_copied]
  | _ => rfl

end Access

namespace Broker

/-- The copies a task has still to send on a channel. -/
def waitingCopies (messageId : String) (channel : ChannelId)
    (task : DeliveryTask) : Nat :=
  if task.channel = channel then copiesIn messageId task.remaining else 0

/-- The copies a registration has picked up for a channel. -/
def capturedCopies (messageId : String) (channel : ChannelId) : Call → Nat
  | .registerConsumer _ sender (.readStatus captured _) =>
      if sender = channel then copiesIn messageId captured else 0
  | _ => 0

def copiesUnderway (messageId : String) (channel : ChannelId)
    (broker : Broker) : Nat :=
  (broker.shared.deliveryTasks.map (waitingCopies messageId channel)).sum +
    (broker.calls.map (capturedCopies messageId channel)).sum

def Unpublished (messageId : String) (broker : Broker) : Event → Prop
  | .advance index _ =>
      ∀ call ∈ broker.calls[index]?, ¬ call.Publishes messageId
  | _ => True

instance (messageId : String) (broker : Broker) (event : Event) :
    Decidable (Unpublished messageId broker event) :=
  match event with
  | .advance index _ =>
      inferInstanceAs (Decidable (∀ call ∈ broker.calls[index]?,
        ¬ call.Publishes messageId))
  | .invoke _ => instDecidableTrue
  | .markDelivered _ _ => instDecidableTrue
  | .dropReceiver _ => instDecidableTrue
  | .runDeliveryTask _ => instDecidableTrue
  | .bookkeep _ _ => instDecidableTrue

theorem captured_advance {messageId : String} {state : ServerState}
    (untracked : state.messageStatus messageId = none) (channel : ChannelId)
    (reading : Reading) (call : Call) :
    ((call.advance reading state).1.deliveryTasks.map
        (waitingCopies messageId channel)).sum +
        capturedCopies messageId channel (call.advance reading state).2 ≤
      (state.deliveryTasks.map (waitingCopies messageId channel)).sum +
        capturedCopies messageId channel call := by
  have access := access_advance reading state call
  cases call with
  | registerConsumer queueName sender point =>
      cases point with
      | readQueue =>
          simp only [Call.advance, registerConsumerStep]
          split
          · split <;> simp [capturedCopies, copiesIn]
          · simp [capturedCopies]
      | readStatus captured unread =>
          cases unread with
          | nil =>
              simp [Call.advance, registerConsumerStep, capturedCopies,
                ServerState.spawn, waitingCopies]
          | cons entry unread =>
              simp only [Call.advance, registerConsumerStep]
              split
              · rename_i live
                -- A live entry is of another message.
                have different : entry.1 ≠ messageId := by
                  rintro rfl
                  simp [deliverable, untracked] at live
                simp [capturedCopies, copiesIn, different]
              · simp [capturedCopies]
      | declareQueue => exact le_refl _
      | addConsumer => exact le_refl _
      | returned task => exact le_refl _
  | declareQueue queueName point => cases point <;> exact le_refl _
  | declareExchange exchangeName point => cases point <;> exact le_refl _
  | bindQueue queueName exchangeName routingKey point =>
      rw [access.tasks_eq (by simp)]
      exact le_refl _
  | publish request point =>
      rw [access.tasks_eq (by simp)]
      exact le_refl _
  | acknowledge other point =>
      rw [access.tasks_eq (by simp)]
      exact le_refl _

/-- How a message that has no status stands against an earlier moment: no
queue has more of it, and no channel more than was underway to it. -/
structure StaysAway (messageId : String) (start broker : Broker) :
    Prop where
  untracked : broker.shared.messageStatus messageId = none
  entries : ∀ queueName, List.Sublist
    (entriesOf messageId ((broker.shared.queues queueName).getD []))
    (entriesOf messageId ((start.shared.queues queueName).getD []))
  copies : ∀ channel,
    sentCopies messageId (broker.shared.channels channel) +
        copiesUnderway messageId channel broker ≤
      sentCopies messageId (start.shared.channels channel) +
        copiesUnderway messageId channel start

theorem copies_runDeliveryTask (messageId : String) (channel : ChannelId)
    (state : ServerState) (index : Nat) :
    sentCopies messageId ((state.runDeliveryTask index).channels channel) +
        ((state.runDeliveryTask index).deliveryTasks.map
          (waitingCopies messageId channel)).sum ≤
      sentCopies messageId (state.channels channel) +
        (state.deliveryTasks.map (waitingCopies messageId channel)).sum := by
  rcases runDeliveryTask_cases state index with
    same | ⟨task, entry, rest, found, remaining, ran⟩
  · rw [same]
  · rw [ran]
    have total := sum_map_set (waitingCopies messageId channel) found
      { task with
        remaining :=
          if (state.channels task.channel).closed then [] else rest }
    by_cases same : task.channel = channel
    · subst same
      by_cases closed : (state.channels task.channel).closed
      · simp only [waitingCopies, closed, if_true, Function.update_self,
          Channel.push] at total ⊢
        simp only [copiesIn, List.countP_nil] at total
        omega
      · simp only [waitingCopies, closed, if_true, Function.update_self,
          Channel.push, sentCopies, copiesIn, remaining] at total ⊢
        simp only [Bool.false_eq_true, if_false, List.countP_append,
          List.countP_cons, List.countP_nil] at total ⊢
        omega
    · have elsewhere : waitingCopies messageId channel task = 0 :=
        if_neg same
      simp only [waitingCopies, same, if_false] at total
      simp only [Function.update_of_ne (Ne.symm same)]
      omega

theorem StaysAway.advance {messageId : String} {start broker : Broker}
    (away : StaysAway messageId start broker) {index : Nat} {call : Call}
    (found : broker.calls[index]? = some call)
    (unpublished : ¬ call.Publishes messageId) (reading : Reading) :
    StaysAway messageId start ⟨(call.advance reading broker.shared).1,
      broker.calls.set index (call.advance reading broker.shared).2⟩ := by
  have access := access_advance reading broker.shared call
  constructor
  case untracked => exact access.untracked_kept unpublished away.untracked
  case entries =>
    intro queueName
    exact (access.entriesOf_sublist unpublished queueName).trans
      (away.entries queueName)
  case copies =>
    intro channel
    have sameSent := access.sentCopies_eq unpublished channel
    have captured :=
      captured_advance away.untracked channel reading call
    have total := sum_map_set (capturedCopies messageId channel) found
      (call.advance reading broker.shared).2
    have bound := away.copies channel
    unfold copiesUnderway at bound ⊢
    simp only [sameSent]
    omega

theorem StaysAway.step {messageId : String} {start before after : Broker}
    {event : Event} (away : StaysAway messageId start before)
    (unpublished : Unpublished messageId before event)
    (stepTo : before.step event = some after) :
    StaysAway messageId start after := by
  rcases step_cases stepTo with
    ⟨invocation, -, rfl⟩ | ⟨index, reading, call, rfl, found, -, rfl⟩ |
    ⟨other, reading, -, rfl⟩ | ⟨channel, -, rfl⟩ | ⟨index, -, rfl⟩ |
    ⟨_, _, -, rfl⟩
  · refine ⟨away.untracked, away.entries, ?_⟩
    intro channel
    have nothing : capturedCopies messageId channel invocation.start = 0 := by
      cases invocation <;> rfl
    simpa [copiesUnderway, nothing] using away.copies channel
  · exact away.advance found (unpublished call found) reading
  · obtain ⟨messageStatus, storage, marked, sameStatus⟩ :=
      markDelivered_frame before.shared other reading.now reading.time
    rw [marked]
    refine ⟨?_, away.entries, away.copies⟩
    have same := sameStatus messageId
    rw [away.untracked] at same
    simpa using same
  · refine ⟨away.untracked, away.entries, ?_⟩
    intro other
    have sameSent : ((before.shared.dropReceiver channel).channels
        other).sent = (before.shared.channels other).sent := by
      by_cases same : other = channel
      · simp [ServerState.dropReceiver, same]
      · simp [ServerState.dropReceiver, same]
    have bound := away.copies other
    unfold sentCopies at bound ⊢
    rwa [sameSent]
  · obtain ⟨channels, deliveryTasks, ran⟩ :=
      runDeliveryTask_frame before.shared index
    refine ⟨?_, ?_, ?_⟩
    · rw [ran]
      exact away.untracked
    · rw [ran]
      exact away.entries
    · intro channel
      have moved :=
        copies_runDeliveryTask messageId channel before.shared index
      have bound := away.copies channel
      unfold copiesUnderway at bound ⊢
      dsimp only at moved ⊢
      omega
  · exact ⟨away.untracked, away.entries, away.copies⟩

/-- After an acknowledgement has completed, and as long as no publish of the
message takes a step, no queue gets an entry of it and no channel more copies
than were underway to it. -/
theorem acknowledged_stays_away {messageId : String}
    {before start final : Broker} {index : Nat} {reading : Reading}
    (acknowledging : before.calls[index]? =
      some (.acknowledge messageId .removeStatus))
    (completes : before.step (.advance index reading) = some start)
    (run : ReachableWhile step (Unpublished messageId) start final) :
    start.calls[index]? = some (.acknowledge messageId .returned) ∧
      (∀ queueName, List.Sublist
        (entriesOf messageId ((final.shared.queues queueName).getD []))
        (entriesOf messageId ((start.shared.queues queueName).getD []))) ∧
      ∀ channel, sentCopies messageId (final.shared.channels channel) ≤
        sentCopies messageId (start.shared.channels channel) +
          copiesUnderway messageId channel start := by
  have completed : start =
      ⟨{ before.shared with
          messageStatus := before.shared.messageStatus.remove messageId },
        before.calls.set index (.acknowledge messageId .returned)⟩ := by
    simp only [step, acknowledging] at completes
    exact (Option.some.inj completes).symm
  have untracked : start.shared.messageStatus messageId = none := by
    simp [completed]
  have away : StaysAway messageId start final :=
    run.invariant _ ⟨untracked, fun _ => List.Sublist.refl _,
      fun _ => le_refl _⟩
      fun _ _ _ away unpublished stepTo => away.step unpublished stepTo
  refine ⟨?_, away.entries, ?_⟩
  · rw [completed]
    exact getElem?_set_moved acknowledging _
  · intro channel
    have bound := away.copies channel
    omega

/-- A publish and its acknowledgement, up to the last access of the
acknowledgement. -/
def acknowledgedOnce : List Event :=
  [.invoke (.declareQueue "q"), .advance 0 savedReading,
    .invoke (.declareExchange "e"), .advance 1 savedReading,
    .invoke (.bindQueue "q" "e" "k")] ++ accesses 2 3 ++
  [.invoke (.registerConsumer "q" 0)] ++ accesses 3 3 ++
  [.invoke (.publish (sampleRequest "m" "sender_1"))] ++ accesses 4 8 ++
  [.invoke (.acknowledge "m")] ++ accesses 5 7

/-- After the acknowledgement a new consumer of the queue gets nothing. -/
theorem acknowledged_stays_away_newConsumer :
    ∃ before start final, Reachable step (new 10) before ∧
      before.step (.advance 5 savedReading) = some start ∧
      ReachableWhile step (Unpublished "m") start final ∧
      (∀ queueName, List.Sublist
        (entriesOf "m" ((final.shared.queues queueName).getD []))
        (entriesOf "m" ((start.shared.queues queueName).getD []))) := by
  have ran : ((executeWhile step (fun _ _ => True) (new 10)
      acknowledgedOnce).bind fun before =>
        (before.step (.advance 5 savedReading)).bind fun start =>
          (executeWhile step (Unpublished "m") start
            (.invoke (.registerConsumer "q" 1) :: accesses 6 3)).map
              fun _ => before.calls[5]?) =
      some (some (.acknowledge "m" .removeStatus)) := by
    rfl
  obtain ⟨before, started, ran⟩ := Option.bind_eq_some_iff.mp ran
  obtain ⟨start, completes, ran⟩ := Option.bind_eq_some_iff.mp ran
  obtain ⟨final, run, acknowledging⟩ := exists_reachableWhile_of_map ran
  exact ⟨before, start, final, reachableWhile_of_executeWhile started,
    completes, run,
    (acknowledged_stays_away acknowledging completes run).2.1⟩

/-- A sender's retry after the acknowledgement puts the message back into the
queue and on the consumer's channel. -/
theorem acknowledged_comes_back :
    ∃ before start final, Reachable step (new 10) before ∧
      before.calls[5]? = some (.acknowledge "m" .removeStatus) ∧
      before.step (.advance 5 savedReading) = some start ∧
      Reachable step start final ∧
      start.shared.queues "q" = some [] ∧
      final.shared.queues "q" = some [("m", sampleMessage "m")] ∧
      sentCopies "m" (start.shared.channels 0) = 1 ∧
      sentCopies "m" (final.shared.channels 0) = 2 := by
  have ran : ((executeWhile step (fun _ _ => True) (new 10)
      acknowledgedOnce).bind fun before =>
        (before.step (.advance 5 savedReading)).bind fun start =>
          (executeWhile step (fun _ _ => True) start
            (.invoke (.publish (sampleRequest "m" "sender_1")) ::
              accesses 6 8)).map fun final =>
              (before.calls[5]?, start.shared.queues "q",
                final.shared.queues "q",
                sentCopies "m" (start.shared.channels 0),
                sentCopies "m" (final.shared.channels 0))) =
      some (some (.acknowledge "m" .removeStatus), some [],
        some [("m", sampleMessage "m")], 1, 2) := by
    rfl
  obtain ⟨before, started, ran⟩ := Option.bind_eq_some_iff.mp ran
  obtain ⟨start, completes, ran⟩ := Option.bind_eq_some_iff.mp ran
  obtain ⟨final, reached, ran⟩ := exists_reachableWhile_of_map ran
  simp only [Prod.mk.injEq] at ran
  obtain ⟨acknowledging, emptied, filled, sentBefore, sentAfter⟩ := ran
  exact ⟨before, start, final, reachableWhile_of_executeWhile started,
    acknowledging, completes, reached,
    emptied, filled, sentBefore, sentAfter⟩

end Broker

end CipherMQ
