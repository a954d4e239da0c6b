import CipherMQ.ServerState

/-!
# The notify loop of a publish

After a message is in its queues, the consumers of every target queue are
notified: an open sender is sent one copy for each of its registrations, and a
closed one is dropped from the list.  This file gives the loop a closed form
for distinct target queues.
-/

namespace CipherMQ

namespace Channel

def push (channel : Channel) (deliveries : List Delivery) : Channel :=
  if channel.closed then channel
  else { channel with sent := channel.sent ++ deliveries }

@[simp]
theorem push_nil (channel : Channel) : channel.push [] = channel := by
  simp [push]

@[simp]
theorem push_closed (channel : Channel)
    (deliveries : List Delivery) :
    (channel.push deliveries).closed = channel.closed := by
  unfold push
  split <;> rfl

theorem push_push (channel : Channel) (first second : List Delivery) :
    (channel.push first).push second = channel.push (first ++ second) := by
  by_cases closed : channel.closed <;> simp [push, closed]

end Channel

namespace ServerState

/-- The copies of a message that a publish to `targets` puts on a channel: one
for every registration of the channel on every target queue. -/
def copies (state : ServerState) (message : EncryptedInputData)
    (targets : List String) (channel : ChannelId) : List Delivery :=
  targets.flatMap fun queueName =>
    List.replicate (((state.consumers queueName).getD []).count channel)
      ⟨queueName, message.messageId, message⟩

def openSenders (state : ServerState) (senders : List ChannelId) :
    List ChannelId :=
  senders.filter fun sender => !(state.channels sender).closed

def notified (state : ServerState) (message : EncryptedInputData)
    (targets : List String) : ServerState :=
  { state with
    consumers := fun queueName =>
      if queueName ∈ targets then
        (state.consumers queueName).map state.openSenders
      else
        state.consumers queueName
    channels := fun channel =>
      (state.channels channel).push (state.copies message targets channel) }

theorem notifySender_eq (delivery : Delivery)
    (progress : ServerState × List ChannelId) (sender : ChannelId) :
    notifySender delivery progress sender =
      ({ progress.1 with
          channels := Function.update progress.1.channels sender
            ((progress.1.channels sender).push [delivery]) },
        progress.2 ++ progress.1.openSenders [sender]) := by
  by_cases closed : (progress.1.channels sender).closed
  · simp [notifySender, Channel.push, openSenders, closed]
  · simp [notifySender, send, Channel.push, openSenders, closed]

theorem foldl_notifySender (delivery : Delivery) (state : ServerState)
    (kept senders : List ChannelId) :
    senders.foldl (notifySender delivery) (state, kept) =
      ({ state with
          channels := fun channel =>
            (state.channels channel).push
              (List.replicate (senders.count channel) delivery) },
        kept ++ state.openSenders senders) := by
  induction senders generalizing state kept with
  | nil => simp [openSenders]
  | cons sender senders ih =>
      rw [List.foldl_cons, notifySender_eq, ih]
      simp only [Prod.mk.injEq]
      constructor
      · apply ServerState.ext
        case channels =>
          funext channel
          by_cases same : channel = sender
          · subst same
            simp [Channel.push_push, List.replicate_succ]
          · simp [same, Ne.symm same]
        all_goals rfl
      · have sameOpen : ∀ channel,
            (Function.update state.channels sender
              ((state.channels sender).push [delivery]) channel).closed =
              (state.channels channel).closed := by
          intro channel
          by_cases same : channel = sender
          · subst same
            simp
          · simp [same]
        simp only [openSenders, sameOpen]
        rw [List.append_assoc, ← List.filter_append]
        rfl

/-- One round of the notify loop is the closed form for a single target. -/
theorem notifyConsumers_eq (message : EncryptedInputData)
    (state : ServerState) (queueName : String) :
    notifyConsumers message state queueName =
      state.notified message [queueName] := by
  unfold notifyConsumers
  cases registered : state.consumers queueName with
  | none =>
      apply ServerState.ext
      case consumers =>
        funext other
        by_cases same : other = queueName
        · simp [notified, same, registered]
        · simp [notified, same]
      case channels =>
        funext channel
        simp [notified, copies, registered]
      all_goals rfl
  | some senders =>
      simp only [foldl_notifySender]
      apply ServerState.ext
      case consumers =>
        funext other
        by_cases same : other = queueName
        · simp [notified, same, registered]
        · simp [notified, same]
      case channels =>
        funext channel
        simp [notified, copies, registered]
      all_goals rfl

/-- Notifying one queue and then others is notifying all of them, when the
first is not among the others. -/
theorem notified_cons (state : ServerState) (message : EncryptedInputData)
    {queueName : String} {rest : List String} (fresh : queueName ∉ rest) :
    (state.notified message [queueName]).notified message rest =
      state.notified message (queueName :: rest) := by
  have different : ∀ other ∈ rest, other ≠ queueName := by
    rintro other member rfl
    exact fresh member
  have sameOpen : ∀ channel,
      ((state.notified message [queueName]).channels channel).closed =
        (state.channels channel).closed := by
    intro channel
    simp [notified]
  have sameCopies : ∀ channel,
      (state.notified message [queueName]).copies message rest channel =
        state.copies message rest channel := by
    intro channel
    unfold copies
    apply List.flatMap_congr
    intro other member
    simp [notified, different other member]
  apply ServerState.ext
  case consumers =>
    funext other
    by_cases inRest : other ∈ rest
    · have unchanged :
          (state.notified message [queueName]).consumers other =
            state.consumers other := by
        simp [notified, different other inRest]
      have sameSenders :
          (state.notified message [queueName]).openSenders =
            state.openSenders := by
        funext senders
        simp only [openSenders, sameOpen]
      change (if other ∈ rest then _ else _) = if _ then _ else _
      rw [if_pos inRest, if_pos (by simp [inRest]), unchanged, sameSenders]
    · simp [notified, inRest]
  case channels =>
    funext channel
    change ((state.channels channel).push _).push _ = _
    rw [Channel.push_push, sameCopies]
    simp [notified, copies]
  all_goals rfl

theorem foldl_notifyConsumers (message : EncryptedInputData)
    (state : ServerState) (targets : List String) (distinct : targets.Nodup) :
    targets.foldl (notifyConsumers message) state =
      state.notified message targets := by
  induction targets generalizing state with
  | nil =>
      apply ServerState.ext <;> simp [notified, copies]
  | cons first rest ih =>
      obtain ⟨fresh, restDistinct⟩ := List.nodup_cons.mp distinct
      rw [List.foldl_cons, notifyConsumers_eq, ih _ restDistinct,
        notified_cons state message fresh]

end ServerState

end CipherMQ
