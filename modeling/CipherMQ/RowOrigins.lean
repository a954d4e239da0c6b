import CipherMQ.PersistentBroker

/-!
# Where statuses and replies come from

A publish waits for the reply to its own row before it makes the message
visible.  So every status, every publish past that point and every
acknowledgement that has found a status belongs to a message whose row the
worker has saved.  What counts as saved is left open here: a row in the table,
or a statement that has succeeded during the run.
-/

namespace CipherMQ

open ServerState

namespace PersistentBroker

/-- Statuses, publishes and replies are about saved messages, and a call waits
for the reply to its own row only. -/
structure Grounded (saved : String → Prop) (state : PersistentBroker) :
    Prop where
  status : ∀ messageId,
    (state.broker.shared.messageStatus messageId).isSome → saved messageId
  call : ∀ request point, .publish request point ∈ state.broker.calls →
    hasRow point = true → saved request.message.messageId
  reply : ∀ index, state.replies index = some (.ok ()) →
    ∃ request, (state.broker.calls[index]?).map Call.invocation =
        some (.publish request) ∧
      saved request.message.messageId
  asked : ∀ (command : StorageCommand) (index : Nat),
    (command, some index) ∈ state.channel →
      ∃ metadata request, command = .saveMetadata metadata ∧
        (state.broker.calls[index]?).map Call.invocation =
          some (.publish request) ∧
        request.message.messageId = metadata.messageId

theorem rowAsked_eq_some {time : String} {call : Call}
    {metadata : MessageMetadata} (asked : rowAsked time call = some metadata) :
    metadata.acknowledgedTime = none ∧
      ∃ request, call = .publish request .saveMetadata ∧
        request.message.messageId = metadata.messageId := by
  unfold rowAsked at asked
  split at asked
  · cases asked
    exact ⟨rfl, _, rfl, rfl⟩
  · cases asked

theorem receiveReply_cases
    {replies : KeyMap Nat (Except StorageError Unit)} {caller : Option Nat}
    {reply : Option StorageWorker.Reply} {index : Nat}
    {result : Except StorageError Unit}
    (replied : receiveReply replies caller reply index = some result) :
    replies index = some result ∨
      caller = some index ∧ reply = some (.saved result) := by
  cases caller with
  | none => exact Or.inl replied
  | some call =>
      match reply with
      | none => exact Or.inl replied
      | some (.found _) => exact Or.inl replied
      | some (.saved other) =>
          by_cases same : index = call
          · subst same
            right
            simp only [receiveReply, KeyMap.insert_apply, if_true,
              Option.some.injEq] at replied
            exact ⟨rfl, by rw [replied]⟩
          · left
            simpa [receiveReply, same] using replied

namespace Grounded

variable {saved : String → Prop} {state : PersistentBroker}
  (grounded : state.Grounded saved)

include grounded

theorem submit {call : Nat} {time : String} {metadata : MessageMetadata}
    (asks : (state.broker.calls[call]?).bind (rowAsked time) =
      some metadata) :
    Grounded saved { state with
      channel := state.channel ++ [(.saveMetadata metadata, some call)]
      submitted := state.submitted.insert call time } := by
  obtain ⟨made, found, isAsked⟩ := Option.bind_eq_some_iff.mp asks
  obtain ⟨-, request, rfl, sameId⟩ := rowAsked_eq_some isAsked
  refine ⟨grounded.status, grounded.call, grounded.reply, ?_⟩
  intro command index member
  rcases List.mem_append.mp member with old | isNew
  · exact grounded.asked command index old
  · rw [List.mem_singleton] at isNew
    cases isNew
    exact ⟨metadata, request, rfl, by simp [found, Call.invocation], sameId⟩

theorem query (command : StorageCommand) :
    Grounded saved { state with
      channel := state.channel ++ [(command, none)] } := by
  refine ⟨grounded.status, grounded.call, grounded.reply, ?_⟩
  intro other index member
  rcases List.mem_append.mp member with old | isNew
  · exact grounded.asked other index old
  · rw [List.mem_singleton] at isNew
    cases isNew

/-- A status is inserted only for a message with a row. -/
theorem inserted {index : Nat} {messageId : String}
    (inserts : (state.broker.calls[index]?).bind insertedId =
      some messageId) : saved messageId := by
  obtain ⟨call, found, isInserted⟩ := Option.bind_eq_some_iff.mp inserts
  unfold insertedId at isInserted
  split at isInserted
  · cases isInserted
    exact grounded.call _ _ (List.mem_of_getElem? found) rfl
  · cases isInserted

theorem broker {event : Broker.Event} {broker : Broker}
    (answered : state.Answered event)
    (stepTo : state.broker.step event = some broker) :
    Grounded saved { state with
      broker := broker
      channel := state.channel ++
        (reported state.broker broker).map fun command =>
          (command, none) } := by
  refine ⟨?_, ?_, ?_, ?_⟩
  · intro messageId tracked
    by_cases inserts : ∃ index reading, event = .advance index reading ∧
        (state.broker.calls[index]?).bind insertedId = some messageId
    · obtain ⟨index, reading, -, isInserted⟩ := inserts
      exact grounded.inserted isInserted
    · apply grounded.status
      have kept := Broker.status_cases stepTo
        fun index reading isAdvance isInserted =>
          inserts ⟨index, reading, isAdvance, isInserted⟩
      rcases kept with same | dropped | ⟨was, -⟩
      · have isSome := congrArg Option.isSome same
        rw [Option.isSome_map, Option.isSome_map] at isSome
        rw [← isSome]
        exact tracked
      · simp [dropped] at tracked
      · exact was
  · intro request point member past
    rcases Broker.hasRow_cases stepTo member past with
      ⟨earlier, was, already⟩ | ⟨index, reading, rfl, found, succeeded⟩
    · exact grounded.call request earlier was already
    · have reply := answered (by simp [found, rowAsked])
      rw [succeeded] at reply
      obtain ⟨other, made, row⟩ := grounded.reply index reply.2
      rw [found] at made
      cases made
      exact row
  · intro index replied
    obtain ⟨request, made, row⟩ := grounded.reply index replied
    exact ⟨request, Broker.invocation_kept stepTo made, row⟩
  · intro command index member
    rcases List.mem_append.mp member with old | isNew
    · obtain ⟨metadata, request, isSave, made, sameId⟩ :=
        grounded.asked command index old
      exact ⟨metadata, request, isSave, Broker.invocation_kept stepTo made,
        sameId⟩
    · obtain ⟨other, -, isEntry⟩ := List.mem_map.mp isNew
      cases isEntry

/-- What the worker does next, if what was saved stays saved and a good reply
is to a message that is saved now. -/
theorem worker {savedNow : String → Prop} {after : PersistentBroker}
    (broker : after.broker = state.broker)
    (channel : ∀ entry ∈ after.channel, entry ∈ state.channel)
    (rows : ∀ messageId, saved messageId → savedNow messageId)
    (replies : ∀ index, after.replies index = some (.ok ()) →
      state.replies index = some (.ok ()) ∨
        ∃ request, (state.broker.calls[index]?).map Call.invocation =
            some (.publish request) ∧
          savedNow request.message.messageId) :
    after.Grounded savedNow := by
  refine ⟨?_, ?_, ?_, ?_⟩
  · intro messageId tracked
    rw [broker] at tracked
    exact rows _ (grounded.status messageId tracked)
  · intro request point member past
    rw [broker] at member
    exact rows _ (grounded.call request point member past)
  · intro index replied
    rw [broker]
    rcases replies index replied with already | isNew
    · obtain ⟨request, made, row⟩ := grounded.reply index already
      exact ⟨request, made, rows _ row⟩
    · exact isNew
  · intro command index member
    rw [broker]
    exact grounded.asked command index (channel _ member)

end Grounded

end PersistentBroker

end CipherMQ
