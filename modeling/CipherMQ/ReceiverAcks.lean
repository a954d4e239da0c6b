import CipherMQ.ReceiverClient
import CipherMQ.TransitionSystem

/-!
# What the receiver acknowledges

An acknowledged message is forgotten by the server, so the receiver should
acknowledge only what its writer task has or will have written.  The receive
loop hands a message to the writer and then acknowledges it whether or not the
hand-off succeeded.  The two go together as long as the writer outlives the
loop: its file can be opened, and when it stops for good nothing is left in
its channel and no message is being handled.
-/

namespace CipherMQ

namespace Receiver

def WriterPoint.isAlive : WriterPoint → Bool
  | .closing => false
  | .ended => false
  | _ => true

/-- Whether the receive loop has begun an iteration that may handle a
message. -/
def MainPoint.inIteration : MainPoint → Bool
  | .reading => true
  | .storing _ _ => true
  | .acknowledging _ => true
  | _ => false

def MainPoint.pending : MainPoint → List String
  | .acknowledging messageId => [messageId]
  | _ => []

def StoredRecord.entry (record : StoredRecord) : String × String :=
  (record.messageId, record.message)

def kept (receiver : Receiver) : List (String × String) :=
  (receiver.file ++ receiver.batch).map StoredRecord.entry ++
    receiver.messages

def WriterOutlives (receiver : Receiver) : Event → Prop
  | .writer (.createDirectory succeeds) => succeeds = true
  | .writer (.openFile succeeds) => succeeds = true
  | .writer .testRunning =>
      receiver.running = false →
        receiver.main.inIteration = false ∧ receiver.messages = []
  | _ => True

instance (receiver : Receiver) (event : Event) :
    Decidable (WriterOutlives receiver event) :=
  match event with
  | .writer (.createDirectory succeeds) =>
      inferInstanceAs (Decidable (succeeds = true))
  | .writer (.openFile succeeds) =>
      inferInstanceAs (Decidable (succeeds = true))
  | .writer .testRunning =>
      inferInstanceAs (Decidable (receiver.running = false →
        receiver.main.inIteration = false ∧ receiver.messages = []))
  | .writer (.receive _) => instDecidableTrue
  | .writer .timeOut => instDecidableTrue
  | .writer .close => instDecidableTrue
  | .main _ => instDecidableTrue
  | .acks _ => instDecidableTrue
  | .interrupt => instDecidableTrue

/-! ## What the main task does to messages -/

/-- How a step of the main task handles a message: not at all, by handing it
to the writer, or by acknowledging it. -/
inductive Handling (before after : Receiver) : Prop
  | other :
      after.messages = before.messages → after.acked = before.acked →
        after.main.pending = [] → Handling before after
  | store (messageId content : String) :
      before.main = .storing messageId content →
        after.main = .acknowledging messageId →
          after.acked = before.acked →
            before.writer ≠ .ended →
              after.messages = before.messages ++ [(messageId, content)] →
                Handling before after
  | lose (messageId content : String) :
      before.main = .storing messageId content →
        after.main = .acknowledging messageId →
          after.acked = before.acked →
            before.writer = .ended →
              after.messages = before.messages → Handling before after
  | acknowledge (messageId : String) :
      before.main = .acknowledging messageId →
        after.main = .testLoop → after.messages = before.messages →
          after.acked = before.acked ++ [messageId] →
            Handling before after

/-- A step of the main task: the writer is left alone, the running flag is
only ever cleared, and an iteration only begins while it is set. -/
structure MainMove (before after : Receiver) : Prop where
  writer : after.writer = before.writer
  batch : after.batch = before.batch
  file : after.file = before.file
  stops : before.running = false → after.running = false
  begins : after.main.inIteration = true →
    before.main.inIteration = true ∨ before.running = true
  handling : Handling before after

/-- A step that only moves the main task to a point where no message is
pending, perhaps clearing the flag or replacing the acknowledging task. -/
theorem MainMove.to_point {before : Receiver} {running : Bool}
    {point : MainPoint} {processed ackChannel : List String}
    {ackWorker : AckPoint}
    (stops : before.running = false → running = false)
    (begins : point.inIteration = false ∨
      before.main.inIteration = true ∨ before.running = true)
    (idle : point.pending = []) :
    MainMove before
      { before with
        running := running
        main := point
        processed := processed
        ackChannel := ackChannel
        ackWorker := ackWorker } := by
  refine ⟨rfl, rfl, rfl, stops, ?_, .other rfl rfl idle⟩
  intro began
  rcases begins with notBegun | allowed
  · rw [notBegun] at began
    cases began
  · exact allowed

theorem mainMove_of_step {decoder : Decoder} {before after : Receiver}
    {event : MainEvent}
    (stepTo : before.mainStep decoder event = some after) :
    MainMove before after := by
  have inIteration : ∀ {point : MainPoint}, before.main = point →
      point.inIteration = true → before.main.inIteration = true :=
    fun isMain begun => isMain ▸ begun
  cases turn_of_mainStep stepTo with
  | refused _ | cleanedUp _ =>
      exact .to_point (fun _ => rfl) (Or.inl rfl) rfl
  | readOn _ isRunning =>
      exact .to_point id (Or.inr (Or.inr isRunning)) rfl
  | decrypted _ _ _ isMain _ =>
      exact .to_point id (Or.inr (Or.inl (inIteration isMain rfl))) rfl
  | unstored messageId content isMain hasEnded =>
      exact ⟨rfl, rfl, rfl, id, fun _ => Or.inl (inIteration isMain rfl),
        .lose messageId content isMain rfl rfl hasEnded rfl⟩
  | stored messageId content isMain hasNotEnded _ =>
      exact ⟨rfl, rfl, rfl, id, fun _ => Or.inl (inIteration isMain rfl),
        .store messageId content isMain rfl rfl hasNotEnded rfl⟩
  | acknowledged messageId isMain _ _ =>
      exact ⟨rfl, rfl, rfl, id, by simp [MainPoint.inIteration],
        .acknowledge messageId isMain rfl rfl rfl⟩
  | _ => exact .to_point id (Or.inl rfl) rfl

/-! ## What the other tasks do to messages -/

/-- What becomes of the writer in a step that does not end it too early. -/
inductive WriterFate (before after : Receiver) : Prop
  | goesOn :
      after.writer.isAlive = true →
        (after.writer = .timedOut → after.batch = []) →
          WriterFate before after
  | stops :
      before.writer = .timedOut → before.running = false →
        before.main.inIteration = false → before.messages = [] →
          after.messages = before.messages → after.batch = before.batch →
            after.writer = .closing → WriterFate before after
  | ends :
      before.writer = .closing → after.messages = before.messages →
        after.batch = before.batch → after.writer = .ended →
          WriterFate before after

/-- A step of the writer moves messages towards the file and loses none. -/
structure WriterMove (before : Receiver) (event : WriterEvent)
    (after : Receiver) : Prop where
  running : after.running = before.running
  main : after.main = before.main
  acked : after.acked = before.acked
  kept : after.kept = before.kept
  fate : WriterOutlives before (.writer event) → WriterFate before after

theorem kept_flushBatch (receiver : Receiver) :
    receiver.flushBatch.kept = receiver.kept := by
  simp [kept, flushBatch]

/-- Taking a message off the channel puts it at the end of the batch. -/
theorem kept_receive {receiver : Receiver} {messageId message : String}
    {messages : List (String × String)} (timestamp : Nat)
    (queued : receiver.messages = (messageId, message) :: messages) :
    kept
        { receiver with
          messages := messages
          batch := receiver.batch ++ [⟨messageId, message, timestamp⟩] } =
      receiver.kept := by
  simp [kept, queued, StoredRecord.entry]

theorem writerMove_of_step {before after : Receiver} {event : WriterEvent}
    (stepTo : before.writerStep event = some after) :
    WriterMove before event after := by
  unfold writerStep at stepTo
  split at stepTo
  · cases stepTo
    refine ⟨rfl, rfl, rfl, rfl, fun opened => ?_⟩
    cases opened
    exact .goesOn rfl (by simp)
  · cases stepTo
    refine ⟨rfl, rfl, rfl, rfl, fun opened => ?_⟩
    cases opened
    exact .goesOn rfl (by simp)
  · rename_i timestamp isReceiving
    have goesOn : ∀ after : Receiver, after.writer = before.writer →
        WriterFate before after := by
      intro after same
      rw [isReceiving] at same
      exact .goesOn (by rw [same]; rfl) (by simp [same])
    split at stepTo
    · cases stepTo
    · rename_i messageId message messages queued
      have received := kept_receive timestamp queued
      dsimp only at stepTo
      split at stepTo
      · cases stepTo
        exact ⟨rfl, rfl, rfl, (kept_flushBatch _).trans received,
          fun _ => goesOn _ rfl⟩
      · cases stepTo
        exact ⟨rfl, rfl, rfl, received, fun _ => goesOn _ rfl⟩
  · split at stepTo
    · cases stepTo
      exact ⟨rfl, rfl, rfl, kept_flushBatch before,
        fun _ => .goesOn rfl fun _ => rfl⟩
    · cases stepTo
  · rename_i hasTimedOut
    cases stepTo
    refine ⟨rfl, rfl, rfl, rfl, fun outlives => ?_⟩
    cases isRunning : before.running
    · obtain ⟨notInIteration, noMessages⟩ := outlives isRunning
      exact .stops hasTimedOut isRunning notInIteration noMessages
        rfl rfl rfl
    · exact .goesOn rfl (by simp)
  · rename_i isClosing
    cases stepTo
    exact ⟨rfl, rfl, rfl, rfl, fun _ => .ends isClosing rfl rfl rfl⟩
  · cases stepTo

theorem eq_of_ackStep {before after : Receiver} {event : AckEvent}
    (stepTo : before.ackStep event = some after) :
    ∃ ackChannel ackWorker,
      after = { before with
        ackChannel := ackChannel
        ackWorker := ackWorker } := by
  unfold ackStep at stepTo
  split at stepTo
  · cases stepTo
    exact ⟨_, _, rfl⟩
  · split at stepTo <;> cases stepTo <;> exact ⟨_, _, rfl⟩
  · cases stepTo
    exact ⟨_, _, rfl⟩
  · cases stepTo

/-! ## Runs -/

structure Drained (receiver : Receiver) : Prop where
  running : receiver.running = false
  main : receiver.main.inIteration = false
  messages : receiver.messages = []
  batch : receiver.batch = []

/-- The writer is alive or has nothing left to do, and every acknowledgement,
the pending one included, has a message of its own among the kept ones. -/
structure Safe (receiver : Receiver) : Prop where
  writer : receiver.writer.isAlive = true ∨ receiver.Drained
  flushed : receiver.writer = .timedOut → receiver.batch = []
  acked : (receiver.acked ++ receiver.main.pending).Sublist
    (receiver.kept.map Prod.fst)

theorem Safe.isAlive {receiver : Receiver} (safe : receiver.Safe)
    (inIteration : receiver.main.inIteration = true) :
    receiver.writer.isAlive = true := by
  rcases safe.writer with alive | drained
  · exact alive
  · rw [drained.main] at inIteration
    cases inIteration

theorem safe_new : Safe new :=
  ⟨Or.inl rfl, by simp [new], List.Sublist.refl _⟩

theorem Drained.main_step {before after : Receiver}
    (drained : before.Drained) (move : MainMove before after) :
    after.Drained := by
  have notInIteration : after.main.inIteration ≠ true := by
    intro began
    rcases move.begins began with already | isRunning
    · simp [drained.main] at already
    · simp [drained.running] at isRunning
  have messages : after.messages = before.messages := by
    cases move.handling with
    | other messages => exact messages
    | store _ _ isStoring =>
        have notStoring := drained.main
        rw [isStoring] at notStoring
        cases notStoring
    | lose _ _ _ _ _ _ messages => exact messages
    | acknowledge _ _ _ messages => exact messages
  exact ⟨move.stops drained.running, Bool.not_eq_true _ ▸ notInIteration,
    messages.trans drained.messages, move.batch.trans drained.batch⟩

theorem MainMove.kept_append {before after : Receiver}
    (move : MainMove before after) {more : List (String × String)}
    (messages : after.messages = before.messages ++ more) :
    after.kept = before.kept ++ more := by
  simp [kept, move.file, move.batch, messages]

theorem MainMove.kept_eq {before after : Receiver}
    (move : MainMove before after)
    (messages : after.messages = before.messages) :
    after.kept = before.kept := by
  simp [kept, move.file, move.batch, messages]

/-- The main task hands a message over before it becomes pending, and a
pending message stays kept when it is acknowledged. -/
theorem Safe.main_step {before after : Receiver} (safe : before.Safe)
    (move : MainMove before after) : after.Safe where
  writer := by
    rw [move.writer]
    exact safe.writer.imp_right fun drained => drained.main_step move
  flushed := by
    rw [move.writer, move.batch]
    exact safe.flushed
  acked := by
    have ackedKept := (List.sublist_append_left _ _).trans safe.acked
    cases move.handling with
    | other messages acked idle =>
        rw [acked, idle, move.kept_eq messages, List.append_nil]
        exact ackedKept
    | store messageId content _ isPending acked _ messages =>
        rw [acked, isPending, move.kept_append messages, List.map_append]
        exact ackedKept.append (List.Sublist.refl _)
    | lose messageId content isStoring _ _ hasEnded _ =>
        have alive := safe.isAlive (by rw [isStoring]; rfl)
        rw [hasEnded] at alive
        cases alive
    | acknowledge messageId wasPending goesOn messages acked =>
        have pendingKept := safe.acked
        rw [wasPending] at pendingKept
        rw [acked, goesOn, move.kept_eq messages]
        simpa [MainPoint.pending] using pendingKept

theorem Safe.writer_step {before after : Receiver} {event : WriterEvent}
    (safe : before.Safe) (outlives : WriterOutlives before (.writer event))
    (move : WriterMove before event after) : after.Safe := by
  have acked : (after.acked ++ after.main.pending).Sublist
      (after.kept.map Prod.fst) := by
    rw [move.acked, move.main, move.kept]
    exact safe.acked
  cases move.fate outlives with
  | goesOn alive flushed => exact ⟨Or.inl alive, flushed, acked⟩
  | stops hasTimedOut isStopped notInIteration noMessages messages batch
      isClosing =>
      have drained : after.Drained :=
        ⟨move.running.trans isStopped, by rw [move.main, notInIteration],
          messages.trans noMessages, batch.trans (safe.flushed hasTimedOut)⟩
      exact ⟨Or.inr drained, by simp [isClosing], acked⟩
  | ends wasClosing messages batch hasEnded =>
      rcases safe.writer with alive | drained
      · rw [wasClosing] at alive
        cases alive
      · have stillDrained : after.Drained :=
          ⟨move.running.trans drained.running,
            by rw [move.main, drained.main],
            messages.trans drained.messages, batch.trans drained.batch⟩
        exact ⟨Or.inr stillDrained, by simp [hasEnded], acked⟩

/-- The acknowledging task and the signal handler leave the messages
alone. -/
theorem Safe.with_acks {receiver : Receiver} {running : Bool}
    {ackChannel : List String} {ackWorker : AckPoint}
    (safe : receiver.Safe)
    (stops : receiver.running = false → running = false) :
    Safe
      { receiver with
        running := running
        ackChannel := ackChannel
        ackWorker := ackWorker } where
  writer := safe.writer.imp_right fun drained =>
    ⟨stops drained.running, drained.main, drained.messages, drained.batch⟩
  flushed := safe.flushed
  acked := safe.acked

theorem Safe.step {decoder : Decoder} {before after : Receiver}
    {event : Event} (safe : before.Safe)
    (outlives : WriterOutlives before event)
    (stepTo : before.step decoder event = some after) : after.Safe := by
  cases event with
  | main event => exact safe.main_step (mainMove_of_step stepTo)
  | writer event =>
      exact safe.writer_step outlives (writerMove_of_step stepTo)
  | acks event =>
      obtain ⟨_, _, rfl⟩ := eq_of_ackStep stepTo
      exact safe.with_acks id
  | interrupt =>
      cases stepTo
      exact safe.with_acks fun _ => rfl

theorem safe_of_reachable {decoder : Decoder} {receiver : Receiver}
    (reached : ReachableWhile (step decoder) WriterOutlives new receiver) :
    receiver.Safe := by
  apply reached.invariant Safe
  · exact safe_new
  · intro before event after safe outlives stepTo
    exact safe.step outlives stepTo

/-- Only the pending message is ever put on the acknowledgement channel. -/
theorem eq_acknowledging_of_put {decoder : Decoder}
    {before after : Receiver} {event : Event} {messageId : String}
    (stepTo : before.step decoder event = some after)
    (put : after.acked = before.acked ++ [messageId]) :
    before.main = .acknowledging messageId := by
  have changed : after.acked ≠ before.acked := by simp [put]
  cases event with
  | main event =>
      cases (mainMove_of_step stepTo).handling with
      | other _ same => exact (changed same).elim
      | store _ _ _ _ same => exact (changed same).elim
      | lose _ _ _ _ same => exact (changed same).elim
      | acknowledge other isPending _ _ appended =>
          rw [appended, List.append_right_inj] at put
          rw [isPending, List.singleton_inj.mp put]
  | writer event =>
      exact (changed (writerMove_of_step stepTo).acked).elim
  | acks event =>
      obtain ⟨_, _, rfl⟩ := eq_of_ackStep stepTo
      exact (changed rfl).elim
  | interrupt =>
      cases stepTo
      exact (changed rfl).elim

theorem Safe.kept_eq_file {receiver : Receiver} (safe : receiver.Safe)
    (stopped : receiver.writer.isAlive = false) :
    receiver.kept = receiver.file.map StoredRecord.entry := by
  rcases safe.writer with alive | drained
  · rw [stopped] at alive
    cases alive
  · simp [kept, drained.messages, drained.batch]

/-- The receiver acknowledges no message it has dropped: one is acknowledged
only while the writer is alive, every acknowledgement has a message of its own
in the file, the batch or the writer's channel, and all of them are in the
file once the writer has stopped. -/
structure AcksOnlyKept (decoder : Decoder) (receiver : Receiver) : Prop where
  put : ∀ event after messageId,
    receiver.step decoder event = some after →
      after.acked = receiver.acked ++ [messageId] →
        receiver.writer.isAlive = true ∧
          (receiver.acked ++ [messageId]).Sublist
            (receiver.kept.map Prod.fst)
  written : receiver.writer.isAlive = false →
    receiver.acked.Sublist (receiver.file.map StoredRecord.messageId)

/-- As long as the writer outlives the receive loop, the receiver acknowledges
no message it has dropped. -/
theorem acksOnlyKept_of_writerOutlives {decoder : Decoder}
    {receiver : Receiver}
    (reached : ReachableWhile (step decoder) WriterOutlives new receiver) :
    AcksOnlyKept decoder receiver where
  put := by
    intro event after messageId stepTo put
    have safe := safe_of_reachable reached
    have isPending := eq_acknowledging_of_put stepTo put
    have pendingKept := safe.acked
    rw [isPending] at pendingKept
    exact ⟨safe.isAlive (by rw [isPending]; rfl), pendingKept⟩
  written := by
    intro stopped
    have safe := safe_of_reachable reached
    have ackedKept := (List.sublist_append_left _ _).trans safe.acked
    rw [safe.kept_eq_file stopped, List.map_map] at ackedKept
    exact ackedKept

def sampleDecoder : Decoder where
  parseEnvelope payload := .ok ⟨"", "", payload⟩
  decryptMessage envelope := .ok envelope.ciphertext

/-- One message is received, decrypted and handed to the writer, which could
or could not open its file. -/
def receivingRun (opens : Bool) : List Event :=
  [.writer (.createDirectory true), .writer (.openFile opens),
    .main .testRunning, .main (.connect true),
    .main (.subscribe .subscribed), .main .testLoop,
    .main (.readLine (.line "Message: m1 secret".toList)), .main .store]

theorem acksOnlyKept_receivingRun :
    ∃ receiver after,
      ReachableWhile (step sampleDecoder) WriterOutlives new receiver ∧
        receiver.step sampleDecoder (.main .acknowledge) = some after ∧
        after.acked = receiver.acked ++ ["m1"] ∧
        receiver.writer.isAlive = true ∧
        (receiver.acked ++ ["m1"]).Sublist
          (receiver.kept.map Prod.fst) := by
  have ran : ((executeWhile (step sampleDecoder) WriterOutlives new
      (receivingRun true)).bind fun receiver =>
        (receiver.step sampleDecoder (.main .acknowledge)).map
          fun after => (receiver.acked, after.acked)) =
      some ([], ["m1"]) := by
    decide +kernel
  obtain ⟨receiver, executed, acknowledged⟩ :=
    Option.bind_eq_some_iff.mp ran
  obtain ⟨after, stepTo, data⟩ := Option.map_eq_some_iff.mp acknowledged
  simp only [Prod.mk.injEq] at data
  have put : after.acked = receiver.acked ++ ["m1"] := by
    rw [data.1, data.2]
    rfl
  have reached := reachableWhile_of_executeWhile executed
  obtain ⟨alive, isKept⟩ :=
    (acksOnlyKept_of_writerOutlives reached).put _ after "m1" stepTo put
  exact ⟨receiver, after, reached, stepTo, put, alive, isKept⟩

/-- When the output file cannot be opened, the writer has ended and the
message is acknowledged although nothing keeps it. -/
theorem dropped_message_acknowledged :
    ∃ receiver after,
      Reachable (step sampleDecoder) new receiver ∧
        receiver.step sampleDecoder (.main .acknowledge) = some after ∧
        after.acked = receiver.acked ++ ["m1"] ∧
        receiver.writer = .ended ∧ receiver.kept = [] := by
  have ran : ((executeWhile (step sampleDecoder) (fun _ _ => True) new
      (receivingRun false)).bind fun receiver =>
        (receiver.step sampleDecoder (.main .acknowledge)).map
          fun after =>
            (receiver.acked, after.acked, receiver.writer, receiver.kept)) =
      some ([], ["m1"], .ended, []) := by
    decide +kernel
  obtain ⟨receiver, executed, acknowledged⟩ :=
    Option.bind_eq_some_iff.mp ran
  obtain ⟨after, stepTo, data⟩ := Option.map_eq_some_iff.mp acknowledged
  simp only [Prod.mk.injEq] at data
  obtain ⟨none, put, hasEnded, noneKept⟩ := data
  refine ⟨receiver, after, reachableWhile_of_executeWhile executed, stepTo,
    ?_, hasEnded, noneKept⟩
  rw [none, put]
  rfl

end Receiver

end CipherMQ
