import CipherMQ.SenderRetry
import Mathlib.Data.List.Nodup

/-!
# What becomes of the messages a sender tries to send

A message stays pending until an acknowledgement of it is read, and what is
pending in the end is retried, so nothing is lost on the way from the sending
loop over the pending map to the retry list, with one exception: when a write
or a flush of the sending loop fails, the message is taken out of the map and
only its id is kept, in a list that nothing looks at.
-/

namespace CipherMQ

namespace Sender

def SendPoint.current : SendPoint → Option EncryptedMessage
  | .writing _ _ message _ | .flushing _ _ message _ => some message
  | _ => none

def ReadPoint.acks : ReadPoint → Option String
  | .removing messageId | .releasing messageId => some messageId
  | .forwarding (.ok messageId) => some messageId
  | _ => none

namespace Pipeline

/-- An acknowledgement of the id is with the reader or on its channel. -/
def Reports (pipeline : Pipeline) (messageId : String) : Prop :=
  .ok messageId ∈ pipeline.results ∨
    pipeline.reader.acks = some messageId

theorem acks_classify (line : String) (messageId : String) :
    (classify line).acks = some messageId ↔
      classify line = .removing messageId := by
  unfold classify
  dsimp only
  split
  · simp [ReadPoint.acks]
  · split <;> simp [ReadPoint.acks]

end Pipeline

/-- What a step of the pipeline does to the pending messages and to the
journal. -/
inductive PendingMove (before : Pipeline) (journal : Journal)
    (event : Pipeline.Event) (after : Pipeline) : Journal → Prop
  | store (i batchEnd : Nat) (message : EncryptedMessage)
      (rest : List EncryptedMessage) :
      before.sender = .storing i batchEnd message rest →
        after.pending = before.insertPending message →
          (∀ messageId, after.Reports messageId → before.Reports messageId) →
            PendingMove before journal event after { journal with
              attempted := journal.attempted ++ [message.messageId] }
  | read (messageId : String) : after.pending = before.pending →
      after.reader = .removing messageId →
        after.results = before.results →
          PendingMove before journal event after
            { journal with confirmed := journal.confirmed ++ [messageId] }
  | remove (messageId : String) : before.reader.acks = some messageId →
      after.pending = before.removePending messageId →
        (∀ other, after.Reports other → before.Reports other) →
          PendingMove before journal event after journal
  | drop (message : EncryptedMessage) : event = .send false →
      before.sender.current = some message →
        after.pending = before.removePending message.messageId →
          (∀ messageId, after.Reports messageId →
            before.Reports messageId) →
            PendingMove before journal event after journal
  | other : after.pending = before.pending →
      (∀ messageId, after.Reports messageId → before.Reports messageId) →
        PendingMove before journal event after journal

open Pipeline in
theorem pendingMove_send {config : PipelineConfig} {before after : Pipeline}
    {succeeds : Bool} (journal : Journal)
    (sends : Sends config before succeeds after) :
    PendingMove before journal (.send succeeds) after
      (journal.note before (.send succeeds)) := by
  cases sends with
  | turn _ next turn =>
      have sameJournal : journal.note before (.send succeeds) = journal := by
        generalize isPoint : before.sender = point at turn
        cases turn <;> simp only [Journal.note, isPoint]
      rw [sameJournal]
      exact .other rfl fun _ => id
  | beginBatch _ i isPoint =>
      simp only [Journal.note, isPoint]
      exact .other rfl fun _ => id
  | acquire _ i batchEnd message rest isPoint =>
      simp only [Journal.note, isPoint]
      exact .other rfl fun _ => id
  | store _ i batchEnd message rest isPoint =>
      simp only [Journal.note, isPoint]
      exact .store i batchEnd message rest isPoint rfl fun _ => id
  | write i batchEnd message rest isPoint =>
      simp only [Journal.note, isPoint]
      exact .other rfl fun _ => id
  | failWrite i batchEnd message rest isPoint =>
      simp only [Journal.note, isPoint]
      exact .drop message rfl (by rw [isPoint]; rfl) rfl fun _ => id
  | flush i batchEnd message rest isPoint =>
      simp only [Journal.note, isPoint]
      exact .other rfl fun _ => id
  | failFlush i batchEnd message rest isPoint =>
      simp only [Journal.note, isPoint]
      exact .drop message rfl (by rw [isPoint]; rfl) rfl fun _ => id
  | take _ result results next held points =>
      have sameJournal : journal.note before (.send succeeds) = journal := by
        rcases points with ⟨i, batchEnd, isPoint, -⟩ | ⟨isPoint, -⟩ <;>
          simp only [Journal.note, isPoint]
      rw [sameJournal]
      refine .other rfl ?_
      rintro messageId (inResults | atReader)
      · refine .inl ?_
        rw [held]
        exact List.mem_cons_of_mem _ inResults
      · exact .inr atReader

open Pipeline in
theorem pendingMove_of_step {config : PipelineConfig}
    {before after : Pipeline} {event : Pipeline.Event} (journal : Journal)
    (stepTo : before.step config event = some after) :
    PendingMove before journal event after (journal.note before event) := by
  cases move_of_step stepTo with
  | send sends => exact pendingMove_send journal sends
  | giveUp isWaiting => exact .other rfl fun _ => id
  | readLine line replies isReading arrived =>
      simp only [Journal.note, isReading, arrived]
      split
      · rename_i messageId isAck
        exact .read messageId rfl isAck rfl
      · rename_i notAck
        refine .other rfl ?_
        rintro messageId (inResults | atReader)
        · exact .inl inResults
        · exact absurd ((acks_classify line messageId).mp atReader)
            (notAck messageId)
  | remove messageId isPoint =>
      simp only [Journal.note, isPoint]
      refine .remove messageId (by rw [isPoint]; rfl) rfl ?_
      rintro other (inResults | atReader)
      · exact .inl inResults
      · refine .inr ?_
        rw [isPoint]
        exact atReader
  | release messageId isPoint =>
      simp only [Journal.note, isPoint]
      refine .other rfl ?_
      rintro other (inResults | atReader)
      · exact .inl inResults
      · refine .inr ?_
        rw [isPoint]
        exact atReader
  | forward result next points hasRoom =>
      have sameJournal : journal.note before .read = journal := by
        rcases points with ⟨isPoint, -⟩ | ⟨error, isPoint, -⟩ <;>
          simp only [Journal.note, isPoint]
      rw [sameJournal]
      refine .other rfl ?_
      rintro messageId (inResults | atReader)
      · rcases List.mem_append.mp inResults with old | isNew
        · exact .inl old
        · rw [List.mem_singleton] at isNew
          subst isNew
          rcases points with ⟨isPoint, -⟩ | ⟨error, -, isError, -⟩
          · refine .inr ?_
            rw [isPoint]
            rfl
          · cases isError
      · rcases points with ⟨-, rfl⟩ | ⟨error, -, -, rfl⟩ <;> cases atReader
  | stop _ next stops isReading =>
      have sameJournal : journal.note before event = journal := by
        rcases stops with ⟨rfl, -⟩ | ⟨rfl, -⟩ | ⟨error, rfl, -⟩ <;> rfl
      rw [sameJournal]
      refine .other rfl ?_
      rintro messageId (inResults | atReader)
      · exact .inl inResults
      · rcases stops with ⟨-, rfl⟩ | ⟨-, rfl⟩ | ⟨error, -, rfl⟩ <;>
          cases atReader
  | ack | refuse => exact .other rfl fun _ => id

/-! ## Every message is retried once -/

def RetryPoint.remaining : RetryPoint → List EncryptedMessage
  | .nextMessage rest => rest
  | .attempt _ message _ rest => message :: rest
  | _ => []

namespace Pipeline

theorem removePending_nodup {pipeline : Pipeline}
    (distinct : (pipeline.pending.map EncryptedMessage.messageId).Nodup)
    (messageId : String) :
    ((pipeline.removePending messageId).map
      EncryptedMessage.messageId).Nodup :=
  (List.filter_sublist.map _).nodup distinct

theorem insertPending_nodup {pipeline : Pipeline}
    (distinct : (pipeline.pending.map EncryptedMessage.messageId).Nodup)
    (message : EncryptedMessage) :
    ((pipeline.insertPending message).map
      EncryptedMessage.messageId).Nodup := by
  rw [insertPending, List.map_append, List.map_singleton,
    List.nodup_append]
  refine ⟨pipeline.removePending_nodup distinct message.messageId,
    List.nodup_singleton _, ?_⟩
  intro first isFirst second isSecond same
  rw [List.mem_singleton] at isSecond
  obtain ⟨other, kept, isOther⟩ := List.mem_map.mp isFirst
  have different := (List.mem_filter.mp kept).2
  simp [isOther, same, isSecond] at different

theorem mem_removePending {pipeline : Pipeline} {messageId other : String}
    (isPending : other ∈ pipeline.pending.map EncryptedMessage.messageId)
    (different : other ≠ messageId) :
    other ∈ (pipeline.removePending messageId).map
      EncryptedMessage.messageId := by
  obtain ⟨message, member, rfl⟩ := List.mem_map.mp isPending
  exact List.mem_map.mpr ⟨message,
    List.mem_filter.mpr ⟨member, by simpa using different⟩, rfl⟩

theorem mem_insertPending {pipeline : Pipeline} (message : EncryptedMessage)
    {messageId : String}
    (isPending : messageId = message.messageId ∨
      messageId ∈ pipeline.pending.map EncryptedMessage.messageId) :
    messageId ∈ (pipeline.insertPending message).map
      EncryptedMessage.messageId := by
  rw [insertPending, List.map_append, List.mem_append]
  by_cases isMessage : messageId = message.messageId
  · exact .inr (by simp [isMessage])
  · rcases isPending with same | old
    · exact absurd same isMessage
    · exact .inl (mem_removePending old isMessage)

theorem not_sends_of_finished {config : PipelineConfig}
    {before after : Pipeline} {succeeds : Bool}
    (isFinished : before.sender = .finished) :
    ¬ Sends config before succeeds after := by
  intro sends
  cases sends with
  | turn _ next turn =>
      rw [isFinished] at turn
      cases turn
  | take _ result results next held points => simp [isFinished] at points
  | beginBatch _ _ isPoint | acquire _ _ _ _ _ isPoint
  | store _ _ _ _ _ isPoint | write _ _ _ _ isPoint
  | failWrite _ _ _ _ isPoint | flush _ _ _ _ isPoint
  | failFlush _ _ _ _ isPoint => simp [isFinished] at isPoint

theorem finished_step {config : PipelineConfig} {before after : Pipeline}
    {event : Event} (isFinished : before.sender = .finished)
    (stepTo : before.step config event = some after) :
    after.sender = .finished := by
  cases move_of_step stepTo with
  | send sends => exact absurd sends (not_sends_of_finished isFinished)
  | giveUp => rfl
  | readLine | remove | release | forward | stop | ack | refuse =>
      exact isFinished

end Pipeline

namespace SenderRun

/-- The ids still pending are distinct, and so are those counted and those
whose retries are not over. -/
structure OnceEach (run : SenderRun) : Prop where
  pending : (run.pipeline.pending.map EncryptedMessage.messageId).Nodup
  retries : (run.journal.counted ++
    run.retry.remaining.map EncryptedMessage.messageId).Nodup
  sending : run.retry = .sending → run.journal.counted = []
  finished : run.retry ≠ .sending → run.pipeline.sender = .finished
  total : run.finalFailed = run.journal.counted.length

theorem onceEach_new (config : SenderConfig) : (new config).OnceEach := by
  constructor <;> simp [new, Pipeline.new, RetryPoint.remaining]

theorem counted_note (journal : Journal) (pipeline : Pipeline)
    (event : Pipeline.Event) :
    (journal.note pipeline event).counted = journal.counted ∧
      (journal.note pipeline event).retried = journal.retried := by
  cases event with
  | send =>
      simp only [Journal.note]
      split <;> exact ⟨rfl, rfl⟩
  | read =>
      simp only [Journal.note]
      split
      · split <;> exact ⟨rfl, rfl⟩
      · exact ⟨rfl, rfl⟩
  | _ => exact ⟨rfl, rfl⟩

theorem OnceEach.pipeline {config : SenderConfig} {before : SenderRun}
    {event : Pipeline.Event} {after : Pipeline} (once : before.OnceEach)
    (stepTo : before.pipeline.step config.toPipelineConfig event =
      some after) :
    OnceEach { before with
      pipeline := after
      journal := before.journal.note before.pipeline event } := by
  obtain ⟨sameCounted, -⟩ :=
    counted_note before.journal before.pipeline event
  refine ⟨?_, ?_, ?_, ?_, ?_⟩
  · have moved := pendingMove_of_step before.journal stepTo
    generalize before.journal.note before.pipeline event = journal at moved
    cases moved with
    | store _ _ message _ _ isPending =>
        rw [isPending]
        exact Pipeline.insertPending_nodup once.pending message
    | read _ isPending | other isPending =>
        rw [isPending]
        exact once.pending
    | remove _ _ isPending | drop _ _ _ isPending =>
        rw [isPending]
        exact Pipeline.removePending_nodup once.pending _
  · rw [sameCounted]
    exact once.retries
  · rw [sameCounted]
    exact once.sending
  · intro isRetrying
    exact Pipeline.finished_step (once.finished isRetrying) stepTo
  · rw [sameCounted]
    exact once.total

theorem OnceEach.retry {config : SenderConfig} {before after : SenderRun}
    {event : Event} (once : before.OnceEach)
    (retries : Retries config before event after) : after.OnceEach := by
  have distinct := once.retries
  have finished := once.finished
  cases retries with
  | collect unacked isSending isFinished isPerm =>
      refine ⟨once.pending, ?_, ?_, fun _ => isFinished, once.total⟩
      · change (before.journal.counted ++ unacked.map _).Nodup
        rw [once.sending isSending, List.nil_append]
        exact (isPerm.map _).nodup_iff.mpr once.pending
      · intro stillSending
        cases stillSending
  | finish _ isPoint | begin _ _ _ isPoint | write _ _ _ isPoint
  | failWrite _ _ _ isPoint | flush _ _ _ _ _ isPoint
  | miss _ _ _ _ _ _ isPoint | timeout _ _ _ isPoint
  | wake _ _ _ _ isPoint | close _ isPoint =>
      rw [isPoint] at distinct finished
      refine ⟨once.pending, distinct, ?_, fun _ => finished (by simp),
        once.total⟩
      intro stillSending
      cases stillSending
  | count _ message number rest isPoint =>
      rw [isPoint] at distinct finished
      refine ⟨once.pending, ?_, ?_, fun _ => finished (by simp), ?_⟩
      · simpa [RetryPoint.remaining] using distinct
      · intro stillSending
        cases stillSending
      · simp [once.total]
  | succeed _ message number rest results isPoint =>
      rw [isPoint] at distinct finished
      refine ⟨once.pending, ?_, ?_, fun _ => finished (by simp), once.total⟩
      · refine List.Sublist.nodup ?_ distinct
        exact (List.Sublist.refl _).append (List.sublist_cons_self _ _)
      · intro stillSending
        cases stillSending

theorem OnceEach.step {config : SenderConfig} {before after : SenderRun}
    {event : Event} (once : before.OnceEach)
    (stepTo : before.step config event = some after) : after.OnceEach := by
  rcases step_cases stepTo with
    ⟨pipelineEvent, pipeline, -, stepped, rfl⟩ | retries
  · exact once.pipeline stepped
  · exact once.retry retries

/-! ## The attempts at a message -/

end SenderRun

def AttemptStage.made (number : Nat) : AttemptStage → Nat
  | .writing => number
  | _ => number + 1

def RetryPoint.untouched : RetryPoint → List EncryptedMessage
  | .nextMessage rest => rest
  | .attempt _ _ _ rest => rest
  | _ => []

namespace SenderRun

/-- The attempts made for the messages counted, for the current one and for
those whose turn has not come. -/
structure Attempts (config : SenderConfig) (run : SenderRun) : Prop where
  counted : ∀ messageId ∈ run.journal.counted,
    run.journal.retried.count messageId = config.maxRetries
  current : ∀ stage message number rest,
    run.retry = .attempt stage message number rest →
      run.journal.retried.count message.messageId = stage.made number ∧
        stage.made number ≤ config.maxRetries
  untouched : ∀ message ∈ run.retry.untouched,
    run.journal.retried.count message.messageId = 0
  sending : run.retry = .sending → run.journal.retried = []

theorem attempts_new (config : SenderConfig) :
    (new config).Attempts config := by
  constructor <;> simp [new, RetryPoint.untouched]

/-- The retry loop keeps the attempts as long as it makes none. -/
theorem Attempts.of_same {config : SenderConfig} {before after : SenderRun}
    (attempts : before.Attempts config)
    (sameRetried : after.journal.retried = before.journal.retried)
    (sameCounted : after.journal.counted = before.journal.counted)
    (notSending : after.retry ≠ .sending)
    (untouched : after.retry.untouched ⊆ before.retry.untouched)
    (current : ∀ stage message number rest,
      after.retry = .attempt stage message number rest →
        before.journal.retried.count message.messageId =
            stage.made number ∧
          stage.made number ≤ config.maxRetries) :
    after.Attempts config := by
  refine ⟨?_, ?_, ?_, fun isSending => absurd isSending notSending⟩
  · rw [sameRetried, sameCounted]
    exact attempts.counted
  · rw [sameRetried]
    exact current
  · intro message member
    rw [sameRetried]
    exact attempts.untouched message (untouched member)

/-- The current attempt moves on. -/
theorem Attempts.moved {config : SenderConfig} {before after : SenderRun}
    {message : EncryptedMessage} {rest : List EncryptedMessage}
    {stage following : AttemptStage} {number nextNumber : Nat}
    (attempts : before.Attempts config)
    (isPoint : before.retry = .attempt stage message number rest)
    (isNext : after.retry = .attempt following message nextNumber rest)
    (sameMade : following.made nextNumber = stage.made number)
    (sameJournal : after.journal = before.journal) :
    after.Attempts config := by
  apply attempts.of_same
  · rw [sameJournal]
  · rw [sameJournal]
  · simp [isNext]
  · rw [isPoint, isNext]
    exact List.Subset.refl rest
  · intro otherStage other otherNumber otherRest isAttempt
    rw [isNext] at isAttempt
    cases isAttempt
    rw [sameMade]
    exact attempts.current _ _ _ _ isPoint

/-- One more attempt is made for the current message. -/
theorem Attempts.attempted {config : SenderConfig} {before after : SenderRun}
    {message : EncryptedMessage} {number : Nat}
    {rest : List EncryptedMessage} {stage : AttemptStage}
    (once : before.OnceEach) (attempts : before.Attempts config)
    (isPoint : before.retry = .attempt .writing message number rest)
    (left : number < config.maxRetries)
    (isNext : after.retry = .attempt stage message number rest)
    (written : stage ≠ .writing)
    (isRetried : after.journal.retried =
      before.journal.retried ++ [message.messageId])
    (sameCounted : after.journal.counted = before.journal.counted) :
    after.Attempts config := by
  have distinct := once.retries
  rw [isPoint, RetryPoint.remaining, List.map_cons,
    List.nodup_middle, List.nodup_cons, List.mem_append, not_or] at distinct
  obtain ⟨⟨notCounted, notInRest⟩, -⟩ := distinct
  have made : stage.made number = number + 1 := by
    cases stage with
    | writing => exact absurd rfl written
    | flushing | awaiting | pausing => rfl
  have others : ∀ messageId, messageId ≠ message.messageId →
      after.journal.retried.count messageId =
        before.journal.retried.count messageId := by
    intro messageId different
    have notLast : messageId ∉ [message.messageId] := by
      simpa using different
    rw [isRetried, List.count_append,
      List.count_eq_zero_of_not_mem notLast, Nat.add_zero]
  refine ⟨?_, ?_, ?_, ?_⟩
  · intro messageId isCounted
    rw [sameCounted] at isCounted
    rw [others messageId fun same => notCounted (same ▸ isCounted)]
    exact attempts.counted messageId isCounted
  · intro otherStage other otherNumber otherRest isAttempt
    rw [isNext] at isAttempt
    cases isAttempt
    have madeBefore : before.journal.retried.count message.messageId =
        number := (attempts.current _ _ _ _ isPoint).1
    rw [isRetried, List.count_append, madeBefore, made,
      List.count_singleton_self]
    omega
  · intro other member
    rw [isNext] at member
    have inRest : other.messageId ∈
        rest.map EncryptedMessage.messageId :=
      List.mem_map_of_mem member
    rw [others _ fun same => notInRest (same ▸ inRest)]
    refine attempts.untouched other ?_
    rw [isPoint]
    exact member
  · intro isSending
    rw [isNext] at isSending
    cases isSending

theorem Attempts.retry {config : SenderConfig} {before after : SenderRun}
    {event : Event} (once : before.OnceEach)
    (attempts : before.Attempts config)
    (retries : Retries config before event after) :
    after.Attempts config := by
  have current := attempts.current
  have untouched := attempts.untouched
  cases retries with
  | collect unacked isSending =>
      have noneRetried := attempts.sending isSending
      refine ⟨attempts.counted, ?_, ?_, ?_⟩
      · intro stage message number rest isAttempt
        cases isAttempt
      · intro message _
        change before.journal.retried.count _ = 0
        rw [noneRetried, List.count_nil]
      · intro stillSending
        cases stillSending
  | write message number rest isPoint left =>
      exact attempts.attempted once isPoint left rfl (by simp) rfl rfl
  | failWrite message number rest isPoint left =>
      exact attempts.attempted once isPoint left rfl (by simp) rfl rfl
  | begin _ message rest isPoint =>
      rw [isPoint] at untouched
      refine attempts.of_same rfl rfl (by simp) ?_ ?_
      · rw [isPoint]
        exact List.subset_cons_self _ _
      · intro stage other number otherRest isAttempt
        cases isAttempt
        exact ⟨untouched message (List.mem_cons_self ..), Nat.zero_le _⟩
  | count _ message number rest isPoint noneLeft =>
      have made := current _ _ _ _ isPoint
      rw [isPoint] at untouched
      refine ⟨?_, ?_, untouched, ?_⟩
      · intro messageId isCounted
        rcases List.mem_append.mp isCounted with old | isNew
        · exact attempts.counted messageId old
        · rw [List.mem_singleton.mp isNew]
          exact made.1.trans (le_antisymm made.2 noneLeft)
      · intro stage other otherNumber otherRest isAttempt
        cases isAttempt
      · intro stillSending
        cases stillSending
  | flush _ stage message number rest isPoint isStage =>
      refine attempts.moved isPoint rfl ?_ rfl
      rcases isStage with rfl | rfl <;> rfl
  | miss _ message number rest _ _ isPoint =>
      exact attempts.moved isPoint rfl rfl rfl
  | timeout message number rest isPoint =>
      exact attempts.moved isPoint rfl rfl rfl
  | wake _ message number rest isPoint =>
      exact attempts.moved isPoint rfl rfl rfl
  | succeed _ message number rest results isPoint =>
      refine attempts.of_same rfl rfl (by simp) ?_ ?_
      · rw [isPoint]
        exact List.Subset.refl rest
      · intro otherStage other otherNumber otherRest isAttempt
        cases isAttempt
  | finish _ isPoint | close _ isPoint =>
      refine attempts.of_same rfl rfl (by simp) (List.nil_subset _) ?_
      intro otherStage other otherNumber otherRest isAttempt
      cases isAttempt

theorem Attempts.step {config : SenderConfig} {before after : SenderRun}
    {event : Event} (once : before.OnceEach)
    (attempts : before.Attempts config)
    (stepTo : before.step config event = some after) :
    after.Attempts config := by
  rcases step_cases stepTo with
    ⟨pipelineEvent, pipeline, -, stepped, rfl⟩ | retries
  · obtain ⟨sameCounted, sameRetried⟩ :=
      counted_note before.journal before.pipeline pipelineEvent
    refine ⟨?_, ?_, ?_, ?_⟩
    · rw [sameCounted, sameRetried]
      exact attempts.counted
    · rw [sameRetried]
      exact attempts.current
    · rw [sameRetried]
      exact attempts.untouched
    · rw [sameRetried]
      exact attempts.sending
  · exact attempts.retry once retries

/-! ## No message is lost -/

/-- A write or a flush of the sending loop fails only for a message whose
acknowledgement has been read already. -/
def LosesNone (run : SenderRun) (event : Event) : Prop :=
  event = .pipeline (.send false) →
    ∀ message ∈ run.pipeline.sender.current,
      message.messageId ∈ run.journal.confirmed

instance (run : SenderRun) (event : Event) :
    Decidable (run.LosesNone event) :=
  inferInstanceAs (Decidable (_ → _))

/-- Every message that the loop has tried to send is confirmed, or it is in a
place where a later phase looks at it. -/
structure NoneLost (run : SenderRun) : Prop where
  confirms : ∀ messageId, run.pipeline.Reports messageId →
    messageId ∈ run.journal.confirmed
  sending : run.retry = .sending → ∀ messageId ∈ run.journal.attempted,
    messageId ∈ run.journal.confirmed ∨
      messageId ∈ run.pipeline.pending.map EncryptedMessage.messageId
  retrying : run.retry ≠ .sending → ∀ messageId ∈ run.journal.attempted,
    messageId ∈ run.journal.confirmed ∨
      messageId ∈ run.journal.counted ∨
      messageId ∈ run.retry.remaining.map EncryptedMessage.messageId

theorem noneLost_new (config : SenderConfig) : (new config).NoneLost := by
  constructor <;>
    simp [new, Pipeline.new, Pipeline.Reports, ReadPoint.acks]

/-- The ids confirmed so far may leave the pending map. -/
theorem NoneLost.removePending {run : SenderRun} (lost : run.NoneLost)
    {removed : String} (isConfirmed : removed ∈ run.journal.confirmed)
    (isSending : run.retry = .sending) :
    ∀ messageId ∈ run.journal.attempted,
      messageId ∈ run.journal.confirmed ∨
        messageId ∈ (run.pipeline.removePending removed).map
          EncryptedMessage.messageId := by
  intro messageId isAttempted
  by_cases isRemoved : messageId = removed
  · exact .inl (isRemoved ▸ isConfirmed)
  · rcases lost.sending isSending messageId isAttempted with
      confirmed | isPending
    · exact .inl confirmed
    · exact .inr (Pipeline.mem_removePending isPending isRemoved)

theorem NoneLost.pipeline {config : SenderConfig} {before : SenderRun}
    {event : Pipeline.Event} {after : Pipeline} (once : before.OnceEach)
    (lost : before.NoneLost) (loses : before.LosesNone (.pipeline event))
    (stepTo : before.pipeline.step config.toPipelineConfig event =
      some after) :
    NoneLost { before with
      pipeline := after
      journal := before.journal.note before.pipeline event } := by
  have moved := pendingMove_of_step before.journal stepTo
  generalize before.journal.note before.pipeline event = journal at moved
  cases moved with
  | store i batchEnd message rest isStoring isPending reports =>
      refine ⟨fun messageId reported =>
        lost.confirms messageId (reports messageId reported), ?_, ?_⟩
      · intro isSending messageId isAttempted
        change _ ∨ messageId ∈ after.pending.map _
        rw [isPending]
        rcases List.mem_append.mp isAttempted with old | isNew
        · rcases lost.sending isSending messageId old with
            confirmed | wasPending
          · exact .inl confirmed
          · exact .inr (Pipeline.mem_insertPending message
              (.inr wasPending))
        · exact .inr (Pipeline.mem_insertPending message
            (.inl (List.mem_singleton.mp isNew)))
      · -- nothing is stored in the retry phase
        intro isRetrying
        have isFinished := once.finished isRetrying
        rw [isStoring] at isFinished
        cases isFinished
  | read messageId isPending isReader sameResults =>
      refine ⟨?_, ?_, ?_⟩
      · rintro other (inResults | atReader)
        · change .ok other ∈ after.results at inResults
          rw [sameResults] at inResults
          exact List.mem_append_left _ (lost.confirms other (.inl inResults))
        · change after.reader.acks = some other at atReader
          rw [isReader] at atReader
          cases atReader
          exact List.mem_append_right _ (List.mem_singleton_self _)
      · intro isSending other isAttempted
        change _ ∨ other ∈ after.pending.map _
        rw [isPending]
        exact (lost.sending isSending other isAttempted).imp_left
          (List.mem_append_left _)
      · intro isRetrying other isAttempted
        exact (lost.retrying isRetrying other isAttempted).imp_left
          (List.mem_append_left _)
  | remove messageId isAck isPending reports =>
      refine ⟨fun other reported =>
        lost.confirms other (reports other reported), ?_, lost.retrying⟩
      intro isSending
      rw [isPending]
      exact lost.removePending (lost.confirms messageId (.inr isAck))
        isSending
  | drop message isEvent isCurrent isPending reports =>
      refine ⟨fun other reported =>
        lost.confirms other (reports other reported), ?_, lost.retrying⟩
      intro isSending
      rw [isPending]
      exact lost.removePending
        (loses (congrArg _ isEvent) message isCurrent) isSending
  | other isPending reports =>
      refine ⟨fun messageId reported =>
        lost.confirms messageId (reports messageId reported), ?_,
        lost.retrying⟩
      intro isSending
      rw [isPending]
      exact lost.sending isSending

theorem NoneLost.retry {config : SenderConfig} {before after : SenderRun}
    {event : Event} (lost : before.NoneLost)
    (retries : Retries config before event after) : after.NoneLost := by
  have retrying := lost.retrying
  cases retries with
  | collect unacked isSending _ isPerm =>
      refine ⟨lost.confirms, ?_, ?_⟩
      · intro stillSending
        cases stillSending
      · intro _ messageId isAttempted
        refine (lost.sending isSending messageId isAttempted).imp_right ?_
        intro isPending
        exact .inr ((isPerm.map _).mem_iff.mpr isPending)
  | finish _ isPoint | begin _ _ _ isPoint | write _ _ _ isPoint
  | failWrite _ _ _ isPoint | flush _ _ _ _ _ isPoint
  | timeout _ _ _ isPoint | wake _ _ _ _ isPoint | close _ isPoint =>
      rw [isPoint] at retrying
      refine ⟨lost.confirms, ?_, fun _ => retrying (by simp)⟩
      intro stillSending
      cases stillSending
  | count _ message number rest isPoint =>
      rw [isPoint] at retrying
      refine ⟨lost.confirms, ?_, ?_⟩
      · intro stillSending
        cases stillSending
      · intro _ messageId isAttempted
        have somewhere := retrying (by simp) messageId isAttempted
        simp only [RetryPoint.remaining, List.map_cons, List.mem_cons]
          at somewhere
        simp only [RetryPoint.remaining, List.mem_append,
          List.mem_singleton]
        tauto
  | succeed _ message number rest results isPoint held =>
      rw [isPoint] at retrying
      have isConfirmed : message.messageId ∈ before.journal.confirmed :=
        lost.confirms _ (.inl (by rw [held]; exact List.mem_cons_self ..))
      refine ⟨?_, ?_, ?_⟩
      · rintro messageId (inResults | atReader)
        · exact lost.confirms messageId
            (.inl (by rw [held]; exact List.mem_cons_of_mem _ inResults))
        · exact lost.confirms messageId (.inr atReader)
      · intro stillSending
        cases stillSending
      · intro _ messageId isAttempted
        rcases retrying (by simp) messageId isAttempted with
          confirmed | isCounted | isRemaining
        · exact .inl confirmed
        · exact .inr (.inl isCounted)
        · rcases List.mem_cons.mp isRemaining with isMessage | inRest
          · exact .inl (isMessage ▸ isConfirmed)
          · exact .inr (.inr inRest)
  | miss _ message number rest result results isPoint held =>
      rw [isPoint] at retrying
      refine ⟨?_, ?_, fun _ => retrying (by simp)⟩
      · rintro messageId (inResults | atReader)
        · exact lost.confirms messageId
            (.inl (by rw [held]; exact List.mem_cons_of_mem _ inResults))
        · exact lost.confirms messageId (.inr atReader)
      · intro stillSending
        cases stillSending

/-- If a write or a flush fails only for messages that are confirmed already,
every message that was to be sent is confirmed in the end, or it was retried
`maxRetries` times and counted as failed. -/
theorem accounted_of_returned {config : SenderConfig} {run : SenderRun}
    (reached : ReachableWhile (step config) LosesNone (new config) run)
    (isReturned : run.retry = .returned) :
    run.finalFailed = run.journal.counted.length ∧
      ∀ messageId ∈ run.journal.attempted,
        messageId ∈ run.journal.confirmed ∨
          (messageId ∈ run.journal.counted ∧
            run.journal.retried.count messageId = config.maxRetries) := by
  have holds : run.OnceEach ∧ run.Attempts config ∧ run.NoneLost := by
    refine reached.invariant (fun run =>
      run.OnceEach ∧ run.Attempts config ∧ run.NoneLost) ?_ ?_
    · exact ⟨onceEach_new config, attempts_new config, noneLost_new config⟩
    · rintro before event after ⟨once, attempts, lost⟩ loses stepTo
      refine ⟨once.step stepTo, attempts.step once stepTo, ?_⟩
      rcases step_cases stepTo with
        ⟨pipelineEvent, pipeline, rfl, stepped, rfl⟩ | retries
      · exact lost.pipeline once loses stepped
      · exact lost.retry retries
  obtain ⟨once, attempts, lost⟩ := holds
  refine ⟨once.total, ?_⟩
  intro messageId isAttempted
  rcases lost.retrying (by simp [isReturned]) messageId isAttempted with
    confirmed | isCounted | isRemaining
  · exact .inl confirmed
  · exact .inr ⟨isCounted, attempts.counted messageId isCounted⟩
  · rw [isReturned] at isRemaining
    cases isRemaining

def sampleSender (maxRetries : Nat) : SenderConfig where
  toPipelineConfig := Pipeline.sampleConfig 1 1 1 (by decide)
  maxRetries := maxRetries

/-- The sending phase with its one message, up to the wait for the
acknowledgement; `written` says whether the message can be written. -/
def sendingOne (written : Bool) : List Event :=
  (Pipeline.Event.send true :: Pipeline.sendMessage written ++
    List.replicate (if written then 4 else 3)
      (Pipeline.Event.send true)).map .pipeline

/-- The message is never answered: it is retried once and counted. -/
theorem accounted_of_returned_unanswered :
    ∃ run, ReachableWhile (step (sampleSender 1)) LosesNone
        (new (sampleSender 1)) run ∧
      run.retry = .returned ∧
      run.journal = ⟨["sender_1-0-receiver_1"], [],
        ["sender_1-0-receiver_1"], ["sender_1-0-receiver_1"]⟩ ∧
      run.finalFailed = 1 ∧
      ("sender_1-0-receiver_1" ∈ run.journal.confirmed ∨
        ("sender_1-0-receiver_1" ∈ run.journal.counted ∧
          run.journal.retried.count "sender_1-0-receiver_1" = 1)) := by
  have ran : (executeWhile (step (sampleSender 1)) LosesNone
      (new (sampleSender 1))
      (sendingOne true ++ [.pipeline .giveUp,
        .collect ((sampleSender 1).encrypted 0), .retry true, .retry true,
        .retry true, .timeout, .retry true, .retry true, .retry true,
        .pipeline .readTimeout, .retry true])).map
        (fun run => (run.retry, run.journal, run.finalFailed)) =
      some (.returned, ⟨["sender_1-0-receiver_1"], [],
        ["sender_1-0-receiver_1"], ["sender_1-0-receiver_1"]⟩, 1) := by
    decide +kernel
  obtain ⟨run, reached, account⟩ := exists_reachableWhile_of_map ran
  simp only [Prod.mk.injEq] at account
  obtain ⟨isReturned, isJournal, isTotal⟩ := account
  refine ⟨run, reached, isReturned, isJournal, isTotal,
    (accounted_of_returned reached isReturned).2 _ ?_⟩
  rw [isJournal]
  exact List.mem_singleton_self _

/-- The write of the message fails: the pipeline returns without having
retried or counted it. -/
theorem unaccounted_failedWrite :
    ∃ run, Reachable (step (sampleSender 3)) (new (sampleSender 3)) run ∧
      run.retry = .returned ∧
      run.journal = ⟨["sender_1-0-receiver_1"], [], [], []⟩ ∧
      run.finalFailed = 0 := by
  have ran : (executeWhile (step (sampleSender 3)) (fun _ _ => True)
      (new (sampleSender 3))
      (sendingOne false ++ [.pipeline (.send true), .collect [],
        .retry true, .pipeline .readTimeout, .retry true])).map
        (fun run => (run.retry, run.journal, run.finalFailed)) =
      some (.returned, ⟨["sender_1-0-receiver_1"], [], [], []⟩, 0) := by
    decide +kernel
  obtain ⟨run, reached, account⟩ := exists_reachableWhile_of_map ran
  simp only [Prod.mk.injEq] at account
  exact ⟨run, reached, account⟩

end SenderRun

end Sender

end CipherMQ
