import CipherMQ.InflightWindow

/-!
# Progress of the pipeline

The sending loop and the reader can block each other: the loop waits for a
permit, which the reader gives back before it forwards the acknowledgement,
and the reader waits for room in the channel, which the loop makes between two
batches only.  Whether they do depends on how many messages a batch has.
-/

namespace CipherMQ

namespace Sender

namespace PipelineConfig

def messagesBefore (config : PipelineConfig) : Nat → Nat
  | 0 => 0
  | i + 1 => messagesBefore config i + (config.encrypted i).length

theorem messagesBefore_succ (config : PipelineConfig) (i : Nat) :
    config.messagesBefore (i + 1) =
      config.messagesBefore i + (config.encrypted i).length :=
  rfl

theorem messagesBefore_mono (config : PipelineConfig) {first last : Nat}
    (le : first ≤ last) :
    config.messagesBefore first ≤ config.messagesBefore last := by
  induction last with
  | zero =>
      have same : first = 0 := by omega
      rw [same]
  | succ last ih =>
      by_cases same : first = last + 1
      · rw [same]
      · have smaller := ih (by omega)
        rw [messagesBefore_succ]
        omega

def batchEnd (config : PipelineConfig) (start : Nat) : Nat :=
  min (start + config.batchSize) config.numMessages

/-- The messages of a batch are at most those that the window, the channel and
the reader can take, less those of earlier batches that may still be there. -/
def BatchFits (config : PipelineConfig) (start : Nat) : Prop :=
  config.messagesBefore (config.batchEnd start) +
      min (config.messagesBefore start) (config.maxInflight + 1) ≤
    config.messagesBefore start + (3 * config.maxInflight + 1)

def BatchesFit (config : PipelineConfig) : Prop :=
  ∀ start < config.numMessages, config.batchSize ∣ start →
    config.BatchFits start

end PipelineConfig

def ReadPoint.busy : ReadPoint → Nat
  | .removing _ | .releasing _ | .forwarding _ => 1
  | _ => 0

def ReadPoint.running : ReadPoint → Bool
  | .stopped | .reporting _ => false
  | _ => true

namespace Pipeline

/-- Every write succeeds, the server acknowledges every message and keeps the
connection open. -/
def WellBehaved : Event → Prop
  | .send succeeds => succeeds = true
  | .answer reply => reply = .ack
  | .readEof | .readError _ => False
  | _ => True

/-- A well-behaved step in which no read of the reader times out. -/
def Timely (_ : Pipeline) (event : Event) : Prop :=
  WellBehaved event ∧ event ≠ .readTimeout

instance (event : Event) : Decidable (WellBehaved event) := by
  unfold WellBehaved
  split <;> infer_instance

instance (pipeline : Pipeline) (event : Event) :
    Decidable (Timely pipeline event) :=
  inferInstanceAs (Decidable (_ ∧ _))

theorem timely_send (pipeline : Pipeline) :
    Timely pipeline (.send true) :=
  ⟨rfl, by decide⟩

theorem timely_read (pipeline : Pipeline) : Timely pipeline .read :=
  ⟨trivial, by decide⟩

theorem timely_ack (pipeline : Pipeline) :
    Timely pipeline (.answer .ack) :=
  ⟨rfl, by decide⟩

/-! ## Results under way -/

/-- Every acknowledgement is on its way to the loop or was taken by it. -/
structure Flows (pipeline : Pipeline) : Prop where
  running : pipeline.reader.running = true
  unrefused : pipeline.tally.refused = 0
  unread : owed pipeline.replies = pipeline.replies.length
  results : pipeline.tally.acked =
    pipeline.replies.length + pipeline.reader.busy +
      pipeline.results.length + pipeline.tally.drained

theorem running_classify (line : String) :
    (classify line).running = true ∧ (classify line).busy = 1 := by
  unfold classify
  dsimp only
  split
  · exact ⟨rfl, rfl⟩
  · split <;> exact ⟨rfl, rfl⟩

theorem owes_le_busy (point : ReadPoint) : point.owes ≤ point.busy := by
  cases point <;> simp [ReadPoint.owes, ReadPoint.busy]

theorem busy_le_one (point : ReadPoint) : point.busy ≤ 1 := by
  cases point <;> simp [ReadPoint.busy]

theorem owed_le_length (lines : List String) :
    owed lines ≤ lines.length := by
  induction lines with
  | nil => exact Nat.le_refl 0
  | cons line lines ih =>
      have atMostOne := owes_le_busy (classify line)
      rw [(running_classify line).2] at atMostOne
      rw [owed_cons, List.length_cons]
      omega

theorem Flows.step {config : PipelineConfig} {before after : Pipeline}
    {event : Event} (flows : before.Flows) (named : before.Named)
    (timely : Timely before event)
    (stepTo : before.step config event = some after) : after.Flows := by
  obtain ⟨running, unrefused, unread, results⟩ := flows
  cases move_of_step stepTo with
  | send sends =>
      cases sends with
      | take _ result rest next held points =>
          rw [held, List.length_cons] at results
          refine ⟨running, unrefused, unread, ?_⟩
          dsimp only
          omega
      | _ => exact ⟨running, unrefused, unread, results⟩
  | giveUp isWaiting => exact ⟨running, unrefused, unread, results⟩
  | readLine line replies isReading arrived =>
      obtain ⟨goesOn, isBusy⟩ := running_classify line
      have atMost := owed_le_length replies
      have atMostOne := owes_le_busy (classify line)
      rw [arrived, owed_cons, List.length_cons] at unread
      rw [isReading, arrived, List.length_cons] at results
      refine ⟨goesOn, unrefused, ?_, ?_⟩
      · dsimp only
        omega
      · simp only [ReadPoint.busy] at results
        simp only [isBusy]
        omega
  | remove messageId isRemoving =>
      rw [isRemoving] at results
      exact ⟨rfl, unrefused, unread, results⟩
  | release messageId isReleasing =>
      rw [isReleasing] at results
      exact ⟨rfl, unrefused, unread, results⟩
  | forward result next origin hasRoom =>
      rcases origin with ⟨isForwarding, rfl⟩ | ⟨error, isReporting, -, rfl⟩
      · rw [isForwarding] at results
        refine ⟨rfl, unrefused, unread, ?_⟩
        simp only [ReadPoint.busy, List.length_append,
          List.length_singleton] at results ⊢
        omega
      · rw [isReporting] at running
        cases running
  | stop event next isStop isReading =>
      rcases isStop with ⟨rfl, -⟩ | ⟨rfl, -⟩ | ⟨error, rfl, -⟩
      · exact (timely.2 rfl).elim
      · exact timely.1.elim
      · exact timely.1.elim
  | ack messageId unanswered isOldest =>
      have isId : IsMessageId messageId := by
        apply named.sent
        rw [isOldest]
        exact List.mem_cons_self
      have owes := owes_ack isId
      refine ⟨running, unrefused, ?_, ?_⟩
      · simp only [owed_append, owes, List.length_append,
          List.length_singleton]
        omega
      · simp only [List.length_append, List.length_singleton]
        omega
  | refuse reply messageId unanswered isRefusal isOldest =>
      exact (isRefusal timely.1).elim

/-! ## The place of the loop -/

structure InBatch (config : PipelineConfig) (tally : Tally)
    (start i batchEnd : Nat) : Prop where
  inRange : start < config.numMessages
  isStart : config.batchSize ∣ start
  isEnd : batchEnd = config.batchEnd start
  within : i ≤ batchEnd
  written : tally.batchStart = config.messagesBefore start
  carried : tally.batchStart ≤ tally.drained + (config.maxInflight + 1)

/-- The loop is between two batches: what has been written before is drained,
but for what the window and the reader hold. -/
structure Between (config : PipelineConfig) (tally : Tally) (i : Nat) :
    Prop where
  written : tally.written = config.messagesBefore i
  isStart : i < config.numMessages → config.batchSize ∣ i
  carried : tally.written ≤ tally.drained + (config.maxInflight + 1)

/-- What has been written when the loop is at a program point. -/
def Placed (config : PipelineConfig) (tally : Tally) : SendPoint → Prop
  | .nextBatch i | .sleeping i => Between config tally i
  | .nextMessage i batchEnd =>
      tally.written = config.messagesBefore i ∧
        ∃ start, InBatch config tally start i batchEnd
  | .acquiring i batchEnd rest | .flushing i batchEnd _ rest =>
      tally.written + rest.length = config.messagesBefore (i + 1) ∧
        ∃ start, InBatch config tally start (i + 1) batchEnd
  | .storing i batchEnd _ rest | .writing i batchEnd _ rest =>
      tally.written + (rest.length + 1) = config.messagesBefore (i + 1) ∧
        ∃ start, InBatch config tally start (i + 1) batchEnd
  | .draining i batchEnd =>
      tally.written = config.messagesBefore i ∧ i = batchEnd ∧
        ∃ start, start < config.numMessages ∧ config.batchSize ∣ start ∧
          batchEnd = config.batchEnd start
  | .waiting | .finished => True

variable {config : PipelineConfig}

/-- Draining only helps. -/
theorem InBatch.mono {tally more : Tally} {start i batchEnd : Nat}
    (inBatch : InBatch config tally start i batchEnd)
    (sameStart : more.batchStart = tally.batchStart)
    (drained : tally.drained ≤ more.drained) :
    InBatch config more start i batchEnd := by
  obtain ⟨inRange, isStart, isEnd, within, written, carried⟩ := inBatch
  exact ⟨inRange, isStart, isEnd, within, sameStart.trans written, by omega⟩

theorem Placed.mono {tally more : Tally} {point : SendPoint}
    (placed : Placed config tally point)
    (sameWritten : more.written = tally.written)
    (sameStart : more.batchStart = tally.batchStart)
    (drained : tally.drained ≤ more.drained) :
    Placed config more point := by
  cases point with
  | nextBatch i | sleeping i =>
      obtain ⟨written, isStart, carried⟩ := placed
      exact ⟨sameWritten.trans written, isStart, by omega⟩
  | draining i batchEnd =>
      obtain ⟨written, place⟩ := placed
      exact ⟨sameWritten.trans written, place⟩
  | waiting | finished => exact trivial
  | _ =>
      obtain ⟨written, start, inBatch⟩ := placed
      refine ⟨?_, start, inBatch.mono sameStart drained⟩
      rw [sameWritten]
      exact written

/-- Once the channel is empty, the window and the reader hold what has not
been drained. -/
theorem carried_of_drained {pipeline : Pipeline}
    (balanced : pipeline.Balanced config) (flows : pipeline.Flows)
    (noFailures : pipeline.tally.failedWrites = 0 ∧
      pipeline.tally.failedFlushes = 0)
    (isEmpty : pipeline.results = []) :
    pipeline.tally.written ≤
      pipeline.tally.drained + (config.maxInflight + 1) := by
  have permits := balanced.permits
  have results := flows.results
  have unread := flows.unread
  have busy := busy_le_one pipeline.reader
  rw [isEmpty, List.length_nil] at results
  omega

theorem batchEnd_dvd {start : Nat} (isStart : config.batchSize ∣ start)
    (more : config.batchEnd start < config.numMessages) :
    config.batchSize ∣ config.batchEnd start := by
  have whole : config.batchEnd start = start + config.batchSize := by
    unfold PipelineConfig.batchEnd at more ⊢
    omega
  rw [whole]
  exact Nat.dvd_add isStart (Nat.dvd_refl _)

theorem Placed.turn {pipeline : Pipeline} {next : SendPoint}
    (placed : Placed config pipeline.tally pipeline.sender)
    (carried : pipeline.results = [] → pipeline.tally.written ≤
      pipeline.tally.drained + (config.maxInflight + 1))
    (turn : Turn config pipeline pipeline.sender next) :
    Placed config pipeline.tally next := by
  generalize pipeline.sender = point at placed turn
  cases turn with
  | endSending i => exact trivial
  | beginMessage i batchEnd more =>
      obtain ⟨written, start, inBatch⟩ := placed
      refine ⟨?_, start, { inBatch with within := more }⟩
      rw [written, PipelineConfig.messagesBefore_succ]
  | endBatch i batchEnd done =>
      obtain ⟨written, start, inBatch⟩ := placed
      have within := inBatch.within
      exact ⟨written, by omega, start, inBatch.inRange, inBatch.isStart,
        inBatch.isEnd⟩
  | endMessage i batchEnd => exact placed
  | pause i batchEnd isEmpty more =>
      obtain ⟨written, rfl, start, inRange, isStart, isEnd⟩ := placed
      refine ⟨written, fun _ => ?_, carried isEmpty⟩
      rw [isEnd] at more ⊢
      exact batchEnd_dvd isStart more
  | endDrain i batchEnd isEmpty last =>
      obtain ⟨written, rfl, start, inRange, isStart, isEnd⟩ := placed
      exact ⟨written, fun more => by omega, carried isEmpty⟩
  | wake i => exact placed
  | stopWaiting => exact trivial
  | keepWaiting => exact trivial

theorem Placed.sends {before after : Pipeline}
    (placed : Placed config before.tally before.sender)
    (carried : before.results = [] → before.tally.written ≤
      before.tally.drained + (config.maxInflight + 1))
    (sends : Sends config before true after) :
    Placed config after.tally after.sender := by
  have place : ∀ {point : SendPoint}, before.sender = point →
      Placed config before.tally point := by
    rintro point rfl
    exact placed
  cases sends with
  | turn _ next turn => exact placed.turn carried turn
  | beginBatch _ i isPoint more =>
      obtain ⟨written, isStart, between⟩ := place isPoint
      refine ⟨written, i, more, isStart more, rfl, ?_, written, between⟩
      omega
  | acquire _ i batchEnd message rest isPoint available =>
      have inMessage := place isPoint
      exact inMessage
  | store _ i batchEnd message rest isPoint =>
      have inMessage := place isPoint
      exact inMessage
  | write i batchEnd message rest isPoint =>
      obtain ⟨written, start, inBatch⟩ := place isPoint
      refine ⟨?_, start, inBatch.mono rfl (Nat.le_refl _)⟩
      dsimp only
      omega
  | flush i batchEnd message rest isPoint =>
      have inMessage := place isPoint
      exact inMessage
  | take _ result results next held points =>
      have drained : before.tally.drained ≤ before.tally.drained + 1 := by
        omega
      rcases points with ⟨i, batchEnd, isPoint, rfl⟩ | ⟨-, rfl | rfl⟩
      · exact (place isPoint).mono rfl rfl drained
      · exact trivial
      · exact trivial

structure OnCourse (config : PipelineConfig) (pipeline : Pipeline) :
    Prop where
  named : pipeline.Named
  balanced : pipeline.Balanced config
  noFailures : pipeline.tally.failedWrites = 0 ∧
    pipeline.tally.failedFlushes = 0
  flows : pipeline.Flows
  placed : Placed config pipeline.tally pipeline.sender

theorem Timely.writesSucceed {pipeline : Pipeline} {event : Event}
    (timely : Timely pipeline event) : WritesSucceed pipeline event := by
  rintro rfl
  cases timely.1

theorem OnCourse.step {before after : Pipeline} {event : Event}
    (onCourse : before.OnCourse config) (timely : Timely before event)
    (stepTo : before.step config event = some after) :
    after.OnCourse config := by
  obtain ⟨named, balanced, noFailures, flows, placed⟩ := onCourse
  have same := noFailures_step timely.writesSucceed stepTo
  refine ⟨named.step stepTo, balanced.step named stepTo,
    ⟨same.1.trans noFailures.1, same.2.trans noFailures.2⟩,
    flows.step named timely stepTo, ?_⟩
  cases move_of_step stepTo with
  | send sends =>
      cases timely.1
      exact placed.sends (carried_of_drained balanced flows noFailures) sends
  | giveUp => exact trivial
  | ack | refuse => exact placed.mono rfl rfl (Nat.le_refl _)
  | _ => exact placed

theorem onCourse_of_reachable {pipeline : Pipeline}
    (reached : ReachableWhile (step config) Timely (new config) pipeline) :
    pipeline.OnCourse config := by
  apply reached.invariant (OnCourse config)
  · obtain ⟨named, balanced⟩ :=
      balanced_of_reachable (@ReachableWhile.start _ _ (step config) Timely _)
    refine ⟨named, balanced, ⟨rfl, rfl⟩, ⟨rfl, rfl, rfl, rfl⟩, rfl, ?_, ?_⟩
    · exact fun _ => Nat.dvd_zero _
    · exact Nat.zero_le _
  · intro before event after onCourse timely stepTo
    exact onCourse.step timely stepTo

/-! ## Some step is enabled -/

def Sending (pipeline : Pipeline) : Prop :=
  pipeline.sender ≠ .waiting ∧ pipeline.sender ≠ .finished

def Progresses (config : PipelineConfig) (pipeline : Pipeline) : Prop :=
  ∃ event after, Timely pipeline event ∧
    pipeline.step config event = some after

def DeadlockFree (config : PipelineConfig) : Prop :=
  ∀ pipeline, ReachableWhile (step config) Timely (new config) pipeline →
    pipeline.Sending → pipeline.Progresses config

theorem step_ack {pipeline : Pipeline} {messageId : String}
    {unanswered : List String}
    (isOldest : pipeline.unanswered = messageId :: unanswered) :
    pipeline.step config (.answer .ack) = some { pipeline with
      unanswered := unanswered
      replies := pipeline.replies ++ [PublishReply.line messageId .ack]
      tally :=
        { pipeline.tally with acked := pipeline.tally.acked + 1 } } := by
  simp only [step, answerStep, isOldest]
  rfl

/-- The loop waits for a permit only. -/
theorem progresses_or_acquiring {pipeline : Pipeline}
    (sending : pipeline.Sending) :
    pipeline.Progresses config ∨
      ∃ i batchEnd message rest,
        pipeline.sender = .acquiring i batchEnd (message :: rest) ∧
          pipeline.permits = 0 := by
  have moves : ∀ after, pipeline.sendStep config true = some after →
      pipeline.Progresses config := by
    intro after stepTo
    exact ⟨.send true, after, timely_send pipeline, stepTo⟩
  cases isPoint : pipeline.sender with
  | waiting => exact (sending.1 isPoint).elim
  | finished => exact (sending.2 isPoint).elim
  | acquiring i batchEnd rest =>
      cases rest with
      | nil => exact .inl (moves _ (by simp only [sendStep, isPoint]; rfl))
      | cons message rest =>
          by_cases available : 0 < pipeline.permits
          · left
            apply moves
            simp only [sendStep, isPoint, if_pos available]
            rfl
          · exact .inr ⟨i, batchEnd, message, rest, rfl, by omega⟩
  | nextBatch i =>
      left
      by_cases more : i < config.numMessages
      · exact moves _ (by simp only [sendStep, isPoint, if_pos more]; rfl)
      · exact moves _ (by simp only [sendStep, isPoint, if_neg more]; rfl)
  | nextMessage i batchEnd =>
      left
      by_cases more : i < batchEnd
      · exact moves _ (by simp only [sendStep, isPoint, if_pos more]; rfl)
      · exact moves _ (by simp only [sendStep, isPoint, if_neg more]; rfl)
  | draining i batchEnd =>
      left
      cases held : pipeline.results with
      | nil => exact moves _ (by simp only [sendStep, isPoint, held]; rfl)
      | cons => exact moves _ (by simp only [sendStep, isPoint, held]; rfl)
  | _ => exact .inl (moves _ (by simp only [sendStep, isPoint]; rfl))

/-- When the loop waits for a permit and the channel is full, the batch does
not fit. -/
theorem results_lt_of_batchesFit {pipeline : Pipeline}
    (fit : config.BatchesFit) (onCourse : pipeline.OnCourse config)
    {i batchEnd : Nat} {message : EncryptedMessage}
    {rest : List EncryptedMessage} {result : AckResult}
    (isPoint : pipeline.sender = .acquiring i batchEnd (message :: rest))
    (noPermit : pipeline.permits = 0)
    (isForwarding : pipeline.reader = .forwarding result) :
    pipeline.results.length < config.maxInflight * 2 := by
  obtain ⟨-, balanced, noFailures, flows, placed⟩ := onCourse
  have permits := balanced.permits
  have results := flows.results
  have unread := flows.unread
  rw [isPoint] at permits placed
  rw [isForwarding] at permits results
  simp only [SendPoint.held, ReadPoint.owes] at permits
  simp only [ReadPoint.busy] at results
  obtain ⟨written, start, inRange, isStart, isEnd, within, batchStart,
    carried⟩ := placed
  rw [List.length_cons] at written
  have fits := fit start inRange isStart
  unfold PipelineConfig.BatchFits at fits
  rw [← isEnd] at fits
  have atMost := config.messagesBefore_mono within
  omega

theorem progresses_of_batchesFit {pipeline : Pipeline}
    (fit : config.BatchesFit) (onCourse : pipeline.OnCourse config)
    (sending : pipeline.Sending) : pipeline.Progresses config := by
  rcases progresses_or_acquiring sending with moves |
    ⟨i, batchEnd, message, rest, isPoint, noPermit⟩
  · exact moves
  have reads : ∀ after, pipeline.readStep config = some after →
      pipeline.Progresses config := by
    intro after stepTo
    exact ⟨.read, after, timely_read pipeline, stepTo⟩
  have running := onCourse.flows.running
  cases isReader : pipeline.reader with
  | stopped | reporting =>
      rw [isReader] at running
      cases running
  | removing | releasing =>
      exact reads _ (by simp only [readStep, isReader]; rfl)
  | forwarding result =>
      have hasRoom :=
        results_lt_of_batchesFit fit onCourse isPoint noPermit isReader
      apply reads
      simp only [readStep, isReader, forward, if_pos hasRoom]
      rfl
  | reading =>
      cases arrived : pipeline.replies with
      | cons line replies =>
          exact reads _ (by simp only [readStep, isReader, arrived]; rfl)
      | nil =>
          -- all permits are spent, so the server has messages to answer
          have permits := onCourse.balanced.permits
          have answers := onCourse.balanced.answers
          have noFailures := onCourse.noFailures
          have unrefused := onCourse.flows.unrefused
          have positive := config.maxInflight_pos
          have noneOwed : owed [] = 0 := rfl
          rw [isPoint, isReader, arrived] at permits
          simp only [SendPoint.held, ReadPoint.owes] at permits
          cases isOldest : pipeline.unanswered with
          | nil =>
              rw [isOldest, List.length_nil] at answers
              omega
          | cons messageId unanswered =>
              exact ⟨.answer .ack, _, timely_ack pipeline, step_ack isOldest⟩

end Pipeline

end Sender

end CipherMQ
