import CipherMQ.PipelineProgress

/-!
# How the pipeline blocks

On the schedule of this file the reader does as little as it can: it takes a
reply only when the loop waits for a permit, and forwards a result only when
it has to take the next reply.  Then each batch starts with as many results
of earlier batches under way as there can be.  If the pipeline does not block
on this schedule, every batch fits.
-/

namespace CipherMQ

namespace Sender

namespace Pipeline

variable {config : PipelineConfig}

/-! ## Parts of a run -/

theorem run_sendMessage {pipeline : Pipeline} {i batchEnd : Nat}
    {message : EncryptedMessage} {rest : List EncryptedMessage}
    (isPoint : pipeline.sender = .acquiring i batchEnd (message :: rest))
    (available : 0 < pipeline.permits) :
    ReachableWhile (step config) Timely pipeline { pipeline with
      permits := pipeline.permits - 1
      pending := pipeline.insertPending message
      unanswered := pipeline.unanswered ++ [message.messageId]
      sender := .acquiring i batchEnd rest
      sentCount := pipeline.sentCount + 1
      tally :=
        { pipeline.tally with written := pipeline.tally.written + 1 } } := by
  have acquires : pipeline.step config (.send true) = some { pipeline with
      permits := pipeline.permits - 1
      sender := .storing i batchEnd message rest } := by
    simp only [step, sendStep, isPoint, if_pos available]
  have acquired := ReachableWhile.single _ (timely_send _) acquires
  have stored := acquired.next _ (timely_send _) rfl
  have written := stored.next _ (timely_send _) rfl
  exact written.next _ (timely_send _) rfl

theorem removing_of_owes {line : String}
    (owes : (classify line).owes = 1) :
    ∃ messageId, classify line = .removing messageId := by
  unfold classify at owes ⊢
  dsimp only at owes ⊢
  split
  · exact ⟨_, rfl⟩
  · rename_i noAck
    rw [if_neg noAck] at owes
    split at owes <;> cases owes

/-- A message is acknowledged and the reader gives its permit back. -/
theorem run_acknowledge {pipeline : Pipeline} {oldest : String}
    {unanswered : List String} (named : pipeline.Named)
    (isReading : pipeline.reader = .reading)
    (noReplies : pipeline.replies = [])
    (isOldest : pipeline.unanswered = oldest :: unanswered) :
    ∃ messageId,
      ReachableWhile (step config) Timely pipeline { pipeline with
        permits := pipeline.permits + 1
        pending := pipeline.removePending messageId
        reader := .forwarding (.ok messageId)
        unanswered := unanswered
        replies := []
        tally :=
          { pipeline.tally with acked := pipeline.tally.acked + 1 } } := by
  have isId : IsMessageId oldest := by
    apply named.sent
    rw [isOldest]
    exact List.mem_cons_self
  obtain ⟨messageId, isAck⟩ := removing_of_owes (owes_ack isId)
  have answered := ReachableWhile.single _ (timely_ack _)
    (@step_ack config _ _ _ isOldest)
  rw [noReplies, List.nil_append] at answered
  refine ⟨messageId, ?_⟩
  have reads : step config { pipeline with
      unanswered := unanswered
      replies := [PublishReply.line oldest .ack]
      tally := { pipeline.tally with acked := pipeline.tally.acked + 1 } }
      .read = some { pipeline with
        unanswered := unanswered
        replies := []
        reader := .removing messageId
        tally :=
          { pipeline.tally with acked := pipeline.tally.acked + 1 } } := by
    simp only [step, readStep, isReading, isAck]
  have read := answered.next _ (timely_read _) reads
  have removed := read.next _ (timely_read _) rfl
  exact removed.next _ (timely_read _) rfl

theorem run_answers (pipeline : Pipeline) :
    ∃ after, ReachableWhile (step config) Timely pipeline after ∧
      after.unanswered = [] ∧ after.permits = pipeline.permits ∧
      after.sender = pipeline.sender ∧ after.reader = pipeline.reader ∧
      after.results = pipeline.results := by
  generalize waiting : pipeline.unanswered = unanswered
  induction unanswered generalizing pipeline with
  | nil => exact ⟨pipeline, .start, waiting, rfl, rfl, rfl, rfl⟩
  | cons oldest unanswered ih =>
      have answered := ReachableWhile.single _ (timely_ack _)
        (@step_ack config _ _ _ waiting)
      obtain ⟨after, later, same⟩ := ih { pipeline with
        unanswered := unanswered
        replies := pipeline.replies ++ [PublishReply.line oldest .ack]
        tally :=
          { pipeline.tally with acked := pipeline.tally.acked + 1 } } rfl
      exact ⟨after, answered.trans later, same⟩

theorem run_drain {pipeline : Pipeline} {i batchEnd : Nat}
    (isPoint : pipeline.sender = .draining i batchEnd) :
    ReachableWhile (step config) Timely pipeline { pipeline with
      results := []
      tally :=
        { pipeline.tally with
          drained := pipeline.tally.drained + pipeline.results.length } } := by
  generalize held : pipeline.results = results
  induction results generalizing pipeline with
  | nil =>
      cases pipeline
      cases held
      exact .start
  | cons result results ih =>
      have takes : pipeline.step config (.send true) = some { pipeline with
          results := results
          tally :=
            { pipeline.tally with
              drained := pipeline.tally.drained + 1 } } := by
        simp only [step, sendStep, isPoint, held]
      have taken := ReachableWhile.single _ (timely_send _) takes
      have later := taken.trans (ih isPoint rfl)
      have count : pipeline.tally.drained + 1 + results.length =
          pipeline.tally.drained + (result :: results).length := by
        rw [List.length_cons]
        omega
      rw [← count]
      exact later

/-! ## The blocked state -/

/-- The loop waits for a permit and the reader for room in the channel. -/
structure Jammed (config : PipelineConfig) (pipeline : Pipeline) :
    Prop where
  acquiring : ∃ i batchEnd message rest,
    pipeline.sender = .acquiring i batchEnd (message :: rest)
  noPermit : pipeline.permits = 0
  forwarding : ∃ result, pipeline.reader = .forwarding result
  isFull : config.maxInflight * 2 ≤ pipeline.results.length

/-- Once the server has answered, nothing can happen any more. -/
theorem Jammed.step_eq_none {pipeline : Pipeline}
    (jammed : pipeline.Jammed config) (answered : pipeline.unanswered = [])
    (event : Event) : pipeline.step config event = none := by
  obtain ⟨⟨i, batchEnd, message, rest, isPoint⟩, noPermit,
    ⟨result, isForwarding⟩, isFull⟩ := jammed
  cases event with
  | send succeeds =>
      have unavailable : ¬ 0 < pipeline.permits := by omega
      simp only [step, sendStep, isPoint, if_neg unavailable]
  | giveUp => simp [step, isPoint]
  | read =>
      have noRoom :
          ¬ pipeline.results.length < config.maxInflight * 2 := by omega
      simp only [step, readStep, isForwarding, forward, if_neg noRoom]
  | readTimeout | readEof | readError => simp [step, isForwarding]
  | answer reply => simp only [step, answerStep, answered]

theorem not_jammed_of_deadlockFree (free : DeadlockFree config)
    {pipeline : Pipeline}
    (reached : ReachableWhile (step config) Timely (new config) pipeline) :
    ¬ pipeline.Jammed config := by
  intro jammed
  obtain ⟨after, answers, answered, permits, sender, reader, results⟩ :=
    @run_answers config pipeline
  have stillJammed : after.Jammed config := by
    obtain ⟨acquiring, noPermit, forwarding, isFull⟩ := jammed
    refine ⟨?_, permits.trans noPermit, ?_, ?_⟩
    · rw [sender]
      exact acquiring
    · rw [reader]
      exact forwarding
    · rw [results]
      exact isFull
  obtain ⟨i, batchEnd, message, rest, isPoint⟩ := stillJammed.acquiring
  have sending : after.Sending := by simp [Sending, isPoint]
  obtain ⟨event, next, -, stepTo⟩ :=
    free after (reached.trans answers) sending
  rw [stillJammed.step_eq_none answered] at stepTo
  cases stepTo

theorem results_le_of_reachable {allowed : Pipeline → Event → Prop}
    {pipeline : Pipeline}
    (reached : ReachableWhile (step config) allowed (new config) pipeline) :
    pipeline.results.length ≤ config.maxInflight * 2 := by
  apply reached.invariant fun pipeline =>
    pipeline.results.length ≤ config.maxInflight * 2
  · exact Nat.zero_le _
  · intro before event after atMost _ stepTo
    cases move_of_step stepTo with
    | send sends =>
        cases sends with
        | take _ result results next held =>
            rw [held, List.length_cons] at atMost
            dsimp only
            omega
        | _ => exact atMost
    | forward result next origin hasRoom =>
        simp only [List.length_append, List.length_singleton]
        omega
    | _ => exact atMost

/-! ## The lazy reader -/

/-- Only as many messages are acknowledged as permits have run out, and the
reader still holds the last result. -/
structure Lazy (config : PipelineConfig) (pipeline : Pipeline) : Prop where
  replies : pipeline.replies = []
  acked : pipeline.tally.acked =
    pipeline.tally.written - config.maxInflight
  reader : (pipeline.tally.acked = 0 ∧ pipeline.reader = .reading) ∨
    (0 < pipeline.tally.acked ∧
      ∃ result, pipeline.reader = .forwarding result)

/-- The schedule takes the loop to a program point. -/
def LazyAt (config : PipelineConfig) (point : SendPoint)
    (written drained : Nat) : Prop :=
  ∃ pipeline,
    ReachableWhile (step config) Timely (new config) pipeline ∧
    pipeline.Lazy config ∧ pipeline.sender = point ∧
    pipeline.tally.written = written ∧ pipeline.tally.drained = drained

theorem LazyAt.written_le {point : SendPoint} {written drained : Nat}
    (lazyAt : LazyAt config point written drained) :
    written ≤ drained + (3 * config.maxInflight + 1) := by
  obtain ⟨pipeline, reached, ⟨replies, acked, reader⟩, -, rfl, rfl⟩ := lazyAt
  have results := (onCourse_of_reachable reached).flows.results
  have capacity := results_le_of_reachable reached
  have busy := busy_le_one pipeline.reader
  rw [replies, List.length_nil] at results
  omega

theorem LazyAt.turn {point next : SendPoint} {written drained : Nat}
    (lazyAt : LazyAt config point written drained)
    (turns : ∀ pipeline : Pipeline, pipeline.sender = point →
      pipeline.step config (.send true) =
        some { pipeline with sender := next }) :
    LazyAt config next written drained := by
  obtain ⟨pipeline, reached, ⟨replies, acked, reader⟩, isPoint, counts⟩ :=
    lazyAt
  exact ⟨_, reached.next _ (timely_send _) (turns pipeline isPoint),
    ⟨replies, acked, reader⟩, rfl, counts⟩

/-- If the pipeline does not block, the reader can forward the result it
holds when the loop waits for a permit. -/
theorem Lazy.run_forward (free : DeadlockFree config) {pipeline : Pipeline}
    (reached : ReachableWhile (step config) Timely (new config) pipeline)
    (lazy : pipeline.Lazy config) {i batchEnd : Nat}
    {message : EncryptedMessage} {rest : List EncryptedMessage}
    (isPoint : pipeline.sender = .acquiring i batchEnd (message :: rest))
    (noPermit : pipeline.permits = 0) :
    ∃ results, ReachableWhile (step config) Timely pipeline
      { pipeline with results := results, reader := .reading } := by
  rcases lazy.reader with ⟨-, isReading⟩ | ⟨-, result, isForwarding⟩
  · refine ⟨pipeline.results, ?_⟩
    rw [← isReading]
    exact .start
  · have hasRoom : pipeline.results.length < config.maxInflight * 2 := by
      by_contra noRoom
      exact not_jammed_of_deadlockFree free reached
        ⟨⟨i, batchEnd, message, rest, isPoint⟩, noPermit,
          ⟨result, isForwarding⟩, by omega⟩
    refine ⟨pipeline.results ++ [result], .single .read (timely_read _) ?_⟩
    simp only [step, readStep, isForwarding, forward, if_pos hasRoom]

/-- The next message is sent, after an acknowledgement if there is no
permit. -/
theorem LazyAt.sendNext (free : DeadlockFree config) {i batchEnd : Nat}
    {message : EncryptedMessage} {rest : List EncryptedMessage}
    {written drained : Nat}
    (lazyAt : LazyAt config (.acquiring i batchEnd (message :: rest))
      written drained) :
    LazyAt config (.acquiring i batchEnd rest) (written + 1) drained := by
  obtain ⟨pipeline, reached, lazy, isPoint, rfl, rfl⟩ := lazyAt
  obtain ⟨named, balanced, noFailures, flows, -⟩ :=
    onCourse_of_reachable reached
  obtain ⟨replies, acked, reader⟩ := lazy
  have permits := balanced.permits
  have answers := balanced.answers
  have unrefused := flows.unrefused
  have positive := config.maxInflight_pos
  have noneOwed : owed [] = 0 := rfl
  have released : pipeline.reader.owes = 0 := by
    rcases reader with ⟨-, isReader⟩ | ⟨-, result, isReader⟩
    all_goals rw [isReader]; rfl
  rw [isPoint, replies, released] at permits
  simp only [SendPoint.held] at permits
  by_cases inWindow : pipeline.tally.written < config.maxInflight
  · have available : 0 < pipeline.permits := by omega
    refine ⟨_, reached.trans (run_sendMessage isPoint available),
      ⟨replies, ?_, reader⟩, rfl, rfl, rfl⟩
    dsimp only
    omega
  · have noPermit : pipeline.permits = 0 := by omega
    obtain ⟨results, forwarded⟩ :=
      Lazy.run_forward free reached ⟨replies, acked, reader⟩ isPoint noPermit
    cases isOldest : pipeline.unanswered with
    | nil =>
        rw [isOldest, List.length_nil] at answers
        omega
    | cons oldest unanswered =>
        have stillNamed : Named
            { pipeline with results := results, reader := .reading } :=
          ⟨named.inHand, named.sent⟩
        obtain ⟨messageId, acknowledged⟩ :=
          @run_acknowledge config _ _ _ stillNamed rfl replies isOldest
        have sent := @run_sendMessage config { pipeline with
          permits := pipeline.permits + 1
          pending := pipeline.removePending messageId
          results := results
          reader := .forwarding (.ok messageId)
          unanswered := unanswered
          replies := []
          tally :=
            { pipeline.tally with acked := pipeline.tally.acked + 1 } }
          _ _ _ _ isPoint (Nat.succ_pos _)
        refine ⟨_, ((reached.trans forwarded).trans acknowledged).trans sent,
          ⟨rfl, ?_, .inr ⟨Nat.succ_pos _, _, rfl⟩⟩, rfl, rfl, rfl⟩
        dsimp only
        omega

theorem LazyAt.sendAll (free : DeadlockFree config) {i batchEnd : Nat}
    {rest : List EncryptedMessage} {written drained : Nat}
    (lazyAt : LazyAt config (.acquiring i batchEnd rest) written drained) :
    LazyAt config (.acquiring i batchEnd []) (written + rest.length)
      drained := by
  induction rest generalizing written with
  | nil => exact lazyAt
  | cons message rest ih =>
      have later := ih (lazyAt.sendNext free)
      have count : written + 1 + rest.length =
          written + (message :: rest).length := by
        rw [List.length_cons]
        omega
      rw [← count]
      exact later

theorem LazyAt.sendMessages (free : DeadlockFree config)
    {i batchEnd drained : Nat}
    (lazyAt : LazyAt config (.nextMessage i batchEnd)
      (config.messagesBefore i) drained) {more : Nat}
    (within : i + more ≤ batchEnd) :
    LazyAt config (.nextMessage (i + more) batchEnd)
      (config.messagesBefore (i + more)) drained := by
  induction more with
  | zero => exact lazyAt
  | succ more ih =>
      have isMore : i + more < batchEnd := by omega
      have begun : LazyAt config
          (.acquiring (i + more) batchEnd (config.encrypted (i + more)))
          (config.messagesBefore (i + more)) drained :=
        (ih (by omega)).turn fun pipeline isPoint => by
          simp only [step, sendStep, isPoint, if_pos isMore]
      exact (begun.sendAll free).turn fun pipeline isPoint => by
        simp only [step, sendStep, isPoint]
        rfl

/-- After a batch all results are drained that the reader has forwarded. -/
theorem LazyAt.drain {i batchEnd written drained : Nat}
    (lazyAt : LazyAt config (.draining i batchEnd) written drained) :
    LazyAt config (.nextBatch i) written
      (written - (config.maxInflight + 1)) := by
  obtain ⟨pipeline, reached, ⟨replies, acked, reader⟩, isPoint, rfl, -⟩ :=
    lazyAt
  have results := (onCourse_of_reachable reached).flows.results
  have busy : pipeline.reader.busy = min pipeline.tally.acked 1 := by
    rcases reader with ⟨none, isReader⟩ | ⟨some, result, isReader⟩
    · rw [none, isReader]
      rfl
    · rw [isReader, Nat.min_eq_right some]
      rfl
  have count : pipeline.tally.drained + pipeline.results.length =
      pipeline.tally.written - (config.maxInflight + 1) := by
    rw [replies, List.length_nil] at results
    omega
  obtain ⟨emptied, reached, sender, isEmpty, lazy, written, drained⟩ :
      ∃ emptied, ReachableWhile (step config) Timely (new config) emptied ∧
        emptied.sender = .draining i batchEnd ∧ emptied.results = [] ∧
        emptied.Lazy config ∧
        emptied.tally.written = pipeline.tally.written ∧
        emptied.tally.drained =
          pipeline.tally.written - (config.maxInflight + 1) :=
    ⟨_, reached.trans (run_drain isPoint), isPoint, rfl,
      ⟨replies, acked, reader⟩, rfl, count⟩
  by_cases more : batchEnd < config.numMessages
  · have pauses : emptied.step config (.send true) =
        some { emptied with sender := .sleeping i } := by
      simp only [step, sendStep, sender, isEmpty, if_pos more]
    have paused := reached.next _ (timely_send _) pauses
    exact ⟨_, paused.next (.send true) (timely_send _) rfl,
      ⟨lazy.replies, lazy.acked, lazy.reader⟩, rfl, written, drained⟩
  · have ends : emptied.step config (.send true) =
        some { emptied with sender := .nextBatch i } := by
      simp only [step, sendStep, sender, isEmpty, if_neg more]
    exact ⟨_, reached.next _ (timely_send _) ends,
      ⟨lazy.replies, lazy.acked, lazy.reader⟩, rfl, written, drained⟩

def LazyStart (config : PipelineConfig) (start : Nat) : Prop :=
  LazyAt config (.nextBatch start) (config.messagesBefore start)
    (config.messagesBefore start - (config.maxInflight + 1))

theorem lazyStart_zero : LazyStart config 0 :=
  ⟨new config, .start, ⟨rfl, (Nat.zero_sub _).symm, .inl ⟨rfl, rfl⟩⟩,
    rfl, rfl, (Nat.zero_sub _).symm⟩

theorem LazyStart.batch (free : DeadlockFree config) {start : Nat}
    (lazyStart : LazyStart config start)
    (more : start < config.numMessages) :
    LazyAt config
      (.nextMessage (config.batchEnd start) (config.batchEnd start))
      (config.messagesBefore (config.batchEnd start))
      (config.messagesBefore start - (config.maxInflight + 1)) := by
  obtain ⟨pipeline, reached, ⟨replies, acked, reader⟩, isPoint, counts⟩ :=
    lazyStart
  have begins : pipeline.step config (.send true) = some { pipeline with
      sender := .nextMessage start (config.batchEnd start)
      tally :=
        { pipeline.tally with
          batchStart := pipeline.tally.written } } := by
    simp only [step, sendStep, isPoint, if_pos more]
    rfl
  have begun : LazyAt config (.nextMessage start (config.batchEnd start))
      (config.messagesBefore start)
      (config.messagesBefore start - (config.maxInflight + 1)) :=
    ⟨_, reached.next _ (timely_send _) begins, ⟨replies, acked, reader⟩,
      rfl, counts⟩
  obtain ⟨messages, isEnd⟩ : ∃ messages,
      config.batchEnd start = start + messages := by
    refine ⟨config.batchEnd start - start, ?_⟩
    unfold PipelineConfig.batchEnd
    omega
  rw [isEnd] at begun ⊢
  exact begun.sendMessages free (Nat.le_refl _)

theorem LazyStart.fits (free : DeadlockFree config) {start : Nat}
    (lazyStart : LazyStart config start)
    (more : start < config.numMessages) : config.BatchFits start := by
  have atMost := (lazyStart.batch free more).written_le
  unfold PipelineConfig.BatchFits
  omega

theorem LazyStart.next (free : DeadlockFree config) {start : Nat}
    (lazyStart : LazyStart config start)
    (more : start < config.numMessages) :
    LazyStart config (config.batchEnd start) := by
  have ended := (lazyStart.batch free more).turn fun pipeline isPoint => by
    simp only [step, sendStep, isPoint, if_neg (Nat.lt_irrefl _)]
    rfl
  exact ended.drain

theorem lazyStart_of_deadlockFree (free : DeadlockFree config)
    (batch : Nat) (inRange : config.batchSize * batch < config.numMessages) :
    LazyStart config (config.batchSize * batch) := by
  induction batch with
  | zero => exact lazyStart_zero
  | succ batch ih =>
      rw [Nat.mul_succ] at inRange ⊢
      have earlier : config.batchSize * batch < config.numMessages := by
        omega
      have isEnd : config.batchEnd (config.batchSize * batch) =
          config.batchSize * batch + config.batchSize := by
        unfold PipelineConfig.batchEnd
        omega
      rw [← isEnd]
      exact (ih earlier).next free earlier

/-- No timely run of the pipeline blocks exactly if every batch fits. -/
theorem deadlockFree_iff (config : PipelineConfig) :
    (∀ pipeline,
      ReachableWhile (step config) Timely (new config) pipeline →
        pipeline.Sending → pipeline.Progresses config) ↔
      config.BatchesFit := by
  constructor
  · rintro free start inRange ⟨batch, rfl⟩
    exact (lazyStart_of_deadlockFree free batch inRange).fits free inRange
  · intro fit pipeline reached sending
    exact progresses_of_batchesFit fit (onCourse_of_reachable reached) sending

def acknowledge : List Event :=
  [.answer .ack, .read, .read, .read]

/-- With a window of one, a batch of five messages: after four of them the
loop waits for a permit and the reader for room in the channel. -/
theorem deadlock_in_batch_of_five :
    ∃ pipeline,
      ReachableWhile (step (sampleConfig 1 5 5 (by decide))) Timely
        (new (sampleConfig 1 5 5 (by decide))) pipeline ∧
      pipeline.Sending ∧ pipeline.tally.written = 4 ∧
      ∀ event,
        pipeline.step (sampleConfig 1 5 5 (by decide)) event = none := by
  have ran : (executeWhile (step (sampleConfig 1 5 5 (by decide))) Timely
      (new (sampleConfig 1 5 5 (by decide)))
      ([.send true] ++
        sendMessage true ++ [.send true] ++ acknowledge ++ [.read] ++
        sendMessage true ++ [.send true] ++ acknowledge ++ [.read] ++
        sendMessage true ++ [.send true] ++ acknowledge ++
        sendMessage true ++ [.send true, .send true, .answer .ack])).map
        (fun pipeline =>
          (pipeline.sender, pipeline.permits, pipeline.unanswered,
            pipeline.reader, pipeline.results.length,
            pipeline.tally.written)) =
      some
        (.acquiring 4 5 ((sampleConfig 1 5 5 (by decide)).encrypted 4), 0, [],
          .forwarding (.ok "sender_1-2-receiver_1"), 2, 4) := by
    decide +kernel
  obtain ⟨pipeline, reached, seen⟩ := exists_reachableWhile_of_map ran
  simp only [Prod.mk.injEq] at seen
  obtain ⟨isPoint, noPermit, answered, isForwarding, isFull, written⟩ := seen
  have jammed : pipeline.Jammed (sampleConfig 1 5 5 (by decide)) :=
    ⟨⟨4, 5, _, [], isPoint⟩, noPermit, ⟨_, isForwarding⟩, isFull.ge⟩
  have sending : pipeline.Sending := by simp [Sending, isPoint]
  exact ⟨pipeline, reached, sending, written,
    jammed.step_eq_none answered⟩

end Pipeline

end Sender

end CipherMQ
