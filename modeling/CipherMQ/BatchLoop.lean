import CipherMQ.SenderPipeline
import Mathlib.Logic.Function.Iterate

/-!
# The batches of the sender

The sending loop takes its messages in batches: an outer loop computes where
the batch ends, and an inner loop generates messages up to there.  Both count
with one index of 64 bits, and neither the number of messages nor the size of
a batch is checked.  This is the control of the two loops, with every await in
their bodies returning; the addition wraps around as in a release build.
-/

namespace CipherMQ

namespace Sender

structure BatchConfig where
  numMessages : Nat
  batchSize : Nat
  numMessages_lt : numMessages < 2 ^ 64
  batchSize_lt : batchSize < 2 ^ 64

namespace BatchConfig

def lastStart (config : BatchConfig) : Nat :=
  (config.numMessages - 1) / config.batchSize * config.batchSize

/-- Batches are not empty, and their ends can be computed. -/
def Covers (config : BatchConfig) : Prop :=
  config.numMessages = 0 ∨
    (0 < config.batchSize ∧ config.lastStart + config.batchSize < 2 ^ 64)

instance (config : BatchConfig) : Decidable config.Covers :=
  inferInstanceAs (Decidable (_ ∨ _))

theorem lastStart_lt (config : BatchConfig) (more : 0 < config.numMessages) :
    config.lastStart < config.numMessages := by
  have := Nat.div_mul_le_self (config.numMessages - 1) config.batchSize
  unfold lastStart
  omega

/-- Every batch but the last ends where the last one starts, or before. -/
theorem le_lastStart (config : BatchConfig) {i : Nat}
    (isStart : config.batchSize ∣ i) (more : i < config.numMessages) :
    i ≤ config.lastStart := by
  obtain ⟨batches, rfl⟩ := isStart
  unfold lastStart
  rw [Nat.mul_comm]
  by_cases empty : config.batchSize = 0
  · simp [empty]
  · apply Nat.mul_le_mul_right
    rw [Nat.le_div_iff_mul_le (Nat.pos_of_ne_zero empty), Nat.mul_comm]
    omega

theorem dvd_lastStart (config : BatchConfig) :
    config.batchSize ∣ config.lastStart :=
  Nat.dvd_mul_left _ _

end BatchConfig

/-- The tests of the two loops, and the end of the outer one. -/
inductive LoopPoint where
  | nextBatch (i : Nat)
  | nextMessage (i batchEnd : Nat)
  | ended
  deriving DecidableEq, Repr

/-- A point of the loops, and the sequence numbers of the messages generated
so far. -/
structure BatchLoop where
  point : LoopPoint
  generated : List Nat
  deriving DecidableEq, Repr

namespace BatchLoop

def start : BatchLoop :=
  ⟨.nextBatch 0, []⟩

def step (config : BatchConfig) (loop : BatchLoop) : BatchLoop :=
  match loop.point with
  | .nextBatch i =>
      if i < config.numMessages then
        { loop with
          point := .nextMessage i
            (min ((i + config.batchSize) % 2 ^ 64) config.numMessages) }
      else
        { loop with point := .ended }
  | .nextMessage i batchEnd =>
      if i < batchEnd then
        ⟨.nextMessage (i + 1) batchEnd, loop.generated ++ [i + 1]⟩
      else
        { loop with point := .nextBatch i }
  | .ended => loop

def run (config : BatchConfig) (steps : Nat) : BatchLoop :=
  (step config)^[steps] start

variable {config : BatchConfig}

/-! ## Loops that come to their end -/

def Reaches (config : BatchConfig) (before after : BatchLoop) : Prop :=
  ∃ steps, (step config)^[steps] before = after

theorem Reaches.trans {first second third : BatchLoop}
    (toSecond : Reaches config first second)
    (toThird : Reaches config second third) :
    Reaches config first third := by
  obtain ⟨steps, rfl⟩ := toSecond
  obtain ⟨more, rfl⟩ := toThird
  exact ⟨more + steps, Function.iterate_add_apply _ _ _ _⟩

theorem reaches_step (config : BatchConfig) (loop : BatchLoop) :
    Reaches config loop (loop.step config) :=
  ⟨1, rfl⟩

/-- The inner loop generates the messages up to the end of the batch. -/
theorem reaches_batchEnd (config : BatchConfig) (i length : Nat)
    (generated : List Nat) :
    Reaches config ⟨.nextMessage i (i + length), generated⟩
      ⟨.nextBatch (i + length),
        generated ++ List.range' (i + 1) length⟩ := by
  induction length generalizing i generated with
  | zero =>
      have ends : step config ⟨.nextMessage i (i + 0), generated⟩ =
          ⟨.nextBatch (i + 0), generated ++ List.range' (i + 1) 0⟩ := by
        simp [step]
      rw [← ends]
      exact reaches_step config _
  | succ length ih =>
      have generates : step config
            ⟨.nextMessage i (i + (length + 1)), generated⟩ =
          ⟨.nextMessage (i + 1) (i + 1 + length), generated ++ [i + 1]⟩ := by
        simp only [step]
        rw [if_pos (by omega), Nat.add_right_comm i 1 length]
        rfl
      have rest := ih (i + 1) (generated ++ [i + 1])
      rw [← generates, Nat.add_right_comm i 1 length] at rest
      rw [List.range'_succ, List.append_cons]
      exact (reaches_step config _).trans rest

/-- One turn of the outer loop, when the end of the batch can be computed. -/
theorem reaches_nextBatch {i : Nat} (more : i < config.numMessages)
    (fits : i + config.batchSize < 2 ^ 64) (generated : List Nat) :
    Reaches config ⟨.nextBatch i, generated⟩
      ⟨.nextBatch (min (i + config.batchSize) config.numMessages),
        generated ++ List.range' (i + 1)
          (min (i + config.batchSize) config.numMessages - i)⟩ := by
  have begins : step config ⟨.nextBatch i, generated⟩ =
      ⟨.nextMessage i (i +
        (min (i + config.batchSize) config.numMessages - i)),
        generated⟩ := by
    simp only [step]
    rw [if_pos more, Nat.mod_eq_of_lt fits,
      Nat.add_sub_cancel' (by omega)]
  have batch := reaches_batchEnd config i
    (min (i + config.batchSize) config.numMessages - i) generated
  rw [← begins] at batch
  have whole := (reaches_step config _).trans batch
  rwa [Nat.add_sub_cancel' (by omega)] at whole

/-- From the start of any batch the loops come to their end. -/
theorem reaches_ended (config : BatchConfig) (nonempty : 0 < config.batchSize)
    (fits : config.lastStart + config.batchSize < 2 ^ 64) (left i : Nat)
    (isLeft : i + left = config.numMessages)
    (isStart : i < config.numMessages → config.batchSize ∣ i) :
    Reaches config ⟨.nextBatch i, List.range' 1 i⟩
      ⟨.ended, List.range' 1 config.numMessages⟩ := by
  induction left using Nat.strong_induction_on generalizing i with
  | _ left ih =>
      by_cases more : i < config.numMessages
      · have notLater := config.le_lastStart (isStart more) more
        have batch := reaches_nextBatch more (by omega) (List.range' 1 i)
        generalize isEnd :
          min (i + config.batchSize) config.numMessages = batchEnd at batch
        have soFar : List.range' 1 i ++ List.range' (i + 1) (batchEnd - i) =
            List.range' 1 batchEnd := by
          rw [Nat.add_comm i 1, List.range'_append_1]
          congr 1
          omega
        rw [soFar] at batch
        apply batch.trans
        apply ih (config.numMessages - batchEnd) (by omega) batchEnd
          (by omega)
        intro notLast
        have whole : batchEnd = i + config.batchSize := by omega
        rw [whole]
        exact Nat.dvd_add (isStart more) (Nat.dvd_refl _)
      · have isLast : i = config.numMessages := by omega
        subst isLast
        have ends : step config ⟨.nextBatch config.numMessages,
              List.range' 1 config.numMessages⟩ =
            ⟨.ended, List.range' 1 config.numMessages⟩ := by
          simp [step]
        rw [← ends]
        exact reaches_step config _

theorem run_ended_of_covers (covers : config.Covers) :
    ∃ steps, run config steps =
      ⟨.ended, List.range' 1 config.numMessages⟩ := by
  rcases covers with nothing | ⟨nonempty, fits⟩
  · refine ⟨1, ?_⟩
    simp [run, step, start, nothing]
  · exact reaches_ended config nonempty fits config.numMessages 0
      (Nat.zero_add _) (fun _ => Nat.dvd_zero _)

/-! ## Loops that do not -/

theorem batchEnd_le_lastStart (uncovered : ¬ config.Covers) :
    (config.lastStart + config.batchSize) % 2 ^ 64 ≤ config.lastStart := by
  have messages := config.numMessages_lt
  have size := config.batchSize_lt
  unfold BatchConfig.Covers at uncovered
  have before := config.lastStart_lt (by omega)
  by_cases empty : config.batchSize = 0
  · rw [empty, Nat.add_zero]
    exact Nat.mod_le _ _
  · have wraps : 2 ^ 64 ≤ config.lastStart + config.batchSize := by omega
    rw [Nat.mod_eq_sub_mod wraps, Nat.mod_eq_of_lt (by omega)]
    omega

/-- The loops have not passed the start of the last batch. -/
def Short (config : BatchConfig) : LoopPoint → Prop
  | .nextBatch i => config.batchSize ∣ i ∧ i ≤ config.lastStart
  | .nextMessage i batchEnd =>
      (i ≤ batchEnd ∧ config.batchSize ∣ batchEnd ∧
        batchEnd ≤ config.lastStart) ∨
      (batchEnd ≤ i ∧ config.batchSize ∣ i ∧ i ≤ config.lastStart)
  | .ended => False

theorem Short.step (uncovered : ¬ config.Covers) {loop : BatchLoop}
    (short : Short config loop.point) :
    Short config (loop.step config).point := by
  have messages := config.numMessages_lt
  have more : 0 < config.numMessages := by
    unfold BatchConfig.Covers at uncovered
    omega
  have before := config.lastStart_lt more
  obtain ⟨point, generated⟩ := loop
  cases point with
  | nextBatch i =>
      obtain ⟨isStart, notLater⟩ := short
      simp only [BatchLoop.step]
      rw [if_pos (by omega)]
      by_cases isLast : i = config.lastStart
      · subst isLast
        have returns := batchEnd_le_lastStart uncovered
        exact Or.inr ⟨by omega, isStart, le_refl _⟩
      · -- The next batch starts no later than the last one.
        have next : i + config.batchSize ≤ config.lastStart := by
          have apart := Nat.dvd_sub config.dvd_lastStart isStart
          have := Nat.le_of_dvd (by omega) apart
          omega
        rw [Nat.mod_eq_of_lt (by omega), Nat.min_eq_left (by omega)]
        exact Or.inl ⟨by omega, Nat.dvd_add isStart (Nat.dvd_refl _), next⟩
  | nextMessage i batchEnd =>
      simp only [BatchLoop.step]
      split
      · rename_i inBatch
        rcases short with ⟨-, isStart, notLater⟩ | ⟨passed, -⟩
        · exact Or.inl ⟨inBatch, isStart, notLater⟩
        · omega
      · rename_i passed
        rcases short with ⟨within, isStart, notLater⟩ |
          ⟨-, isStart, notLater⟩
        · have isEnd : i = batchEnd := by omega
          subst isEnd
          exact ⟨isStart, notLater⟩
        · exact ⟨isStart, notLater⟩
  | ended => exact short.elim

theorem short_run (uncovered : ¬ config.Covers) (steps : Nat) :
    Short config (run config steps).point := by
  induction steps with
  | zero => exact ⟨Nat.dvd_zero _, Nat.zero_le _⟩
  | succ steps ih =>
      rw [run, Function.iterate_succ_apply']
      exact ih.step uncovered

theorem run_not_ended (uncovered : ¬ config.Covers) (steps : Nat) :
    (run config steps).point ≠ .ended := by
  intro ended
  have short := short_run uncovered steps
  rw [ended] at short
  exact short

/-! ## The messages of a run -/

/-- The loops end with all messages generated, each once and in order, exactly
if batches are not empty and their ends can be computed; otherwise they do not
end. -/
theorem batch_loop_covers_iff (config : BatchConfig) :
    (config.Covers ↔ ∃ steps, run config steps =
      ⟨.ended, List.range' 1 config.numMessages⟩) ∧
    (config.Covers ↔ ∃ steps, (run config steps).point = .ended) := by
  have unended : (∃ steps, (run config steps).point = .ended) →
      config.Covers := by
    rintro ⟨steps, ended⟩
    by_contra uncovered
    exact run_not_ended uncovered steps ended
  refine ⟨⟨run_ended_of_covers, ?_⟩, ⟨?_, unended⟩⟩
  · rintro ⟨steps, ended⟩
    exact unended ⟨steps, by rw [ended]⟩
  · intro covers
    obtain ⟨steps, ended⟩ := run_ended_of_covers covers
    exact ⟨steps, by rw [ended]⟩

def emptyBatches : BatchConfig where
  numMessages := 1
  batchSize := 0
  numMessages_lt := Nat.one_lt_two_pow (Nat.succ_ne_zero 63)
  batchSize_lt := Nat.two_pow_pos 64

theorem generated_emptyBatches (steps : Nat) :
    (run emptyBatches steps).generated = [] := by
  have stays : (run emptyBatches steps).generated = [] ∧
      ((run emptyBatches steps).point = .nextBatch 0 ∨
        (run emptyBatches steps).point = .nextMessage 0 0) := by
    induction steps with
    | zero => exact ⟨rfl, Or.inl rfl⟩
    | succ steps ih =>
        rw [run, Function.iterate_succ_apply', ← run]
        generalize run emptyBatches steps = loop at ih
        obtain ⟨point, generated⟩ := loop
        obtain ⟨rfl, rfl | rfl⟩ := ih
        · exact ⟨rfl, Or.inr rfl⟩
        · exact ⟨rfl, Or.inl rfl⟩
  exact stays.1

theorem run_emptyBatches :
    (emptyBatches.numMessages = 1 ∧ emptyBatches.batchSize = 0) ∧
      ¬ (∃ steps, (run emptyBatches steps).point = .ended) ∧
      ¬ (∃ steps, (run emptyBatches steps).generated ≠ []) := by
  refine ⟨⟨rfl, rfl⟩, ?_, ?_⟩
  · rintro ⟨steps, ended⟩
    exact run_not_ended (by decide) steps ended
  · rintro ⟨steps, nonempty⟩
    exact nonempty (generated_emptyBatches steps)

end BatchLoop

/-! ## The loops within the pipeline -/

/-- Where the two loops are at a point of the sending loop.  A message that is
being sent has been generated. -/
def SendPoint.loopPoint : SendPoint → LoopPoint
  | .nextBatch i => .nextBatch i
  | .nextMessage i batchEnd => .nextMessage i batchEnd
  | .acquiring i batchEnd _ => .nextMessage (i + 1) batchEnd
  | .storing i batchEnd _ _ => .nextMessage (i + 1) batchEnd
  | .writing i batchEnd _ _ => .nextMessage (i + 1) batchEnd
  | .flushing i batchEnd _ _ => .nextMessage (i + 1) batchEnd
  | .draining i _ => .nextBatch i
  | .sleeping i => .nextBatch i
  | .waiting => .ended
  | .finished => .ended

namespace Pipeline

variable {config : PipelineConfig} {batches : BatchConfig}

/-- A step of the pipeline is a step of the two loops or happens beside
them. -/
theorem loopPoint_step (sameMessages : batches.numMessages =
      config.numMessages)
    (sameSize : batches.batchSize = config.batchSize)
    (fits : config.numMessages + config.batchSize ≤ 2 ^ 64)
    {before after : Pipeline} {event : Event}
    (stepTo : before.step config event = some after)
    (generated : List Nat) :
    after.sender.loopPoint = before.sender.loopPoint ∨
      after.sender.loopPoint =
        (BatchLoop.step batches
          ⟨before.sender.loopPoint, generated⟩).point := by
  cases move_of_step stepTo with
  | send sends =>
      cases sends with
      | turn _ next turn =>
          generalize before.sender = point at turn
          cases turn with
          | endSending i done =>
              right
              simp [SendPoint.loopPoint, BatchLoop.step, sameMessages,
                Nat.not_lt.mpr done]
          | beginMessage i batchEnd more =>
              right
              simp [SendPoint.loopPoint, BatchLoop.step, more]
          | endBatch i batchEnd done =>
              right
              simp [SendPoint.loopPoint, BatchLoop.step,
                Nat.not_lt.mpr done]
          | endMessage i batchEnd => exact Or.inl rfl
          | pause i batchEnd => exact Or.inl rfl
          | endDrain i batchEnd => exact Or.inl rfl
          | wake i => exact Or.inl rfl
          | stopWaiting => exact Or.inl rfl
          | keepWaiting => exact Or.inl rfl
      | beginBatch _ i isPoint more =>
          right
          rw [isPoint]
          simp only [SendPoint.loopPoint, BatchLoop.step, sameMessages,
            sameSize]
          rw [if_pos more, Nat.mod_eq_of_lt (by omega)]
      | acquire _ i batchEnd message rest isPoint =>
          exact Or.inl (by rw [isPoint]; rfl)
      | store _ i batchEnd message rest isPoint =>
          exact Or.inl (by rw [isPoint]; rfl)
      | write i batchEnd message rest isPoint =>
          exact Or.inl (by rw [isPoint]; rfl)
      | failWrite i batchEnd message rest isPoint =>
          exact Or.inl (by rw [isPoint]; rfl)
      | flush i batchEnd message rest isPoint =>
          exact Or.inl (by rw [isPoint]; rfl)
      | failFlush i batchEnd message rest isPoint =>
          exact Or.inl (by rw [isPoint]; rfl)
      | take _ result results next isFirst place =>
          rcases place with ⟨i, batchEnd, isPoint, rfl⟩ |
            ⟨isPoint, rfl | rfl⟩
          · exact Or.inl (by rw [isPoint])
          · exact Or.inl (by rw [isPoint])
          · exact Or.inl (by rw [isPoint]; rfl)
  | giveUp isWaiting => exact Or.inl (by rw [isWaiting]; rfl)
  | readLine => exact Or.inl rfl
  | remove => exact Or.inl rfl
  | release => exact Or.inl rfl
  | forward => exact Or.inl rfl
  | stop => exact Or.inl rfl
  | ack => exact Or.inl rfl
  | refuse => exact Or.inl rfl

/-- In every run of the pipeline the sending loop goes the way of the two
loops. -/
theorem exists_run_of_reachable (sameMessages : batches.numMessages =
      config.numMessages)
    (sameSize : batches.batchSize = config.batchSize)
    (fits : config.numMessages + config.batchSize ≤ 2 ^ 64)
    {pipeline : Pipeline}
    (reached : Reachable (step config) (new config) pipeline) :
    ∃ steps, (BatchLoop.run batches steps).point =
      pipeline.sender.loopPoint := by
  apply reached.invariant (fun pipeline =>
    ∃ steps, (BatchLoop.run batches steps).point =
      pipeline.sender.loopPoint) ⟨0, rfl⟩
  rintro before event after ⟨steps, isPoint⟩ - stepTo
  rcases loopPoint_step sameMessages sameSize fits stepTo
    (BatchLoop.run batches steps).generated with same | moved
  · exact ⟨steps, isPoint.trans same.symm⟩
  · refine ⟨steps + 1, ?_⟩
    rw [moved, ← isPoint, BatchLoop.run, Function.iterate_succ_apply']
    rfl

end Pipeline

end Sender

end CipherMQ
