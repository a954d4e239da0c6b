import CipherMQ.SenderPipeline

/-!
# The in-flight window

Every permit of the semaphore is either available, held by the sending loop,
or spent on a message that was written and whose acknowledgement has not been
read yet.  The account is balanced as long as no write fails: on a failed
write or flush the loop gives a permit back twice.  The reader gives permits
back for acknowledgements only, so the permits of refused messages stay
spent.
-/

namespace CipherMQ

namespace Sender

def IsMessageId (messageId : String) : Prop :=
  ∃ plain receiver, messageId = messageIdOf plain receiver

/-- The permit of a message that has not been written yet. -/
def SendPoint.held : SendPoint → Nat
  | .storing _ _ _ _ | .writing _ _ _ _ => 1
  | _ => 0

def SendPoint.messages : SendPoint → List EncryptedMessage
  | .acquiring _ _ rest => rest
  | .storing _ _ message rest | .writing _ _ message rest
  | .flushing _ _ message rest => message :: rest
  | _ => []

/-- The permit of an acknowledgement that has been read. -/
def ReadPoint.owes : ReadPoint → Nat
  | .removing _ | .releasing _ => 1
  | _ => 0

namespace Pipeline

def owed (lines : List String) : Nat :=
  (lines.map fun line => (classify line).owes).sum

/-! ## Reading replies -/

theorem visible_of_messageIdOf (plain : PlainMessage) (receiver : String) :
    Text.trimEnd (messageIdOf plain receiver).toList ≠ [] := by
  have dash : '-' ∈ (messageIdOf plain receiver).toList := by
    simp [messageIdOf]
  exact Text.trimEnd_ne_nil dash (by decide)

theorem owes_ack {messageId : String} (isId : IsMessageId messageId) :
    (classify (PublishReply.line messageId .ack)).owes = 1 := by
  obtain ⟨plain, receiver, rfl⟩ := isId
  have visible := visible_of_messageIdOf plain receiver
  generalize messageIdOf plain receiver = messageId at visible ⊢
  have characters : (PublishReply.line messageId .ack).toList =
      "ACK".toList ++ ' ' :: messageId.toList ++ ['\n'] := by
    have newline : "\n".toList = ['\n'] := by decide
    have label : "ACK ".toList = "ACK".toList ++ [' '] := by decide
    change ("ACK " ++ messageId ++ "\n").toList = _
    rw [String.toList_append, String.toList_append, newline, label]
    simp
  have nonempty : "ACK".toList ≠ [] := by decide
  have response := Text.trim_word_append nonempty
    (Text.visible_of_all (by decide)) messageId.toList
  rw [if_neg visible] at response
  unfold classify
  rw [characters, response]
  rfl

theorem owes_of_word (word : List Char) (nonempty : word ≠ [])
    (visible : ∀ character ∈ word, Text.isWhitespace character = false)
    (different : ∀ text, "ACK ".toList.isPrefixOf (word ++ text) = false)
    (text : List Char) {line : String}
    (characters : line.toList = word ++ ' ' :: text ++ ['\n']) :
    (classify line).owes = 0 := by
  have response := Text.trim_word_append nonempty visible text
  have noAck : "ACK ".toList.isPrefixOf (Text.trim line.toList) = false := by
    rw [characters, response]
    split
    · simpa using different []
    · exact different _
  unfold classify
  dsimp only
  rw [noAck]
  split
  · contradiction
  · split <;> rfl

theorem owes_refusal {reply : PublishReply} (isRefusal : reply ≠ .ack)
    (messageId : String) : (classify (reply.line messageId)).owes = 0 := by
  have newline : "\n".toList = ['\n'] := by decide
  cases reply with
  | ack => exact (isRefusal rfl).elim
  | rateLimited =>
      change (classify "Rate limited\n").owes = 0
      decide
  | error text =>
      apply owes_of_word "Error:".toList (by decide)
        (Text.visible_of_all (by decide)) (fun _ => rfl) text.toList
      have label : "Error: ".toList = "Error:".toList ++ [' '] := by decide
      change ("Error: " ++ text ++ "\n").toList = _
      rw [String.toList_append, String.toList_append, newline, label]
      simp
  | accessDenied reason =>
      apply owes_of_word "Access".toList (by decide)
        (Text.visible_of_all (by decide)) (fun _ => rfl)
        ("denied: ".toList ++ reason.toList)
      have label : "Access denied: ".toList =
          "Access".toList ++ ' ' :: "denied: ".toList := by decide
      change ("Access denied: " ++ reason ++ "\n").toList = _
      rw [String.toList_append, String.toList_append, newline, label]
      simp

/-! ## The account of permits -/

/-- The loop and the server only have messages with identifiers that the
sender made. -/
structure Named (pipeline : Pipeline) : Prop where
  inHand : ∀ message ∈ pipeline.sender.messages,
    IsMessageId message.messageId
  sent : ∀ messageId ∈ pipeline.unanswered, IsMessageId messageId

theorem Named.step {config : PipelineConfig} {before after : Pipeline}
    {event : Event} (named : before.Named)
    (stepTo : before.step config event = some after) : after.Named := by
  have keeps : ∀ {point : SendPoint}, before.sender = point →
      ∀ message ∈ point.messages, IsMessageId message.messageId := by
    rintro point rfl
    exact named.inHand
  cases move_of_step stepTo with
  | send sends =>
      cases sends with
      | turn succeeds next turn =>
          refine ⟨?_, named.sent⟩
          generalize before.sender = point at turn
          cases turn with
          | beginMessage i batchEnd => exact config.named i
          | _ => simp [SendPoint.messages]
      | beginBatch => exact ⟨by simp [SendPoint.messages], named.sent⟩
      | acquire succeeds i batchEnd message rest isPoint =>
          have inHand := keeps isPoint
          exact ⟨inHand, named.sent⟩
      | store succeeds i batchEnd message rest isPoint =>
          have inHand := keeps isPoint
          exact ⟨inHand, named.sent⟩
      | write i batchEnd message rest isPoint =>
          have inHand := keeps isPoint
          refine ⟨inHand, ?_⟩
          intro messageId member
          rcases List.mem_append.mp member with old | isNew
          · exact named.sent messageId old
          · rw [List.mem_singleton] at isNew
            subst isNew
            exact keeps isPoint message List.mem_cons_self
      | failWrite i batchEnd message rest isPoint =>
          exact ⟨fun other member => keeps isPoint other
            (List.mem_cons_of_mem _ member), named.sent⟩
      | flush i batchEnd message rest isPoint =>
          exact ⟨fun other member => keeps isPoint other
            (List.mem_cons_of_mem _ member), named.sent⟩
      | failFlush i batchEnd message rest isPoint =>
          exact ⟨fun other member => keeps isPoint other
            (List.mem_cons_of_mem _ member), named.sent⟩
      | take succeeds result results next held points =>
          refine ⟨?_, named.sent⟩
          rcases points with ⟨i, batchEnd, -, rfl⟩ | ⟨-, rfl | rfl⟩
          all_goals simp [SendPoint.messages]
  | giveUp isWaiting => exact ⟨by simp [SendPoint.messages], named.sent⟩
  | ack messageId unanswered isOldest =>
      refine ⟨named.inHand, fun other member => named.sent other ?_⟩
      rw [isOldest]
      exact List.mem_cons_of_mem _ member
  | refuse reply messageId unanswered isRefusal isOldest =>
      refine ⟨named.inHand, fun other member => named.sent other ?_⟩
      rw [isOldest]
      exact List.mem_cons_of_mem _ member
  | _ => exact ⟨named.inHand, named.sent⟩

/-- Where the permits are.  A write that fails gives back one permit too many;
a flush that fails gives back two, since the message may still be
acknowledged. -/
structure Balanced (config : PipelineConfig) (pipeline : Pipeline) :
    Prop where
  permits : pipeline.permits + pipeline.sender.held +
      pipeline.tally.written + owed pipeline.replies +
      pipeline.reader.owes =
    config.maxInflight + pipeline.tally.acked +
      pipeline.tally.failedWrites + 2 * pipeline.tally.failedFlushes
  answers : pipeline.tally.written =
    pipeline.unanswered.length + pipeline.tally.acked +
      pipeline.tally.refused

theorem owed_append (lines : List String) (line : String) :
    owed (lines ++ [line]) = owed lines + (classify line).owes := by
  simp [owed]

theorem owed_cons (line : String) (lines : List String) :
    owed (line :: lines) = (classify line).owes + owed lines := by
  simp [owed]

theorem Balanced.sends {config : PipelineConfig} {before after : Pipeline}
    {succeeds : Bool} (balanced : before.Balanced config)
    (sends : Sends config before succeeds after) :
    after.Balanced config := by
  obtain ⟨permits, answers⟩ := balanced
  cases sends with
  | turn _ next turn =>
      refine ⟨?_, answers⟩
      generalize before.sender = point at turn permits
      cases turn <;> exact permits
  | beginBatch _ i isPoint =>
      rw [isPoint] at permits
      exact ⟨permits, answers⟩
  | acquire _ i batchEnd message rest isPoint available =>
      rw [isPoint] at permits
      refine ⟨?_, answers⟩
      simp only [SendPoint.held] at permits ⊢
      omega
  | store _ i batchEnd message rest isPoint =>
      rw [isPoint] at permits
      exact ⟨permits, answers⟩
  | write i batchEnd message rest isPoint =>
      rw [isPoint] at permits
      simp only [SendPoint.held] at permits
      constructor
      · simp only [SendPoint.held]
        omega
      · simp only [List.length_append, List.length_singleton]
        omega
  | failWrite i batchEnd message rest isPoint =>
      rw [isPoint] at permits
      refine ⟨?_, answers⟩
      simp only [failMessage, SendPoint.held] at permits ⊢
      omega
  | flush i batchEnd message rest isPoint =>
      rw [isPoint] at permits
      exact ⟨permits, answers⟩
  | failFlush i batchEnd message rest isPoint =>
      rw [isPoint] at permits
      refine ⟨?_, answers⟩
      simp only [failMessage, SendPoint.held] at permits ⊢
      omega
  | take _ result results next held points =>
      refine ⟨?_, answers⟩
      rcases points with ⟨i, batchEnd, isPoint, rfl⟩ |
        ⟨isPoint, rfl | rfl⟩ <;>
      · rw [isPoint] at permits
        exact permits

theorem Balanced.step {config : PipelineConfig} {before after : Pipeline}
    {event : Event} (balanced : before.Balanced config)
    (named : before.Named)
    (stepTo : before.step config event = some after) :
    after.Balanced config := by
  obtain ⟨permits, answers⟩ := balanced
  cases move_of_step stepTo with
  | send sends => exact Balanced.sends ⟨permits, answers⟩ sends
  | giveUp isWaiting =>
      rw [isWaiting] at permits
      exact ⟨permits, answers⟩
  | readLine line replies isReading arrived =>
      rw [isReading, arrived, owed_cons] at permits
      refine ⟨?_, answers⟩
      simp only [ReadPoint.owes] at permits ⊢
      omega
  | remove messageId isRemoving =>
      rw [isRemoving] at permits
      exact ⟨permits, answers⟩
  | release messageId isReleasing =>
      rw [isReleasing] at permits
      refine ⟨?_, answers⟩
      simp only [ReadPoint.owes] at permits ⊢
      omega
  | forward result next origin hasRoom =>
      refine ⟨?_, answers⟩
      rcases origin with ⟨isForwarding, rfl⟩ | ⟨error, isReporting, -, rfl⟩
      · rw [isForwarding] at permits
        exact permits
      · rw [isReporting] at permits
        exact permits
  | stop event next isStop isReading =>
      refine ⟨?_, answers⟩
      rw [isReading] at permits
      rcases isStop with ⟨-, rfl⟩ | ⟨-, rfl⟩ | ⟨error, -, rfl⟩ <;>
        exact permits
  | ack messageId unanswered isOldest =>
      have isId : IsMessageId messageId := by
        apply named.sent
        rw [isOldest]
        exact List.mem_cons_self
      have owes := owes_ack isId
      rw [isOldest, List.length_cons] at answers
      constructor
      · simp only [owed_append, owes]
        omega
      · dsimp only
        omega
  | refuse reply messageId unanswered isRefusal isOldest =>
      have owes := owes_refusal isRefusal messageId
      rw [isOldest, List.length_cons] at answers
      constructor
      · simp only [owed_append, owes]
        omega
      · dsimp only
        omega

theorem balanced_of_reachable {config : PipelineConfig}
    {allowed : Pipeline → Event → Prop} {pipeline : Pipeline}
    (reached : ReachableWhile (step config) allowed (new config) pipeline) :
    pipeline.Named ∧ pipeline.Balanced config := by
  apply reached.invariant fun pipeline =>
    pipeline.Named ∧ pipeline.Balanced config
  · refine ⟨⟨?_, ?_⟩, ?_, ?_⟩ <;>
      simp [new, SendPoint.messages, SendPoint.held, ReadPoint.owes, owed]
  · rintro before event after ⟨named, balanced⟩ - stepTo
    exact ⟨named.step stepTo, balanced.step named stepTo⟩

/-! ## The window -/

/-- The messages written and not answered by an acknowledgement. -/
def inFlight (pipeline : Pipeline) : Nat :=
  pipeline.tally.written - pipeline.tally.acked

def writesNext (pipeline : Pipeline) : Bool :=
  match pipeline.sender with
  | .writing _ _ _ _ | .flushing _ _ _ _ => true
  | _ => false

def WritesSucceed (pipeline : Pipeline) (event : Event) : Prop :=
  event = .send false → pipeline.writesNext = false

instance (pipeline : Pipeline) (event : Event) :
    Decidable (WritesSucceed pipeline event) :=
  inferInstanceAs (Decidable (_ → _))

theorem noFailures_step {config : PipelineConfig} {before after : Pipeline}
    {event : Event} (succeeds : WritesSucceed before event)
    (stepTo : before.step config event = some after) :
    after.tally.failedWrites = before.tally.failedWrites ∧
      after.tally.failedFlushes = before.tally.failedFlushes := by
  cases move_of_step stepTo with
  | send sends =>
      cases sends with
      | failWrite i batchEnd message rest isPoint =>
          have never := succeeds rfl
          simp [writesNext, isPoint] at never
      | failFlush i batchEnd message rest isPoint =>
          have never := succeeds rfl
          simp [writesNext, isPoint] at never
      | _ => exact ⟨rfl, rfl⟩
  | _ => exact ⟨rfl, rfl⟩

/-- As long as no write or flush fails, at most `maxInflight` messages are in
flight, and there are permits for no more than the others. -/
theorem window_of_writesSucceed {config : PipelineConfig}
    {pipeline : Pipeline}
    (reached : ReachableWhile (step config) WritesSucceed (new config)
      pipeline) :
    pipeline.inFlight ≤ config.maxInflight ∧
      pipeline.permits + pipeline.inFlight ≤ config.maxInflight := by
  obtain ⟨-, permits, answers⟩ := balanced_of_reachable reached
  have noFailures : pipeline.tally.failedWrites = 0 ∧
      pipeline.tally.failedFlushes = 0 := by
    apply reached.invariant fun pipeline =>
      pipeline.tally.failedWrites = 0 ∧ pipeline.tally.failedFlushes = 0
    · exact ⟨rfl, rfl⟩
    · rintro before event after ⟨noWrites, noFlushes⟩ succeeds stepTo
      obtain ⟨sameWrites, sameFlushes⟩ := noFailures_step succeeds stepTo
      exact ⟨sameWrites.trans noWrites, sameFlushes.trans noFlushes⟩
  unfold inFlight
  omega

def sampleConfig (maxInflight batchSize numMessages : Nat)
    (positive : 0 < maxInflight) : PipelineConfig where
  maxInflight := maxInflight
  maxInflight_pos := positive
  batchSize := batchSize
  numMessages := numMessages
  encrypted index :=
    [⟨messageIdOf ⟨toString index, "sender_1", "Hello"⟩ "receiver_1",
      "receiver_1", "key", "nonce", "text", "t", "receiver_1_key"⟩]
  named := by
    intro index message member
    rw [List.mem_singleton] at member
    subst member
    exact ⟨_, _, rfl⟩

/-- A message is sent; `written` says whether the write succeeds. -/
def sendMessage (written : Bool) : List Event :=
  [.send true, .send true, .send true, .send written, .send true]

/-- The first message is in flight and the second waits for a permit. -/
theorem window_of_writesSucceed_full :
    ∃ pipeline,
      ReachableWhile (step (sampleConfig 1 2 2 (by decide))) WritesSucceed
        (new (sampleConfig 1 2 2 (by decide))) pipeline ∧
      pipeline.inFlight = 1 ∧ pipeline.permits = 0 ∧
      pipeline.permits + pipeline.inFlight ≤ 1 := by
  have ran : (executeWhile (step (sampleConfig 1 2 2 (by decide)))
      WritesSucceed (new (sampleConfig 1 2 2 (by decide)))
      ([.send true] ++ sendMessage true ++ [.send true, .send true])).map
        (fun pipeline => (pipeline.inFlight, pipeline.permits)) =
      some (1, 0) := by
    decide +kernel
  obtain ⟨pipeline, reached, seen⟩ := exists_reachableWhile_of_map ran
  obtain ⟨oneInFlight, noPermit⟩ := Prod.mk.inj seen
  exact ⟨pipeline, reached, oneInFlight, noPermit,
    (window_of_writesSucceed reached).2⟩

/-- After a failed write, two messages are in flight in a window of one. -/
theorem window_exceeded :
    ∃ pipeline,
      Reachable (step (sampleConfig 1 3 3 (by decide)))
        (new (sampleConfig 1 3 3 (by decide))) pipeline ∧
      pipeline.inFlight = 2 ∧ pipeline.tally.failedWrites = 1 := by
  have ran : (executeWhile (step (sampleConfig 1 3 3 (by decide)))
      (fun _ _ => True) (new (sampleConfig 1 3 3 (by decide)))
      ([.send true] ++ sendMessage false ++ sendMessage true ++
        [.send true] ++ sendMessage true)).map
        (fun pipeline =>
          (pipeline.inFlight, pipeline.tally.failedWrites)) =
      some (2, 1) := by
    decide +kernel
  obtain ⟨pipeline, reached, seen⟩ := exists_reachableWhile_of_map ran
  obtain ⟨twoInFlight, failed⟩ := Prod.mk.inj seen
  exact ⟨pipeline, reached, twoInFlight,
    failed⟩

/-! ## Permits that are lost -/

/-- The acknowledgements for which the reader has given no permit back. -/
def unread (pipeline : Pipeline) : Nat :=
  owed pipeline.replies + pipeline.reader.owes

/-- A reader that is at rest has read every acknowledgement, unless it has
stopped or the channel of the results is full. -/
theorem unread_of_atRest {config : PipelineConfig} {pipeline : Pipeline}
    (atRest : pipeline.readStep config = none) :
    pipeline.unread = 0 ∨ pipeline.reader = .stopped ∨
      config.maxInflight * 2 ≤ pipeline.results.length := by
  have full : ∀ result next, pipeline.forward config result next = none →
      config.maxInflight * 2 ≤ pipeline.results.length := by
    intro result next blocked
    unfold forward at blocked
    split at blocked
    · cases blocked
    · omega
  cases isPoint : pipeline.reader with
  | reading =>
      cases isEmpty : pipeline.replies with
      | nil => exact Or.inl (by rw [unread, isPoint, isEmpty]; rfl)
      | cons line replies => simp [readStep, isPoint, isEmpty] at atRest
  | removing messageId => simp [readStep, isPoint] at atRest
  | releasing messageId => simp [readStep, isPoint] at atRest
  | forwarding result =>
      simp only [readStep, isPoint] at atRest
      exact Or.inr (Or.inr (full _ _ atRest))
  | reporting error =>
      simp only [readStep, isPoint] at atRest
      exact Or.inr (Or.inr (full _ _ atRest))
  | stopped => exact Or.inr (Or.inl rfl)

/-- When everything is answered, all permits are available again exactly if no
more messages have been refused, or acknowledged to a reader that does not
read it, or are about to be written, than failed writes and flushes have given
permits back.  A reader that is at rest leaves an acknowledgement unread only
if it has stopped or cannot forward its results. -/
theorem permits_available_iff {config : PipelineConfig}
    {pipeline : Pipeline}
    (reached : Reachable (step config) (new config) pipeline)
    (answered : pipeline.unanswered = []) :
    (config.maxInflight ≤ pipeline.permits ↔
      pipeline.tally.refused + pipeline.unread + pipeline.sender.held ≤
        pipeline.tally.failedWrites + 2 * pipeline.tally.failedFlushes) ∧
    (pipeline.readStep config = none →
      pipeline.unread = 0 ∨ pipeline.reader = .stopped ∨
        config.maxInflight * 2 ≤ pipeline.results.length) := by
  refine ⟨?_, unread_of_atRest⟩
  obtain ⟨-, permits, answers⟩ := balanced_of_reachable reached
  rw [answered, List.length_nil] at answers
  unfold unread
  omega

/-- The permits, the messages refused, the acknowledgements unread and the
permits held, where everything is answered. -/
def summary (pipeline : Pipeline) : Option (Nat × Nat × Nat × Nat) :=
  if pipeline.unanswered = [] then
    some (pipeline.permits, pipeline.tally.refused, pipeline.unread,
      pipeline.sender.held)
  else
    none

theorem of_summary {pipeline : Pipeline} {permits refused unread held : Nat}
    (seen : pipeline.summary = some (permits, refused, unread, held)) :
    pipeline.unanswered = [] ∧ pipeline.permits = permits ∧
      pipeline.tally.refused = refused ∧ pipeline.unread = unread ∧
      pipeline.sender.held = held := by
  unfold summary at seen
  split at seen
  · rename_i answered
    simp only [Option.some.injEq, Prod.mk.injEq] at seen
    exact ⟨answered, seen⟩
  · cases seen

/-- The run of a single message, which is answered after what the reader does
before and read after it. -/
def answeredRun (earlier : List Event) (reply : PublishReply)
    (reads : Nat) : List Event :=
  [.send true] ++ sendMessage true ++ earlier ++ [.answer reply] ++
    List.replicate reads .read

/-- An acknowledged message gives its permit back. -/
theorem permits_available_acknowledged :
    ∃ pipeline,
      Reachable (step (sampleConfig 1 1 1 (by decide)))
        (new (sampleConfig 1 1 1 (by decide))) pipeline ∧
      pipeline.unanswered = [] ∧ pipeline.tally.written = 1 ∧
      1 ≤ pipeline.permits := by
  have ran : (executeWhile (step (sampleConfig 1 1 1 (by decide)))
      (fun _ _ => True) (new (sampleConfig 1 1 1 (by decide)))
      (answeredRun [] .ack 4)).map
        (fun pipeline => (pipeline.summary, pipeline.tally.written)) =
      some (some (1, 0, 0, 0), 1) := by
    decide +kernel
  obtain ⟨pipeline, reached, seen⟩ := exists_reachableWhile_of_map ran
  obtain ⟨summarised, written⟩ := Prod.mk.inj seen
  obtain ⟨answered, -, noneRefused, allRead, noneHeld⟩ := of_summary summarised
  have available := (permits_available_iff reached answered).1.mpr
    (by rw [noneRefused, allRead, noneHeld]; exact Nat.zero_le _)
  exact ⟨pipeline, reached, answered, written, available⟩

/-- The permit of a refused message is not given back, and neither is that of
a message whose acknowledgement comes when the reader has given up waiting:
the window of one is closed for good. -/
theorem permit_lost :
    (∃ pipeline,
      Reachable (step (sampleConfig 1 1 1 (by decide)))
        (new (sampleConfig 1 1 1 (by decide))) pipeline ∧
      pipeline.unanswered = [] ∧ pipeline.permits = 0 ∧
      pipeline.tally.refused = 1 ∧ pipeline.unread = 0 ∧
      pipeline.sender.held = 0) ∧
    ∃ pipeline,
      Reachable (step (sampleConfig 1 1 1 (by decide)))
        (new (sampleConfig 1 1 1 (by decide))) pipeline ∧
      pipeline.unanswered = [] ∧ pipeline.permits = 0 ∧
      pipeline.tally.refused = 0 ∧ pipeline.unread = 1 ∧
      pipeline.sender.held = 0 := by
  constructor
  · have ran : (executeWhile (step (sampleConfig 1 1 1 (by decide)))
        (fun _ _ => True) (new (sampleConfig 1 1 1 (by decide)))
        (answeredRun [] .rateLimited 2)).map summary =
        some (some (0, 1, 0, 0)) := by
      decide +kernel
    obtain ⟨pipeline, reached, seen⟩ := exists_reachableWhile_of_map ran
    exact ⟨pipeline, reached, of_summary seen⟩
  · have ran : (executeWhile (step (sampleConfig 1 1 1 (by decide)))
        (fun _ _ => True) (new (sampleConfig 1 1 1 (by decide)))
        (answeredRun [.readTimeout] .ack 0)).map summary =
        some (some (0, 0, 1, 0)) := by
      decide +kernel
    obtain ⟨pipeline, reached, seen⟩ := exists_reachableWhile_of_map ran
    exact ⟨pipeline, reached, of_summary seen⟩

end Pipeline

end Sender

end CipherMQ
