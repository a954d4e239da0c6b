import CipherMQ.ReceiverAcks

/-!
# Connections of the receiver

The main task connects again and again while the running flag is set.  The
flag is meant to be cleared by a signal or after the server has refused the
public key, but every receive loop that has begun clears it on its way out.
So a connection that drops while messages are being received ends the process
instead of leading to another connection.

The same accident keeps the receiver from processing a message twice: the set
of processed messages is made anew for every connection, and there is never a
second connection on which messages are received.

A journal keeps, beside the process, whether it was asked to stop and which
messages the receive loop has handed over, in order.
-/

namespace CipherMQ

namespace Receiver

/-- A receiver, whether it was asked to stop, and the messages it has sent to
the writer and to the acknowledging tasks. -/
structure Journal where
  receiver : Receiver
  stopAsked : Bool
  stored : List String
  acknowledged : List String
  deriving DecidableEq, Repr

namespace Journal

def new : Journal :=
  ⟨.new, false, [], []⟩

/-- The process is asked to stop by a signal, or by a server that refuses the
public key. -/
def asksToStop : Event → Bool
  | .interrupt => true
  | .main (.subscribe .refused) => true
  | _ => false

def storedBy (receiver : Receiver) : Event → List String
  | .main .store =>
      match receiver.main with
      | .storing messageId _ => [messageId]
      | _ => []
  | _ => []

def acknowledgedBy (receiver : Receiver) : Event → List String
  | .main .acknowledge =>
      match receiver.main with
      | .acknowledging messageId => [messageId]
      | _ => []
  | _ => []

def step (decoder : Decoder) (journal : Journal) (event : Event) :
    Option Journal :=
  (journal.receiver.step decoder event).map fun after =>
    { receiver := after
      stopAsked := journal.stopAsked || asksToStop event
      stored := journal.stored ++ storedBy journal.receiver event
      acknowledged :=
        journal.acknowledged ++ acknowledgedBy journal.receiver event }

variable {decoder : Decoder} {journal after : Journal} {event : Event}

/-! ## The running flag -/

theorem running_step {before after : Receiver} {event : Event}
    (stepTo : before.step decoder event = some after) :
    after.running =
      (before.running && !asksToStop event && event != .main .cleanUp) := by
  cases event with
  | main event =>
      cases turn_of_mainStep stepTo with
      | refused _ => simp [asksToStop]
      | cleanedUp _ => simp
      | _ => simp [asksToStop]
  | writer event =>
      rw [(writerMove_of_step stepTo).running]
      simp [asksToStop]
  | acks event =>
      obtain ⟨_, _, rfl⟩ := eq_of_ackStep stepTo
      simp [asksToStop]
  | interrupt =>
      cases stepTo
      simp [asksToStop]

theorem finished_step {before after : Receiver} {event : Event}
    (stepTo : before.step decoder event = some after)
    (finishes : after.main = .finished) :
    before.main = .finished ∨ before.running = false := by
  cases event with
  | main event =>
      cases turn_of_mainStep stepTo with
      | finish _ notRunning => exact .inr notRunning
      | _ => cases finishes
  | writer event =>
      rw [(writerMove_of_step stepTo).main] at finishes
      exact .inl finishes
  | acks event =>
      obtain ⟨_, _, rfl⟩ := eq_of_ackStep stepTo
      exact .inl finishes
  | interrupt =>
      cases stepTo
      exact .inl finishes

structure StopsOnlyAsked (journal : Journal) : Prop where
  flag : journal.receiver.running = false → journal.stopAsked = true
  finish : journal.receiver.main = .finished → journal.stopAsked = true

/-- A receive loop that has begun is left with the flag already cleared, and
not because a read has failed or the server has closed the connection. -/
def EndsAsked (journal : Journal) (event : Event) : Prop :=
  event = .main .cleanUp → journal.receiver.running = false

instance (journal : Journal) (event : Event) :
    Decidable (journal.EndsAsked event) :=
  inferInstanceAs (Decidable (_ → _))

def Obeys (journal : Journal) : Prop :=
  journal.stopAsked = true → journal.receiver.running = false

theorem obeys_step (obeys : journal.Obeys)
    (stepTo : journal.step decoder event = some after) : after.Obeys := by
  obtain ⟨receiver, stepped, rfl⟩ := Option.map_eq_some_iff.mp stepTo
  intro asked
  rw [running_step stepped]
  rcases Bool.or_eq_true_iff.mp asked with before | now
  · simp [obeys before]
  · simp [now]

/-- A step keeps to the rule exactly if it does not end a receive loop while
the flag is set. -/
theorem stopsOnlyAsked_step_iff (obeys : journal.Obeys)
    (stops : journal.StopsOnlyAsked)
    (stepTo : journal.step decoder event = some after) :
    after.StopsOnlyAsked ↔ journal.EndsAsked event := by
  obtain ⟨receiver, stepped, rfl⟩ := Option.map_eq_some_iff.mp stepTo
  have isRunning := running_step stepped
  constructor
  · rintro ⟨flag, -⟩ rfl
    by_contra stillRunning
    have notAsked : journal.stopAsked ≠ true :=
      fun asked => stillRunning (obeys asked)
    have cleared : receiver.running = false := by
      rw [isRunning]
      simp
    have asked := flag cleared
    rw [Bool.or_eq_true_iff] at asked
    rcases asked with before | now
    · exact notAsked before
    · cases now
  · intro ends
    have flagBefore : journal.receiver.running = false →
        (journal.stopAsked || asksToStop event) = true := by
      intro cleared
      rw [stops.flag cleared, Bool.true_or]
    constructor
    · intro cleared
      cases wasRunning : journal.receiver.running with
      | false => exact flagBefore wasRunning
      | true =>
          have notCleanUp : event ≠ .main .cleanUp := by
            intro isCleanUp
            rw [ends isCleanUp] at wasRunning
            cases wasRunning
          rw [isRunning, wasRunning] at cleared
          simp only [Bool.true_and, Bool.and_eq_false_iff,
            Bool.not_eq_false', bne_eq_false_iff_eq] at cleared
          rcases cleared with asks | isCleanUp
          · exact Bool.or_eq_true_iff.mpr (.inr asks)
          · exact absurd isCleanUp notCleanUp
    · intro finishes
      rcases finished_step stepped finishes with already | cleared
      · rw [stops.finish already, Bool.true_or]
      · exact flagBefore cleared

def subscribedRun : List Event :=
  [.main .testRunning, .main (.connect true),
    .main (.subscribe .subscribed), .main .testLoop]

end Journal

/-! ## Messages that are handed over -/

def MainPoint.toStore : MainPoint → List String
  | .storing messageId _ => [messageId]
  | _ => []

def MainPoint.toAcknowledge : MainPoint → List String
  | .storing messageId _ => [messageId]
  | .acknowledging messageId => [messageId]
  | _ => []

def MainPoint.inLoop : MainPoint → Bool
  | .testLoop => true
  | .reading => true
  | .storing _ _ => true
  | .acknowledging _ => true
  | .cleaning => true
  | _ => false

theorem notMem_of_decryptLine {decoder : Decoder} {processed : List String}
    {line : List Char} {messageId content : String}
    (decrypts : decryptLine decoder processed line =
      some (messageId, content)) : messageId ∉ processed := by
  unfold decryptLine at decrypts
  split at decrypts
  · cases decrypts
  · split at decrypts
    · cases decrypts
    · rename_i isFresh
      split at decrypts
      · cases decrypts
      · split at decrypts
        · cases decrypts
          exact isFresh
        · cases decrypts

theorem processed_writerStep {before after : Receiver} {event : WriterEvent}
    (stepTo : before.writerStep event = some after) :
    after.processed = before.processed := by
  unfold writerStep at stepTo
  split at stepTo
  · cases stepTo
    rfl
  · cases stepTo
    rfl
  · split at stepTo
    · cases stepTo
    · dsimp only at stepTo
      split at stepTo <;> cases stepTo <;> rfl
  · split at stepTo <;> cases stepTo
    rfl
  · cases stepTo
    rfl
  · cases stepTo
    rfl
  · cases stepTo

namespace Journal

/-- No message is handed over twice.  In a receive loop everything that was
handed over is among the processed messages; outside, nothing was handed over
yet or the process is about to finish. -/
structure HandsOverOnce (journal : Journal) : Prop where
  stored : (journal.stored ++ journal.receiver.main.toStore).Nodup
  acknowledged :
    (journal.acknowledged ++ journal.receiver.main.toAcknowledge).Nodup
  known : journal.receiver.main.inLoop = true →
    ∀ messageId, messageId ∈ journal.stored ++
        journal.receiver.main.toStore ∨
      messageId ∈ journal.acknowledged ++
        journal.receiver.main.toAcknowledge →
      messageId ∈ journal.receiver.processed
  outside : journal.receiver.main.inLoop = false →
    journal.stored = [] ∧ journal.acknowledged = [] ∨
      journal.receiver.running = false ∧
        (journal.receiver.main = .testRunning ∨
          journal.receiver.main = .finished)

namespace HandsOverOnce

variable {decoder : Decoder} {journal : Journal}
  (once : journal.HandsOverOnce)

include once

theorem nodup_stored : journal.stored.Nodup :=
  (List.nodup_append.mp once.stored).1

theorem nodup_acknowledged : journal.acknowledged.Nodup :=
  (List.nodup_append.mp once.acknowledged).1

theorem quiet {receiver : Receiver} {stopAsked : Bool}
    (noStore : receiver.main.toStore = [])
    (noAcknowledge : receiver.main.toAcknowledge = [])
    (known : receiver.main.inLoop = true → ∀ messageId,
      messageId ∈ journal.stored ∨ messageId ∈ journal.acknowledged →
        messageId ∈ receiver.processed)
    (outside : receiver.main.inLoop = false →
      journal.stored = [] ∧ journal.acknowledged = [] ∨
        receiver.running = false ∧
          (receiver.main = .testRunning ∨ receiver.main = .finished)) :
    HandsOverOnce ⟨receiver, stopAsked, journal.stored ++ [],
      journal.acknowledged ++ []⟩ := by
  constructor
  · simpa [noStore] using once.nodup_stored
  · simpa [noAcknowledge] using once.nodup_acknowledged
  · simpa [noStore, noAcknowledge] using known
  · simpa using outside

/-- Before the first message, and on a new connection, nothing was handed
over. -/
theorem nothing_of_point {point : MainPoint}
    (isMain : journal.receiver.main = point)
    (notInLoop : point.inLoop = false) (notTesting : point ≠ .testRunning)
    (notFinished : point ≠ .finished) :
    journal.stored = [] ∧ journal.acknowledged = [] := by
  have outside := once.outside (isMain ▸ notInLoop)
  rcases outside with nothing | ⟨-, isTesting | isFinished⟩
  · exact nothing
  · exact absurd (isMain ▸ isTesting) notTesting
  · exact absurd (isMain ▸ isFinished) notFinished

theorem processed_of_point {point : MainPoint}
    (isMain : journal.receiver.main = point) (inLoop : point.inLoop = true)
    {messageId : String}
    (handed : messageId ∈ journal.stored ∨
      messageId ∈ journal.acknowledged) :
    messageId ∈ journal.receiver.processed := by
  apply once.known (isMain ▸ inLoop)
  exact handed.imp (List.mem_append_left _) (List.mem_append_left _)

theorem decrypted {messageId content : String} {stopAsked : Bool}
    (isMain : journal.receiver.main = .reading)
    (isFresh : messageId ∉ journal.receiver.processed) :
    HandsOverOnce
      ⟨{ journal.receiver with
          main := .storing messageId content
          processed := messageId :: journal.receiver.processed },
        stopAsked, journal.stored ++ [], journal.acknowledged ++ []⟩ := by
  have processed : ∀ other, other ∈ journal.stored ∨
      other ∈ journal.acknowledged → other ∈ journal.receiver.processed :=
    fun _ => once.processed_of_point isMain rfl
  have notStored : messageId ∉ journal.stored :=
    fun stored => isFresh (processed messageId (.inl stored))
  have notAcknowledged : messageId ∉ journal.acknowledged :=
    fun acknowledged => isFresh (processed messageId (.inr acknowledged))
  constructor
  · simpa [MainPoint.toStore, List.nodup_append, notStored] using
      ⟨once.nodup_stored, fun other stored same =>
        notStored (same ▸ stored)⟩
  · simpa [MainPoint.toAcknowledge, List.nodup_append, notAcknowledged] using
      ⟨once.nodup_acknowledged, fun other acknowledged same =>
        notAcknowledged (same ▸ acknowledged)⟩
  · intro _ other handed
    simp only [MainPoint.toStore, MainPoint.toAcknowledge, List.append_nil,
      List.mem_append, List.mem_singleton] at handed
    rw [List.mem_cons]
    have := processed other
    tauto
  · intro notInLoop
    cases notInLoop

/-- The message in hand has gone to the writer, or was lost because the writer
has ended. -/
theorem store {receiver : Receiver} {messageId content : String}
    {stopAsked : Bool}
    (isMain : journal.receiver.main = .storing messageId content)
    (acknowledging : receiver.main = .acknowledging messageId)
    (processed : receiver.processed = journal.receiver.processed) :
    HandsOverOnce ⟨receiver, stopAsked, journal.stored ++ [messageId],
      journal.acknowledged ++ []⟩ := by
  have stored := once.stored
  have acknowledged := once.acknowledged
  have known := once.known (by rw [isMain]; rfl)
  simp only [isMain, MainPoint.toStore, MainPoint.toAcknowledge]
    at stored acknowledged known
  constructor
  · simpa [acknowledging, MainPoint.toStore] using stored
  · simpa [acknowledging, MainPoint.toAcknowledge] using acknowledged
  · intro _
    simpa [acknowledging, MainPoint.toStore, MainPoint.toAcknowledge,
      processed] using known
  · intro notInLoop
    rw [acknowledging] at notInLoop
    cases notInLoop

theorem acknowledge {receiver : Receiver} {messageId : String}
    {stopAsked : Bool}
    (isMain : journal.receiver.main = .acknowledging messageId)
    (goesOn : receiver.main = .testLoop)
    (processed : receiver.processed = journal.receiver.processed) :
    HandsOverOnce ⟨receiver, stopAsked, journal.stored ++ [],
      journal.acknowledged ++ [messageId]⟩ := by
  have stored := once.stored
  have acknowledged := once.acknowledged
  have known := once.known (by rw [isMain]; rfl)
  simp only [isMain, MainPoint.toStore, MainPoint.toAcknowledge]
    at stored acknowledged known
  constructor
  · simpa [goesOn, MainPoint.toStore] using stored
  · simpa [goesOn, MainPoint.toAcknowledge] using acknowledged
  · intro _
    simpa [goesOn, MainPoint.toStore, MainPoint.toAcknowledge,
      processed] using known
  · intro notInLoop
    rw [goesOn] at notInLoop
    cases notInLoop

theorem main_step {event : MainEvent} {receiver : Receiver}
    (stopAsked : Bool)
    (turn : Turn decoder journal.receiver event receiver) :
    HandsOverOnce ⟨receiver, stopAsked,
      journal.stored ++ storedBy journal.receiver (.main event),
      journal.acknowledged ++
        acknowledgedBy journal.receiver (.main event)⟩ := by
  cases turn with
  | connectAgain isMain isRunning =>
      refine once.quiet rfl rfl (by simp [MainPoint.inLoop]) fun _ => ?_
      have outside := once.outside (by rw [isMain]; rfl)
      rw [isRunning] at outside
      simpa using outside
  | finish isMain notRunning =>
      exact once.quiet rfl rfl (by simp [MainPoint.inLoop])
        fun _ => .inr ⟨notRunning, .inr rfl⟩
  | connected isMain | unconnected isMain | refused isMain
  | unsubscribed isMain =>
      have nothing := once.nothing_of_point isMain rfl (by simp) (by simp)
      exact once.quiet rfl rfl (by simp [MainPoint.inLoop])
        fun _ => .inl nothing
  | subscribed isMain =>
      have nothing := once.nothing_of_point isMain rfl (by simp) (by simp)
      exact once.quiet rfl rfl (by simp [nothing])
        fun notInLoop => by cases notInLoop
  | readOn isMain _ | stopReading isMain _ | timedOut isMain
  | failed isMain | closed isMain | skipped _ isMain _ =>
      exact once.quiet rfl rfl
        (fun _ _ => once.processed_of_point isMain rfl)
        fun notInLoop => by cases notInLoop
  | decrypted text messageId content isMain decrypts =>
      exact once.decrypted isMain (notMem_of_decryptLine decrypts)
  | unstored messageId content isMain _ =>
      simp only [storedBy, isMain]
      exact once.store isMain rfl rfl
  | stored messageId content isMain _ _ =>
      simp only [storedBy, isMain]
      exact once.store isMain rfl rfl
  | unacknowledged messageId isMain _ =>
      simp only [acknowledgedBy, isMain]
      exact once.acknowledge isMain rfl rfl
  | acknowledged messageId isMain _ _ =>
      simp only [acknowledgedBy, isMain]
      exact once.acknowledge isMain rfl rfl
  | cleanedUp isMain =>
      exact once.quiet rfl rfl (by simp [MainPoint.inLoop])
        fun _ => .inr ⟨rfl, .inl rfl⟩

theorem other_step {receiver : Receiver} (stopAsked : Bool)
    (main : receiver.main = journal.receiver.main)
    (processed : receiver.processed = journal.receiver.processed)
    (running : journal.receiver.running = false → receiver.running = false) :
    HandsOverOnce ⟨receiver, stopAsked, journal.stored ++ [],
      journal.acknowledged ++ []⟩ := by
  constructor
  · simpa [main] using once.stored
  · simpa [main] using once.acknowledged
  · simpa [main, processed] using once.known
  · intro notInLoop
    dsimp only at notInLoop ⊢
    rw [main] at notInLoop ⊢
    rw [List.append_nil, List.append_nil]
    exact (once.outside notInLoop).imp_right fun stopped =>
      ⟨running stopped.1, stopped.2⟩

theorem step {event : Event} {after : Journal}
    (stepTo : journal.step decoder event = some after) :
    after.HandsOverOnce := by
  obtain ⟨receiver, stepped, rfl⟩ := Option.map_eq_some_iff.mp stepTo
  cases event with
  | main event => exact once.main_step _ (turn_of_mainStep stepped)
  | writer event =>
      have move := writerMove_of_step stepped
      exact once.other_step _ move.main (processed_writerStep stepped)
        fun stopped => move.running.trans stopped
  | acks event =>
      obtain ⟨_, _, rfl⟩ := eq_of_ackStep stepped
      exact once.other_step _ rfl rfl id
  | interrupt =>
      cases stepped
      exact once.other_step _ rfl rfl fun _ => rfl

end HandsOverOnce

theorem handsOverOnce_new : new.HandsOverOnce := by
  refine ⟨List.nodup_nil, List.nodup_nil, ?_, ?_⟩
  · intro inLoop
    cases inLoop
  · intro _
    exact .inl ⟨rfl, rfl⟩

/-- What the writer holds and what is on an acknowledgement channel was sent
there by the receive loop, in this order. -/
structure Records (journal : Journal) : Prop where
  kept : (journal.receiver.kept.map Prod.fst).Sublist journal.stored
  acked : journal.receiver.acked.Sublist journal.acknowledged

theorem records_of_unchanged {journal : Journal} {event : Event}
    {receiver : Receiver} {stopAsked : Bool}
    (records : journal.Records)
    (kept : receiver.kept = journal.receiver.kept)
    (acked : receiver.acked = journal.receiver.acked) :
    Records ⟨receiver, stopAsked,
      journal.stored ++ storedBy journal.receiver event,
      journal.acknowledged ++ acknowledgedBy journal.receiver event⟩ := by
  constructor
  · rw [kept]
    exact records.kept.trans (List.sublist_append_left _ _)
  · rw [acked]
    exact records.acked.trans (List.sublist_append_left _ _)

theorem records_step {decoder : Decoder} {journal after : Journal}
    {event : Event} (records : journal.Records)
    (stepTo : journal.step decoder event = some after) :
    after.Records := by
  obtain ⟨receiver, stepped, rfl⟩ := Option.map_eq_some_iff.mp stepTo
  cases event with
  | main event =>
      cases turn_of_mainStep stepped with
      | stored messageId content isMain _ _ =>
          constructor
          · have keeps : ({ journal.receiver with
                  main := .acknowledging messageId
                  messages := journal.receiver.messages ++
                    [(messageId, content)] } : Receiver).kept =
                journal.receiver.kept ++ [(messageId, content)] := by
              simp [kept]
            simp only [keeps, List.map_append, storedBy, isMain]
            exact records.kept.append (List.Sublist.refl _)
          · exact records.acked.trans (List.sublist_append_left _ _)
      | acknowledged messageId isMain _ _ =>
          constructor
          · exact records.kept.trans (List.sublist_append_left _ _)
          · simp only [acknowledgedBy, isMain]
            exact records.acked.append (List.Sublist.refl _)
      | _ => exact records_of_unchanged records rfl rfl
  | writer event =>
      have move := writerMove_of_step stepped
      exact records_of_unchanged records move.kept
        move.acked
  | acks event =>
      obtain ⟨_, _, rfl⟩ := eq_of_ackStep stepped
      exact records_of_unchanged records rfl rfl
  | interrupt =>
      cases stepped
      exact records_of_unchanged records rfl rfl

/-- In every run of the process, over any connections and lines, no message is
sent to the writer twice and none is sent to an acknowledging task twice.  The
messages the writer holds and those on acknowledgement channels are among
them. -/
theorem handedOver_nodup {decoder : Decoder} {journal : Journal}
    (reached : Reachable (Journal.step decoder) new journal) :
    journal.stored.Nodup ∧ journal.acknowledged.Nodup ∧
      (journal.receiver.kept.map Prod.fst).Sublist journal.stored ∧
      journal.receiver.acked.Sublist journal.acknowledged := by
  have holds : journal.HandsOverOnce ∧ journal.Records := by
    refine reached.invariant
      (fun journal => journal.HandsOverOnce ∧ journal.Records) ?_ ?_
    · exact ⟨handsOverOnce_new, List.Sublist.refl _, List.Sublist.refl _⟩
    · rintro before event after ⟨once, records⟩ _ stepTo
      exact ⟨once.step stepTo, records_step records stepTo⟩
  exact ⟨holds.1.nodup_stored, holds.1.nodup_acknowledged,
    holds.2.kept, holds.2.acked⟩

/-- The server sends a message twice, and another one after it. -/
theorem handedOver_nodup_redelivered :
    ∃ journal, Reachable (Journal.step sampleDecoder) new journal ∧
      journal.stored = ["m1", "m2"] ∧ journal.acknowledged = ["m1"] ∧
      journal.stored.Nodup ∧ journal.acknowledged.Nodup := by
  have ran : (executeWhile (Journal.step sampleDecoder) (fun _ _ => True)
      new (subscribedRun ++
        [.main (.readLine (.line "Message: m1 secret".toList)),
          .main .store, .main .acknowledge, .main .testLoop,
          .main (.readLine (.line "Message: m1 again".toList)),
          .main .testLoop,
          .main (.readLine (.line "Message: m2 secret".toList)),
          .main .store])).map
        (fun journal => (journal.stored, journal.acknowledged)) =
      some (["m1", "m2"], ["m1"]) := by
    decide +kernel
  obtain ⟨journal, reached, account⟩ := exists_reachableWhile_of_map ran
  simp only [Prod.mk.injEq] at account
  have distinct := handedOver_nodup reached
  exact ⟨journal, reached, account.1, account.2, distinct.1, distinct.2.1⟩

end Journal

end Receiver

end CipherMQ
