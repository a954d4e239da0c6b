import CipherMQ.DeliverySteps
import CipherMQ.ReceiverIsolation

/-!
# Attempts to deliver a message

A handler tries up to three times to write a message and to flush it.  A write
that fails for the third time ends the connection, but a flush that fails for
the last time only ends the loop, and the status update behind the loop marks
the message as delivered although nothing was flushed.  And since a failed
flush leads back to the write, the client can be sent the line several times.

The log below notes for each connection what has been written of the message
it is delivering, and for each message marked as delivered whether a copy had
been flushed by then.
-/

namespace CipherMQ

/-- What a handler has written of the message it is delivering: the number of
complete copies, and whether one of them was flushed. -/
structure Attempts where
  copies : Nat
  flushed : Bool
  deriving DecidableEq, Repr

/-- A message that was marked as delivered, and whether the handler that
marked it had flushed a copy. -/
structure Marking where
  messageId : String
  flushed : Bool
  deriving DecidableEq, Repr

/-- The attempts of the last delivery on every connection, and the markings so
far. -/
structure DeliveryLog where
  attempts : Nat → Attempts
  markings : List Marking

namespace DeliveryLog

def new : DeliveryLog :=
  ⟨fun _ => ⟨0, false⟩, []⟩

def setAttempts (log : DeliveryLog) (index : Nat) (attempts : Attempts) :
    DeliveryLog :=
  { log with attempts := Function.update log.attempts index attempts }

@[simp]
theorem setAttempts_self (log : DeliveryLog) (index : Nat)
    (attempts : Attempts) :
    (log.setAttempts index attempts).attempts index = attempts := by
  simp [setAttempts]

@[simp]
theorem setAttempts_other {index other : Nat} (isOther : other ≠ index)
    (log : DeliveryLog) (attempts : Attempts) :
    (log.setAttempts index attempts).attempts other = log.attempts other := by
  simp [setAttempts, isOther]

@[simp]
theorem setAttempts_markings (log : DeliveryLog) (index : Nat)
    (attempts : Attempts) :
    (log.setAttempts index attempts).markings = log.markings :=
  rfl

def noteMark (server : Server) (index : Nat) (delivery : Delivery)
    (log : DeliveryLog) : DeliveryLog :=
  if server.broker.shared.isUndelivered delivery.messageId then
    { log with
      markings := log.markings ++
        [⟨delivery.messageId, (log.attempts index).flushed⟩] }
  else
    log

def noteDelivery (server : Server) (index : Nat) (outcome : Outcome)
    (delivery : Delivery) (log : DeliveryLog) : DeliveryPoint → DeliveryLog
  | .checkStatus => log
  | .checkDeliverable => log
  | .write _ =>
      if outcome.written then
        log.setAttempts index
          { log.attempts index with
            copies := (log.attempts index).copies + 1 }
      else
        log
  | .flush _ =>
      if outcome.flushed then
        log.setAttempts index { log.attempts index with flushed := true }
      else
        log
  | .markWritten => log.noteMark server index delivery
  | .markDelivered => log.noteMark server index delivery

/-- Note a step of the server.  The attempts begin anew when a message is
taken off the channel. -/
def note (server : Server) : Server.Event → DeliveryLog → DeliveryLog
  | .handler index .receive, log => log.setAttempts index ⟨0, false⟩
  | .handler index (.deliver outcome), log =>
      match (server.sessions[index]?).map Session.activity with
      | some (.delivering delivery point) =>
          log.noteDelivery server index outcome delivery point
      | _ => log
  | _, log => log

theorem note_of_other {event : Server.Event}
    (isOther : event.isDelivery = false) (server : Server)
    (log : DeliveryLog) : note server event log = log := by
  unfold note
  split
  · cases isOther
  · cases isOther
  · rfl

theorem note_deliver {server : Server} {index : Nat} {session : Session}
    {delivery : Delivery} {point : DeliveryPoint}
    (found : server.sessions[index]? = some session)
    (isDelivering : session.activity = .delivering delivery point)
    (outcome : Outcome) (log : DeliveryLog) :
    note server (.handler index (.deliver outcome)) log =
      log.noteDelivery server index outcome delivery point := by
  simp [note, found, isDelivering]

end DeliveryLog

namespace Server

abbrev DeliveryWatch := Recorded Server DeliveryLog

/-- Every message that has a delivery time or was reported as delivered has
been marked. -/
structure Marked (watch : DeliveryWatch) : Prop where
  timed : ∀ messageId, watch.state.broker.shared.IsTimed messageId →
    ∃ marking ∈ watch.ledger.markings, marking.messageId = messageId
  reported : ∀ messageId, watch.state.broker.shared.IsReported messageId →
    ∃ marking ∈ watch.ledger.markings, marking.messageId = messageId

/-- A message is marked as delivered, in its status and for the storage
worker, only by a handler that has written and flushed a copy of it, and no
handler writes the message it has taken off its channel twice. -/
structure DeliveredIsWritten (watch : DeliveryWatch) : Prop where
  marked : Marked watch
  flushed : ∀ marking ∈ watch.ledger.markings, marking.flushed = true
  copies : ∀ index, (watch.ledger.attempts index).copies ≤ 1

/-- A write succeeds only if the message has not been written yet, and the
update behind the loop finds the message flushed or already marked. -/
def WritesOnce (watch : DeliveryWatch) : Event → Prop
  | .handler index (.deliver outcome) =>
      match (watch.state.sessions[index]?).map Session.activity with
      | some (.delivering _ (.write _)) =>
          outcome.written = true → (watch.ledger.attempts index).copies = 0
      | some (.delivering delivery .markDelivered) =>
          watch.state.broker.shared.isUndelivered delivery.messageId = true →
            (watch.ledger.attempts index).flushed = true
      | _ => True
  | _ => True

instance (watch : DeliveryWatch) (event : Event) :
    Decidable (WritesOnce watch event) := by
  unfold WritesOnce
  split
  · split <;> infer_instance
  · infer_instance

theorem writesOnce_of_other {event : Event}
    (isOther : event.isDelivery = false) (watch : DeliveryWatch) :
    WritesOnce watch event := by
  unfold WritesOnce
  split
  · cases isOther
  · trivial

/-- What the log says about every run: the markings are complete, and the
update inside the loop follows a flush. -/
structure Logged (watch : DeliveryWatch) : Prop where
  marked : Marked watch
  written : ∀ (index : Nat) (session : Session) delivery,
    watch.state.sessions[index]? = some session →
      session.activity = .delivering delivery .markWritten →
        (watch.ledger.attempts index).flushed = true

/-! ## What a step adds to the log -/

theorem Marked.of_deliversNothing {before after : DeliveryWatch}
    (marked : Marked before)
    (nothing : before.state.broker.shared.DeliversNothing
      after.state.broker.shared)
    (markings : ∀ marking ∈ before.ledger.markings,
      marking ∈ after.ledger.markings) :
    Marked after := by
  constructor
  · intro messageId timed
    obtain ⟨marking, member, isThis⟩ :=
      marked.timed messageId (nothing.timed messageId timed)
    exact ⟨marking, markings marking member, isThis⟩
  · intro messageId reported
    obtain ⟨marking, member, isThis⟩ :=
      marked.reported messageId (nothing.reported messageId reported)
    exact ⟨marking, markings marking member, isThis⟩

/-- An update of a status that sets a delivery time is noted. -/
theorem Marked.of_markDelivered {before after : DeliveryWatch}
    {index : Nat} {delivery : Delivery} {now : Nat} {time : String}
    (marked : Marked before)
    (shared : after.state.broker.shared =
      before.state.broker.shared.markDelivered delivery.messageId now time)
    (ledger : after.ledger =
      before.ledger.noteMark before.state index delivery) :
    Marked after := by
  rcases ServerState.markDelivered_cases before.state.broker.shared
    delivery.messageId now time with ⟨known, same⟩ | ⟨isNew, timed, reported⟩
  · rw [same] at shared
    apply marked.of_deliversNothing
    · rw [shared]
      exact ServerState.deliversNothing_of_same rfl rfl
    · intro marking member
      simpa [ledger, DeliveryLog.noteMark, known] using member
  · have markings : after.ledger.markings = before.ledger.markings ++
        [⟨delivery.messageId,
          (before.ledger.attempts index).flushed⟩] := by
      simp [ledger, DeliveryLog.noteMark, isNew]
    rw [← shared] at timed reported
    constructor
    · intro messageId isTimed
      rw [markings]
      rcases timed messageId isTimed with rfl | wasTimed
      · exact ⟨_, List.mem_append_right _ (List.mem_singleton_self _), rfl⟩
      · obtain ⟨marking, member, isThis⟩ := marked.timed messageId wasTimed
        exact ⟨marking, List.mem_append_left _ member, isThis⟩
    · intro messageId isReported
      rw [markings]
      rcases reported messageId isReported with rfl | wasReported
      · exact ⟨_, List.mem_append_right _ (List.mem_singleton_self _), rfl⟩
      · obtain ⟨marking, member, isThis⟩ :=
          marked.reported messageId wasReported
        exact ⟨marking, List.mem_append_left _ member, isThis⟩

/-- A step of a delivery concerns the connection it is on.  It marks nothing
but at its two updates, and it reaches the update inside the loop only from a
flush that succeeds. -/
structure Delivers (server : Server) (index : Nat) (session : Session)
    (outcome : Outcome) (delivery : Delivery) (point : DeliveryPoint)
    (next : Session) (after : Server) : Prop where
  sessions : after.sessions = server.sessions.set index next
  shared : server.broker.shared.DeliversNothing after.broker.shared ∨
    (point = .markWritten ∨ point = .markDelivered) ∧
      after.broker.shared = server.broker.shared.markDelivered
        delivery.messageId outcome.now outcome.time
  flushed : ∀ other, next.activity = .delivering other .markWritten →
    (∃ retryCount, point = .flush retryCount) ∧ outcome.flushed = true

theorem delivers_deliver (server : Server) (index : Nat) (session : Session)
    (outcome : Outcome) (delivery : Delivery) (point : DeliveryPoint) :
    ∃ next, Delivers server index session outcome delivery point next
      (server.deliver index session outcome delivery point) := by
  have nothing := ServerState.deliversNothing_of_same (Eq.refl
    server.broker.shared.messageStatus) rfl
  cases point with
  | checkStatus =>
      refine ⟨_, rfl, .inl nothing, ?_⟩
      intro other isWritten
      dsimp only at isWritten
      split at isWritten <;> cases isWritten
  | checkDeliverable =>
      refine ⟨_, rfl, .inl nothing, ?_⟩
      intro other isWritten
      dsimp only at isWritten
      split at isWritten <;> cases isWritten
  | write retryCount =>
      simp only [deliver]
      split
      · exact ⟨_, rfl, .inl nothing, by simp⟩
      · split
        · exact ⟨_, rfl, .inl nothing, by simp⟩
        · exact ⟨_, rfl,
            .inl (ServerState.deliversNothing_of_same rfl rfl), by simp⟩
  | flush retryCount =>
      refine ⟨_, rfl, .inl nothing, ?_⟩
      intro other isWritten
      simp only [Activity.delivering.injEq] at isWritten
      refine ⟨⟨retryCount, rfl⟩, ?_⟩
      cases flushed : outcome.flushed with
      | true => rfl
      | false =>
          rw [flushed] at isWritten
          have isRetry := isWritten.2
          simp only [Bool.false_eq_true, if_false] at isRetry
          split at isRetry <;> cases isRetry
  | markWritten => exact ⟨_, rfl, .inr ⟨.inl rfl, rfl⟩, by simp⟩
  | markDelivered => exact ⟨_, rfl, .inr ⟨.inr rfl, rfl⟩, by simp⟩

/-- What a step of a delivery notes about other connections. -/
theorem noteDelivery_other {index other : Nat} (isOther : other ≠ index)
    (server : Server) (outcome : Outcome) (delivery : Delivery)
    (log : DeliveryLog) (point : DeliveryPoint) :
    (log.noteDelivery server index outcome delivery point).attempts other =
      log.attempts other := by
  have mark : (log.noteMark server index delivery).attempts other =
      log.attempts other := by
    unfold DeliveryLog.noteMark
    split <;> rfl
  cases point with
  | checkStatus => rfl
  | checkDeliverable => rfl
  | write retryCount =>
      simp only [DeliveryLog.noteDelivery]
      split
      · exact DeliveryLog.setAttempts_other isOther _ _
      · rfl
  | flush retryCount =>
      simp only [DeliveryLog.noteDelivery]
      split
      · exact DeliveryLog.setAttempts_other isOther _ _
      · rfl
  | markWritten => exact mark
  | markDelivered => exact mark

/-- No marking is taken back. -/
theorem noteDelivery_markings (server : Server) (index : Nat)
    (outcome : Outcome) (delivery : Delivery) (log : DeliveryLog)
    (point : DeliveryPoint) :
    ∀ marking ∈ log.markings, marking ∈
      (log.noteDelivery server index outcome delivery point).markings := by
  intro marking member
  have mark : marking ∈ (log.noteMark server index delivery).markings := by
    unfold DeliveryLog.noteMark
    split
    · exact List.mem_append_left _ member
    · exact member
  cases point with
  | checkStatus => exact member
  | checkDeliverable => exact member
  | write retryCount =>
      simp only [DeliveryLog.noteDelivery]
      split <;> exact member
  | flush retryCount =>
      simp only [DeliveryLog.noteDelivery]
      split <;> exact member
  | markWritten => exact mark
  | markDelivered => exact mark

/-! ## Whole runs -/

theorem Logged.of_still {before after : DeliveryWatch}
    (logged : Logged before) (still : Still before.state after.state)
    (noted : after.ledger = before.ledger) : Logged after := by
  constructor
  · apply logged.marked.of_deliversNothing still.delivers
    rw [noted]
    exact fun _ member => member
  · intro index session delivery found isWritten
    rw [noted]
    exact logged.written index session delivery
      (still.delivering index session delivery _ found isWritten) isWritten

theorem logged_step {config : ServerConfig} {before after : DeliveryWatch}
    {event : Event} (logged : Logged before)
    (stepTo : Recorded.step (step config) DeliveryLog.note before event =
      some after) :
    Logged after := by
  obtain ⟨stepped, noted⟩ := Recorded.step_cases stepTo
  cases deliveryMove_of_step stepped with
  | quiet isOther quiet =>
      rw [DeliveryLog.note_of_other isOther] at noted
      exact logged.of_still quiet.toStill noted
  | advance found running isAfter =>
      exact logged.of_still (still_of_advance isAfter) noted
  | @receive index session delivery _ found isWaiting isAfter =>
      rw [DeliveryLog.note] at noted
      constructor
      · apply logged.marked.of_deliversNothing
        · rw [isAfter]
          exact ServerState.deliversNothing_of_same rfl rfl
        · rw [noted]
          exact fun _ member => member
      · intro other otherSession otherDelivery otherFound isWritten
        rw [isAfter] at otherFound
        rcases getElem?_set_cases otherFound with ⟨-, rfl⟩ | ⟨isOther, same⟩
        · cases isWritten
        · rw [noted, DeliveryLog.setAttempts_other isOther]
          exact logged.written other otherSession otherDelivery same
            isWritten
  | @deliver index session outcome delivery point _ found isDelivering
      isAfter =>
      rw [DeliveryLog.note_deliver found isDelivering] at noted
      obtain ⟨next, delivers⟩ := delivers_deliver before.state index session
        outcome delivery point
      rw [← isAfter] at delivers
      constructor
      · rcases delivers.shared with nothing | ⟨isMark, shared⟩
        · apply logged.marked.of_deliversNothing nothing
          rw [noted]
          exact noteDelivery_markings _ _ _ _ _ _
        · apply logged.marked.of_markDelivered shared
          rcases isMark with rfl | rfl
          · exact noted
          · exact noted
      · intro other otherSession otherDelivery otherFound isWritten
        rw [delivers.sessions] at otherFound
        rcases getElem?_set_cases otherFound with ⟨rfl, rfl⟩ | ⟨isOther, same⟩
        · obtain ⟨⟨retryCount, rfl⟩, flushed⟩ :=
            delivers.flushed otherDelivery isWritten
          rw [noted]
          simp [DeliveryLog.noteDelivery, flushed]
        · rw [noted, noteDelivery_other isOther]
          exact logged.written other otherSession otherDelivery same
            isWritten

/-- A marking that is added decides whether all are flushed. -/
theorem flushed_noteMark_iff {log : DeliveryLog}
    (flushed : ∀ marking ∈ log.markings, marking.flushed = true)
    (server : Server) (index : Nat) (delivery : Delivery) :
    (∀ marking ∈ (log.noteMark server index delivery).markings,
        marking.flushed = true) ↔
      (server.broker.shared.isUndelivered delivery.messageId = true →
        (log.attempts index).flushed = true) := by
  unfold DeliveryLog.noteMark
  split
  · rename_i isNew
    simp only [List.mem_append, List.mem_singleton]
    constructor
    · intro all _
      exact all _ (.inr rfl)
    · rintro ofThis marking (old | rfl)
      · exact flushed marking old
      · exact ofThis isNew
  · rename_i known
    exact iff_of_true flushed fun isNew => absurd isNew known

theorem copies_noteMark (server : Server) (index : Nat)
    (delivery : Delivery) (log : DeliveryLog) :
    (log.noteMark server index delivery).attempts = log.attempts := by
  unfold DeliveryLog.noteMark
  split <;> rfl

/-- A step of a delivery keeps the log clean exactly if it writes once. -/
theorem noteDelivery_clean_iff {watch : DeliveryWatch} {index : Nat}
    {session : Session} {delivery : Delivery} {point : DeliveryPoint}
    (logged : Logged watch)
    (flushed : ∀ marking ∈ watch.ledger.markings, marking.flushed = true)
    (copies : ∀ other, (watch.ledger.attempts other).copies ≤ 1)
    (found : watch.state.sessions[index]? = some session)
    (isDelivering : session.activity = .delivering delivery point)
    (outcome : Outcome) :
    ((∀ marking ∈ (watch.ledger.noteDelivery watch.state index outcome
          delivery point).markings, marking.flushed = true) ∧
        ∀ other, ((watch.ledger.noteDelivery watch.state index outcome
          delivery point).attempts other).copies ≤ 1) ↔
      WritesOnce watch (.handler index (.deliver outcome)) := by
  cases point with
  | checkStatus =>
      refine iff_of_true ⟨flushed, copies⟩ ?_
      simp [WritesOnce, found, isDelivering]
  | checkDeliverable =>
      refine iff_of_true ⟨flushed, copies⟩ ?_
      simp [WritesOnce, found, isDelivering]
  | write retryCount =>
      have condition : WritesOnce watch (.handler index (.deliver outcome)) ↔
          (outcome.written = true →
            (watch.ledger.attempts index).copies = 0) := by
        simp [WritesOnce, found, isDelivering]
      rw [condition]
      cases written : outcome.written with
      | false =>
          simp only [DeliveryLog.noteDelivery, written]
          exact iff_of_true ⟨flushed, copies⟩ (by simp)
      | true =>
          simp only [DeliveryLog.noteDelivery, written, if_true,
            DeliveryLog.setAttempts_markings, true_imp_iff]
          constructor
          · rintro ⟨-, fewCopies⟩
            have here := fewCopies index
            rw [DeliveryLog.setAttempts_self] at here
            dsimp only at here
            omega
          · intro noCopy
            refine ⟨flushed, ?_⟩
            intro other
            by_cases isThis : other = index
            · rw [isThis, DeliveryLog.setAttempts_self, noCopy]
            · rw [DeliveryLog.setAttempts_other isThis]
              exact copies other
  | flush retryCount =>
      refine iff_of_true ?_ (by simp [WritesOnce, found, isDelivering])
      simp only [DeliveryLog.noteDelivery]
      split
      · refine ⟨flushed, ?_⟩
        intro other
        by_cases isThis : other = index
        · rw [isThis, DeliveryLog.setAttempts_self]
          exact copies index
        · rw [DeliveryLog.setAttempts_other isThis]
          exact copies other
      · exact ⟨flushed, copies⟩
  | markWritten =>
      -- The update inside the loop follows a flush.
      refine iff_of_true ⟨?_, ?_⟩ (by simp [WritesOnce, found, isDelivering])
      · apply (flushed_noteMark_iff flushed watch.state index delivery).mpr
        intro _
        exact logged.written index session delivery found isDelivering
      · intro other
        simp only [DeliveryLog.noteDelivery, copies_noteMark]
        exact copies other
  | markDelivered =>
      have condition : WritesOnce watch (.handler index (.deliver outcome)) ↔
          (watch.state.broker.shared.isUndelivered delivery.messageId =
              true →
            (watch.ledger.attempts index).flushed = true) := by
        simp [WritesOnce, found, isDelivering]
      rw [condition, ← flushed_noteMark_iff flushed watch.state index
        delivery]
      simp only [DeliveryLog.noteDelivery, copies_noteMark]
      exact and_iff_left copies

/-- A step keeps deliveries honest exactly if it writes once. -/
theorem deliveredIsWritten_step_iff {config : ServerConfig}
    {before after : DeliveryWatch} {event : Event} (logged : Logged before)
    (honest : DeliveredIsWritten before)
    (stepTo : Recorded.step (step config) DeliveryLog.note before event =
      some after) :
    DeliveredIsWritten after ↔ WritesOnce before event := by
  have marked := (logged_step logged stepTo).marked
  obtain ⟨stepped, noted⟩ := Recorded.step_cases stepTo
  cases deliveryMove_of_step stepped with
  | quiet isOther quiet =>
      rw [DeliveryLog.note_of_other isOther] at noted
      refine iff_of_true ⟨marked, ?_, ?_⟩ (writesOnce_of_other isOther before)
      · rw [noted]
        exact honest.flushed
      · rw [noted]
        exact honest.copies
  | advance found running isAfter =>
      rw [DeliveryLog.note_of_other rfl] at noted
      refine iff_of_true ⟨marked, ?_, ?_⟩ trivial
      · rw [noted]
        exact honest.flushed
      · rw [noted]
        exact honest.copies
  | @receive index session delivery _ found isWaiting isAfter =>
      rw [DeliveryLog.note] at noted
      refine iff_of_true ⟨marked, ?_, ?_⟩ trivial
      · rw [noted]
        exact honest.flushed
      · intro other
        rw [noted]
        by_cases isThis : other = index
        · rw [isThis, DeliveryLog.setAttempts_self]
          exact Nat.zero_le 1
        · rw [DeliveryLog.setAttempts_other isThis]
          exact honest.copies other
  | @deliver index session outcome delivery point _ found isDelivering
      isAfter =>
      rw [DeliveryLog.note_deliver found isDelivering] at noted
      have clean := noteDelivery_clean_iff logged honest.flushed
        honest.copies found isDelivering outcome
      rw [← noted] at clean
      rw [← clean]
      constructor
      · intro honestAfter
        exact ⟨honestAfter.flushed, honestAfter.copies⟩
      · rintro ⟨flushed, copies⟩
        exact ⟨marked, flushed, copies⟩

theorem marked_new (config : ServerConfig) :
    Marked ⟨new config, .new⟩ := by
  constructor
  · rintro messageId ⟨status, found, -⟩
    cases found
  · rintro messageId ⟨time, sent⟩
    cases sent

theorem logged_new (config : ServerConfig) :
    Logged ⟨new config, .new⟩ := by
  refine ⟨marked_new config, ?_⟩
  intro index session delivery found
  cases found

theorem deliveredIsWritten_new (config : ServerConfig) :
    DeliveredIsWritten ⟨new config, .new⟩ := by
  refine ⟨marked_new config, ?_, ?_⟩
  · intro marking member
    cases member
  · intro index
    exact Nat.zero_le 1

/-- While no handler writes a message again and none updates a status behind a
loop that has flushed nothing, the messages marked as delivered were written
and flushed, and none was written twice; the first other step breaks this. -/
theorem deliveredIsWritten_of_writesOnce {config : ServerConfig}
    {watch : DeliveryWatch}
    (reached : ReachableWhile (Recorded.step (step config) DeliveryLog.note)
      WritesOnce ⟨new config, .new⟩ watch) :
    DeliveredIsWritten watch ∧ ∀ event after,
      Recorded.step (step config) DeliveryLog.note watch event =
          some after →
        (DeliveredIsWritten after ↔ WritesOnce watch event) :=
  reached.exact_invariant Logged (deliveredIsWritten_new config)
    (logged_new config)
    (fun _ _ _ logged stepTo => logged_step logged stepTo)
    (fun _ _ _ logged honest stepTo =>
      deliveredIsWritten_step_iff logged honest stepTo)

def deliveringRun : List Event :=
  consumingRun "receiver_1" ++
    List.replicate 3 (.handler 1 (.deliver .smooth))

theorem deliveredIsWritten_deliveringRun :
    ∃ watch, ReachableWhile
        (Recorded.step (step sampleConfig) DeliveryLog.note) WritesOnce
        ⟨new sampleConfig, .new⟩ watch ∧
      watch.ledger.markings = [⟨"m1", true⟩] ∧
      watch.ledger.attempts 1 = ⟨1, true⟩ ∧
      DeliveredIsWritten watch := by
  have ran : (executeWhile
      (Recorded.step (step sampleConfig) DeliveryLog.note) WritesOnce
      ⟨new sampleConfig, .new⟩ deliveringRun).map
        (fun watch => (watch.ledger.markings, watch.ledger.attempts 1)) =
      some ([⟨"m1", true⟩], ⟨1, true⟩) := by
    decide +kernel
  obtain ⟨watch, reached, seen⟩ := exists_reachableWhile_of_map ran
  simp only [Prod.mk.injEq] at seen
  exact ⟨watch, reached, seen.1, seen.2,
    (deliveredIsWritten_of_writesOnce reached).1⟩

def unflushedRun : List Event :=
  let unflushed : Event :=
    .handler 1 (.deliver { Outcome.smooth with flushed := false })
  consumingRun "receiver_1" ++
    [unflushed, .handler 1 (.deliver .smooth),
      unflushed, .handler 1 (.deliver .smooth),
      unflushed, .handler 1 (.deliver .smooth)]

theorem not_deliveredIsWritten_unflushedRun :
    ∃ watch, Reachable
        (Recorded.step (step sampleConfig) DeliveryLog.note)
        ⟨new sampleConfig, .new⟩ watch ∧
      watch.state.broker.shared.IsTimed "m1" ∧
      watch.ledger.markings = [⟨"m1", false⟩] ∧
      watch.ledger.attempts 1 = ⟨3, false⟩ ∧
      ¬ DeliveredIsWritten watch := by
  have ran : (executeWhile
      (Recorded.step (step sampleConfig) DeliveryLog.note) (fun _ _ => True)
      ⟨new sampleConfig, .new⟩ unflushedRun).map
        (fun watch => (watch.state.broker.shared.messageStatus "m1",
          watch.ledger.markings, watch.ledger.attempts 1)) =
      some (some ⟨some 0, some 0, none⟩, [⟨"m1", false⟩], ⟨3, false⟩) := by
    decide +kernel
  obtain ⟨watch, reached, seen⟩ := exists_reachableWhile_of_map ran
  simp only [Prod.mk.injEq] at seen
  obtain ⟨status, markings, attempts⟩ := seen
  refine ⟨watch, reached, ⟨_, status, rfl⟩, markings, attempts, ?_⟩
  intro honest
  have flushed := honest.flushed ⟨"m1", false⟩ (by simp [markings])
  cases flushed

end Server

end CipherMQ
