import CipherMQ.StorageLoop
import CipherMQ.TransitionSystem

/-!
# Updates of times that are lost

Every update of a time that the worker takes off its channel should stay in
a buffer until a statement has written it.  The worker gives it up earlier in
four cases: when it cannot reconnect to the database, when the statement that
writes a buffer fails, since the buffer is emptied all the same, when the
statement of an update that is carried out at once fails, and when another
time for the same message takes its place.

A ledger keeps, beside the worker, the updates received so far and those that
a successful statement has written.  What an event does to the buffers is
one of five effects, and an update is lost at an effect exactly if the effect
discards it.
-/

namespace CipherMQ

namespace StorageWorker

structure TimeUpdate where
  column : TimeColumn
  messageId : String
  time : String
  deriving DecidableEq, Repr

/-! ## Effects on the buffers -/

/-- What an event means for the updates. -/
inductive Effect where
  | idle
  | drop (update : TimeUpdate)
  | buffer (update : TimeUpdate) (statement : Except String Unit)
  | write (update : TimeUpdate) (statement : Except String Unit)
  | flush (delivered acknowledged : Except String Unit)

def Command.effect (conditions : Conditions) : Command → Effect
  | .storage (.updateDeliveredTimeAsync messageId time) =>
      .buffer ⟨.delivered, messageId, time⟩ conditions.statement
  | .storage (.updateAcknowledgedTimeAsync messageId time) =>
      .buffer ⟨.acknowledged, messageId, time⟩ conditions.statement
  | .updateDeliveredTime messageId time =>
      .write ⟨.delivered, messageId, time⟩ conditions.statement
  | .updateAcknowledgedTime messageId time =>
      .write ⟨.acknowledged, messageId, time⟩ conditions.statement
  | .flushUpdates =>
      .flush conditions.statement conditions.acknowledged
  | .storage (.saveMetadata _) | .storage (.getClientIdForMessage _)
  | .storage (.savePublicKey _) | .storage (.getPublicKey _)
  | .loadUnacknowledgedMetadata => .idle

/-- The same command without a database. -/
def Effect.dropped : Effect → Effect
  | .buffer update _ | .write update _ | .drop update => .drop update
  | .flush _ _ | .idle => .idle

def Event.effect : Event → Effect
  | .receive command conditions =>
      if conditions.drops then (command.effect conditions).dropped
      else command.effect conditions
  | .tick delivered acknowledged => .flush delivered acknowledged

def Effect.received : Effect → List TimeUpdate
  | .drop update | .buffer update _ | .write update _ => [update]
  | .idle | .flush _ _ => []

/-- The worker after the effect, as far as its buffers are concerned. -/
def Effect.run (worker : StorageWorker) : Effect → StorageWorker
  | .idle | .drop _ => worker
  | .buffer update statement =>
      worker.updateTimeAsync update.column update.messageId update.time
        statement
  | .write update statement =>
      (updateTimeSync update.column worker update.messageId update.time
        statement).1
  | .flush delivered acknowledged => worker.tick delivered acknowledged

theorem work_cases {cipher : KeyCipher} {worker after : StorageWorker}
    {conditions : Conditions} {command : Command}
    {response : Option Response}
    (works : worker.work cipher conditions command = some (after, response)) :
    (command.effect conditions = .idle ∧
        ∀ column, after.updates column = worker.updates column) ∨
      after = (command.effect conditions).run worker := by
  cases command with
  | storage command =>
      obtain ⟨handled, handles, isAfter⟩ := Option.map_eq_some_iff.mp works
      obtain rfl : handled.1 = after := congrArg Prod.fst isAfter
      cases command with
      | saveMetadata metadata =>
          cases handles
          refine .inl ⟨rfl, fun column => ?_⟩
          dsimp only
          cases conditions.statement <;> cases column <;> rfl
      | updateDeliveredTimeAsync _ _ | updateAcknowledgedTimeAsync _ _
      | getClientIdForMessage _ =>
          cases handles
          exact .inr rfl
      | savePublicKey keyData =>
          obtain ⟨saved, saves, rfl⟩ := Option.map_eq_some_iff.mp handles
          obtain ⟨publicKeys, isSaved⟩ := worker.savePublicKey_eq saves
          refine .inl ⟨rfl, fun column => ?_⟩
          dsimp only
          rw [isSaved]
          cases column <;> rfl
      | getPublicKey clientId =>
          obtain ⟨found, -, rfl⟩ := Option.map_eq_some_iff.mp handles
          exact .inr rfl
  | updateDeliveredTime _ _ | updateAcknowledgedTime _ _
  | loadUnacknowledgedMetadata | flushUpdates =>
      cases works
      exact .inr rfl

/-- An event leaves the buffers alone, or the worker is as its effect says. -/
theorem serve_cases {cipher : KeyCipher} {worker after : StorageWorker}
    {event : Event} {response : Option Response}
    (serves : worker.serve cipher event = some (after, response)) :
    (event.effect = .idle ∧
        ∀ column, after.updates column = worker.updates column) ∨
      after = event.effect.run worker := by
  cases event with
  | tick delivered acknowledged =>
      cases serves
      exact .inr rfl
  | receive command conditions =>
      simp only [serve] at serves
      simp only [Event.effect]
      split at serves
      · rename_i drops
        cases serves
        rw [if_pos drops]
        right
        cases command.effect conditions <;> rfl
      · rename_i reaches
        rw [if_neg reaches]
        exact work_cases serves

/-! ## Updates that are buffered, written or discarded -/

def Buffered (worker : StorageWorker) (update : TimeUpdate) : Prop :=
  worker.pending update.column update.messageId = some update.time

instance (worker : StorageWorker) (update : TimeUpdate) :
    Decidable (worker.Buffered update) :=
  inferInstanceAs (Decidable (_ = _))

/-- The updates that a statement for the buffer of a column writes. -/
def written (worker : StorageWorker) (column : TimeColumn) :
    Except String Unit → List TimeUpdate
  | .ok () => (worker.updates column).rows.map fun entry =>
      ⟨column, entry.1, entry.2⟩
  | .error _ => []

theorem mem_written_iff (worker : StorageWorker) (column : TimeColumn)
    (statement : Except String Unit) (update : TimeUpdate) :
    update ∈ worker.written column statement ↔
      statement = .ok () ∧ update.column = column ∧
        worker.Buffered update := by
  cases statement with
  | error error => simp [written]
  | ok _ =>
      simp only [written, List.mem_map, Buffered, pending, bufferedTime,
        Option.map_eq_some_iff, true_and]
      constructor
      · rintro ⟨entry, member, rfl⟩
        exact ⟨rfl, entry, Table.lookup_key_of_mem member, rfl⟩
      · rintro ⟨rfl, entry, found, isTime⟩
        refine ⟨entry, Table.mem_of_lookup found, ?_⟩
        rw [Table.key_of_lookup found, isTime]

/-- The buffer of an update is full once the update is in it. -/
def Fills (worker : StorageWorker) (update : TimeUpdate) : Prop :=
  batchSize ≤ ((worker.buffer update.column update.messageId
    update.time).updates update.column).length

instance (worker : StorageWorker) (update : TimeUpdate) :
    Decidable (worker.Fills update) :=
  inferInstanceAs (Decidable (_ ≤ _))

/-- The updates that the statements of an effect write. -/
def Effect.applied (worker : StorageWorker) : Effect → List TimeUpdate
  | .idle | .drop _ => []
  | .buffer update statement =>
      if worker.Fills update then
        (worker.buffer update.column update.messageId update.time).written
          update.column statement
      else
        []
  | .write update statement =>
      match statement with
      | .ok () => [update]
      | .error _ => []
  | .flush delivered acknowledged =>
      worker.written .delivered delivered ++
        worker.written .acknowledged acknowledged

def TimeUpdate.Competes (update other : TimeUpdate) : Prop :=
  update.column = other.column ∧ update.messageId = other.messageId

/-- The effect gives an update up: there is no database, another time takes
its place in the buffer, or a statement that should write it fails. -/
def Effect.Discards (worker : StorageWorker) (update : TimeUpdate) :
    Effect → Prop
  | .idle => False
  | .drop dropped => update = dropped ∧ ¬ worker.Buffered update
  | .buffer buffered statement =>
      (worker.Buffered update ∧ update.Competes buffered ∧
          update ≠ buffered) ∨
        (worker.Fills buffered ∧ statement ≠ .ok () ∧
          update.column = buffered.column ∧
          (update = buffered ∨ worker.Buffered update))
  | .write attempted statement =>
      statement ≠ .ok () ∧ update = attempted ∧ ¬ worker.Buffered update
  | .flush delivered acknowledged =>
      worker.Buffered update ∧
        (match update.column with
          | .delivered => delivered
          | .acknowledged => acknowledged) ≠ .ok ()

section Effects

variable {worker : StorageWorker} {update : TimeUpdate}

theorem buffered_buffer_iff (buffered : TimeUpdate) :
    (worker.buffer buffered.column buffered.messageId
        buffered.time).Buffered update ↔
      update = buffered ∨
        worker.Buffered update ∧ ¬ update.Competes buffered := by
  unfold Buffered TimeUpdate.Competes
  rw [pending_buffer]
  obtain ⟨column, messageId, time⟩ := update
  obtain ⟨otherColumn, otherId, otherTime⟩ := buffered
  by_cases competes : column = otherColumn ∧ messageId = otherId
  · simp [competes, eq_comm]
  · simp only [competes, if_false, not_false_eq_true, and_true,
      TimeUpdate.mk.injEq]
    constructor
    · exact Or.inr
    · rintro (⟨sameColumn, sameId, -⟩ | isPending)
      · exact absurd ⟨sameColumn, sameId⟩ competes
      · exact isPending

theorem buffered_flush_iff (column : TimeColumn)
    (statement : Except String Unit) :
    (worker.flush column statement).Buffered update ↔
      update.column ≠ column ∧ worker.Buffered update := by
  unfold Buffered
  rw [pending_flush]
  by_cases same : update.column = column
  · simp [same]
  · simp [same]

theorem present_of_discards {effect : Effect}
    (discards : effect.Discards worker update) :
    worker.Buffered update ∨ update ∈ effect.received := by
  cases effect with
  | idle => exact discards.elim
  | drop dropped => exact .inr (List.mem_singleton.mpr discards.1)
  | buffer buffered statement =>
      rcases discards with ⟨isBuffered, -⟩ | ⟨-, -, -, same | isBuffered⟩
      · exact .inl isBuffered
      · exact .inr (List.mem_singleton.mpr same)
      · exact .inl isBuffered
  | write attempted statement =>
      exact .inr (List.mem_singleton.mpr discards.2.1)
  | flush delivered acknowledged => exact .inl discards.1

theorem lost_buffer_iff {buffered : TimeUpdate}
    (statement : Except String Unit)
    (present : worker.Buffered update ∨ update = buffered) :
    ¬ ((Effect.buffer buffered statement).run worker).Buffered update ∧
        update ∉ (Effect.buffer buffered statement).applied worker ↔
      (Effect.buffer buffered statement).Discards worker update := by
  have sameColumn : update = buffered → update.column = buffered.column :=
    congrArg TimeUpdate.column
  have competitor : update.Competes buffered →
      update.column = buffered.column :=
    And.left
  simp only [Effect.run, Effect.applied, Effect.Discards,
    updateTimeAsync_eq]
  by_cases fills : worker.Fills buffered
  · rw [if_pos fills, if_pos (show _ ≤ _ from fills), buffered_flush_iff,
      buffered_buffer_iff]
    simp only [mem_written_iff, buffered_buffer_iff, fills, true_and]
    tauto
  · rw [if_neg fills, if_neg (show ¬ _ ≤ _ from fills), buffered_buffer_iff]
    simp only [List.not_mem_nil, not_false_eq_true, and_true, fills,
      false_and, or_false]
    tauto

/-- An update that is there before an effect, or arrives with it, is neither
buffered afterwards nor written by it exactly if the effect discards it. -/
theorem lost_iff_discards {effect : Effect}
    (present : worker.Buffered update ∨ update ∈ effect.received) :
    ¬ (effect.run worker).Buffered update ∧
        update ∉ effect.applied worker ↔
      effect.Discards worker update := by
  cases effect with
  | idle =>
      simp only [Effect.received, List.not_mem_nil, or_false] at present
      simp [Effect.run, Effect.Discards, present]
  | drop dropped =>
      simp only [Effect.received, List.mem_singleton] at present
      simp only [Effect.run, Effect.applied, Effect.Discards,
        List.not_mem_nil, not_false_eq_true, and_true]
      tauto
  | buffer buffered statement =>
      simp only [Effect.received, List.mem_singleton] at present
      exact lost_buffer_iff statement present
  | write attempted statement =>
      simp only [Effect.received, List.mem_singleton] at present
      simp only [Effect.run, Effect.Discards, Effect.applied]
      rw [Buffered, pending_updateTimeSync]
      change ¬ worker.Buffered update ∧ _ ↔ _
      cases statement with
      | ok _ =>
          simp only [List.mem_singleton, ne_eq, not_true_eq_false,
            false_and, iff_false]
          tauto
      | error error =>
          simp only [List.not_mem_nil, not_false_eq_true, and_true, ne_eq,
            reduceCtorEq, true_and]
          tauto
  | flush delivered acknowledged =>
      simp only [Effect.received, List.not_mem_nil, or_false] at present
      have emptied : ¬ (worker.tick delivered acknowledged).Buffered
          update := by
        rw [tick_eq, buffered_flush_iff, buffered_flush_iff]
        cases update.column <;> simp
      simp only [Effect.run, Effect.applied, Effect.Discards, emptied,
        present, mem_written_iff, List.mem_append, not_false_eq_true,
        true_and, and_true]
      cases update.column <;> simp

theorem present_of_buffered_run {effect : Effect}
    (isBuffered : (effect.run worker).Buffered update) :
    worker.Buffered update ∨ update ∈ effect.received := by
  cases effect with
  | idle | drop _ => exact .inl isBuffered
  | buffer buffered statement =>
      have inBuffer : (worker.buffer buffered.column buffered.messageId
          buffered.time).Buffered update := by
        simp only [Effect.run, updateTimeAsync_eq] at isBuffered
        split at isBuffered
        · exact ((buffered_flush_iff _ _).mp isBuffered).2
        · exact isBuffered
      rcases (buffered_buffer_iff buffered).mp inBuffer with same | earlier
      · exact .inr (List.mem_singleton.mpr same)
      · exact .inl earlier.1
  | write attempted statement =>
      left
      rw [Effect.run, Buffered, pending_updateTimeSync] at isBuffered
      exact isBuffered
  | flush delivered acknowledged =>
      rw [Effect.run, tick_eq, buffered_flush_iff,
        buffered_flush_iff] at isBuffered
      exact .inl isBuffered.2.2

theorem buffered_serve_iff {cipher : KeyCipher} {after : StorageWorker}
    {event : Event} {response : Option Response}
    (serves : worker.serve cipher event = some (after, response)) :
    after.Buffered update ↔ (event.effect.run worker).Buffered update := by
  rcases serve_cases serves with ⟨isIdle, unchanged⟩ | isRun
  · unfold Buffered pending
    rw [unchanged, isIdle]
    rfl
  · rw [isRun]

/-! ## What a statement has written -/

/-- The row of a message, if there is one, has a time. -/
def Filled (worker : StorageWorker) (update : TimeUpdate) : Prop :=
  ∀ row, worker.messageMetadata.lookup update.messageId = some row →
    (row.time update.column).isSome

theorem filled_flush (filled : worker.Filled update) (column : TimeColumn)
    (statement : Except String Unit) :
    (worker.flush column statement).Filled update := by
  intro row found
  cases statement with
  | error error =>
      rw [messageMetadata_flush_error] at found
      exact filled row found
  | ok _ =>
      rw [lookup_flush] at found
      obtain ⟨before, foundBefore, rfl⟩ := Option.map_eq_some_iff.mp found
      have already := filled before foundBefore
      rw [MessageMetadata.time_fill]
      split
      · rw [Option.isSome_or, already]
        rfl
      · exact already

theorem filled_flush_of_buffered (isBuffered : worker.Buffered update) :
    (worker.flush update.column (.ok ())).Filled update := by
  intro row found
  rw [lookup_flush, isBuffered] at found
  obtain ⟨before, -, rfl⟩ := Option.map_eq_some_iff.mp found
  rw [MessageMetadata.time_fill, if_pos rfl, Option.isSome_or]
  exact Bool.or_true _

theorem filled_updateTimeSync :
    (updateTimeSync update.column worker update.messageId update.time
      (.ok ())).1.Filled update := by
  intro row found
  rw [lookup_updateTimeSync, if_pos rfl] at found
  obtain ⟨before, -, rfl⟩ := Option.map_eq_some_iff.mp found
  rw [MessageMetadata.time_fill, if_pos rfl, Option.isSome_or]
  exact Bool.or_true _

/-- An update that counts as written has filled in the time of its message. -/
theorem filled_of_applied {cipher : KeyCipher} {after : StorageWorker}
    {event : Event} {response : Option Response}
    (serves : worker.serve cipher event = some (after, response))
    (isApplied : update ∈ event.effect.applied worker) :
    after.Filled update := by
  rcases serve_cases serves with ⟨isIdle, -⟩ | isRun
  · rw [isIdle] at isApplied
    cases isApplied
  · rw [isRun]
    cases isEffect : event.effect with
    | idle | drop dropped =>
        rw [isEffect] at isApplied
        cases isApplied
    | buffer buffered statement =>
        simp only [isEffect, Effect.applied] at isApplied
        split at isApplied
        · rename_i fills
          obtain ⟨rfl, sameColumn, inBuffer⟩ :=
            (mem_written_iff _ _ _ _).mp isApplied
          simp only [Effect.run, updateTimeAsync_eq]
          rw [if_pos (show _ ≤ _ from fills), ← sameColumn]
          rw [← sameColumn] at inBuffer
          exact filled_flush_of_buffered inBuffer
        · cases isApplied
    | write attempted statement =>
        simp only [isEffect, Effect.applied] at isApplied
        split at isApplied
        · rw [List.mem_singleton] at isApplied
          subst isApplied
          exact filled_updateTimeSync
        · cases isApplied
    | flush delivered acknowledged =>
        simp only [isEffect, Effect.applied, List.mem_append,
          mem_written_iff] at isApplied
        simp only [Effect.run, tick_eq]
        rcases isApplied with ⟨rfl, isColumn, inBuffer⟩ |
          ⟨rfl, isColumn, inBuffer⟩
        · apply filled_flush
          rw [← isColumn]
          exact filled_flush_of_buffered inBuffer
        · rw [← isColumn]
          apply filled_flush_of_buffered
          rw [buffered_flush_iff]
          exact ⟨by simp [isColumn], inBuffer⟩

end Effects

/-! ## The ledger -/

/-- The worker with the updates it has received and those that were written. -/
structure Ledger where
  worker : StorageWorker
  received : List TimeUpdate
  applied : List TimeUpdate

namespace Ledger

def new (messageMetadata : Table MessageMetadata.messageId)
    (publicKeys : Table PublicKeyRow.clientId) : Ledger :=
  ⟨.new messageMetadata publicKeys, [], []⟩

def step (cipher : KeyCipher) (ledger : Ledger) (event : Event) :
    Option Ledger :=
  (ledger.worker.serve cipher event).map fun served =>
    ⟨served.1, ledger.received ++ event.effect.received,
      ledger.applied ++ event.effect.applied ledger.worker⟩

def NoneLost (ledger : Ledger) : Prop :=
  ∀ update ∈ ledger.received,
    ledger.worker.Buffered update ∨ update ∈ ledger.applied

def BuffersReceived (ledger : Ledger) : Prop :=
  ∀ update, ledger.worker.Buffered update → update ∈ ledger.received

/-- An event gives no update up that has not been written before. -/
def Retains (ledger : Ledger) (event : Event) : Prop :=
  ∀ update, event.effect.Discards ledger.worker update →
    update ∈ ledger.applied

variable {cipher : KeyCipher} {ledger after : Ledger} {event : Event}

theorem step_cases (steps : ledger.step cipher event = some after) :
    (∀ update, after.worker.Buffered update ↔
        (event.effect.run ledger.worker).Buffered update) ∧
      after.received = ledger.received ++ event.effect.received ∧
      after.applied =
        ledger.applied ++ event.effect.applied ledger.worker := by
  obtain ⟨⟨worker, response⟩, serves, rfl⟩ := Option.map_eq_some_iff.mp steps
  exact ⟨fun _ => buffered_serve_iff serves, rfl, rfl⟩

theorem buffersReceived_step (known : ledger.BuffersReceived)
    (steps : ledger.step cipher event = some after) :
    after.BuffersReceived := by
  intro update isBuffered
  obtain ⟨buffers, isReceived, -⟩ := step_cases steps
  rw [isReceived, List.mem_append]
  rcases present_of_buffered_run ((buffers update).mp isBuffered) with
    earlier | arrived
  · exact .inl (known update earlier)
  · exact .inr arrived

/-- A round loses nothing exactly if it retains what has not been written. -/
theorem noneLost_step_iff (known : ledger.BuffersReceived)
    (noneLost : ledger.NoneLost)
    (steps : ledger.step cipher event = some after) :
    after.NoneLost ↔ ledger.Retains event := by
  obtain ⟨buffers, isReceived, isApplied⟩ := step_cases steps
  constructor
  · intro kept update discards
    have present := present_of_discards discards
    obtain ⟨notBuffered, notWritten⟩ :=
      (lost_iff_discards present).mpr discards
    have member : update ∈ after.received := by
      rw [isReceived, List.mem_append]
      exact present.imp_left (known update)
    rcases kept update member with isBuffered | written
    · exact absurd ((buffers update).mp isBuffered) notBuffered
    · rw [isApplied, List.mem_append] at written
      exact written.resolve_right notWritten
  · intro retains update member
    rw [isApplied, List.mem_append, buffers]
    by_cases written : update ∈ ledger.applied
    · exact .inr (.inl written)
    · have present : ledger.worker.Buffered update ∨
          update ∈ event.effect.received := by
        rw [isReceived, List.mem_append] at member
        exact member.imp_left fun earlier =>
          (noneLost update earlier).resolve_right written
      by_contra lost
      apply written
      apply retains
      rw [← lost_iff_discards present]
      tauto

/-- As long as the rounds retain what has not been written no update is lost,
and the first round that does not retain it loses one. -/
theorem noneLost_of_retains
    (messageMetadata : Table MessageMetadata.messageId)
    (publicKeys : Table PublicKeyRow.clientId)
    (reached : ReachableWhile (step cipher) Retains
      (new messageMetadata publicKeys) ledger) :
    ledger.NoneLost ∧ ∀ event after,
      ledger.step cipher event = some after →
        (after.NoneLost ↔ ledger.Retains event) := by
  have starts : (new messageMetadata publicKeys).NoneLost := by
    intro update member
    cases member
  have buffersNothing : (new messageMetadata publicKeys).BuffersReceived := by
    rintro ⟨column, messageId, time⟩ isBuffered
    cases column <;> cases isBuffered
  exact reached.exact_invariant BuffersReceived starts buffersNothing
    (fun _ _ _ known stepTo => buffersReceived_step known stepTo)
    (fun _ _ _ known noneLost stepTo =>
      noneLost_step_iff known noneLost stepTo)

def taggingCipher : KeyCipher where
  encrypt _ plain := .ok (plain ++ List.replicate 16 0)
  decrypt _ encrypted := .ok (encrypted.take (encrypted.length - 16))
  decodeError _ := "Invalid padding"

def firstDelivery : TimeUpdate :=
  ⟨.delivered, "m", "10:01"⟩

def firstReport : Event :=
  .receive (.storage (.updateDeliveredTimeAsync "m" "10:01"))
    ⟨false, false, [], .ok (), .ok ()⟩

/-- The same update is to be written at once, and the statement fails. -/
def failedWrite : Event :=
  .receive (.updateDeliveredTime "m" "10:01")
    ⟨false, false, [], .error "connection closed", .ok ()⟩

theorem retains_firstReport :
    (new .empty .empty).Retains firstReport := by
  rintro ⟨column, messageId, time⟩ (⟨isBuffered, -⟩ | ⟨fills, -⟩)
  · cases column <;> cases isBuffered
  · exact absurd fills (by decide)

theorem retains_failedWrite
    (isBuffered : ledger.worker.Buffered firstDelivery) :
    ledger.Retains failedWrite := by
  rintro update ⟨-, rfl, unbuffered⟩
  exact absurd isBuffered unbuffered

theorem retains_tick (ledger : Ledger) :
    ledger.Retains (.tick (.ok ()) (.ok ())) := by
  rintro ⟨column, messageId, time⟩ ⟨-, failed⟩
  cases column <;> exact absurd rfl failed

/-- The update is buffered, a statement fails that discards nothing, and a
flush writes the update. -/
theorem noneLost_firstReport :
    ∃ ledger, ReachableWhile (step taggingCipher) Retains
        (new .empty .empty) ledger ∧
      ledger.received = [firstDelivery, firstDelivery] ∧
      ledger.applied = [firstDelivery] ∧
      ¬ ledger.worker.Buffered firstDelivery ∧ ledger.NoneLost :=
  have buffered := ReachableWhile.single firstReport retains_firstReport rfl
  have failed := buffered.next failedWrite
    (retains_failedWrite (by decide)) rfl
  have flushed := failed.next _ (retains_tick _) rfl
  ⟨_, flushed, rfl, rfl, by decide,
    (noneLost_of_retains .empty .empty flushed).1⟩

/-- The statement of the next flush fails, and the delivery is gone. -/
theorem lost_failedFlush :
    ∃ ledger, Reachable (step taggingCipher) (new .empty .empty) ledger ∧
      firstDelivery ∈ ledger.received ∧
      ¬ ledger.worker.Buffered firstDelivery ∧
      firstDelivery ∉ ledger.applied := by
  have ran : (executeWhile (step taggingCipher) (fun _ _ => True)
      (new .empty .empty)
      [firstReport, .tick (.error "connection closed") (.ok ())]).map
        (fun ledger => (decide (firstDelivery ∈ ledger.received),
          decide (ledger.worker.Buffered firstDelivery),
          decide (firstDelivery ∈ ledger.applied))) =
      some (true, false, false) := by
    decide +kernel
  obtain ⟨ledger, reached, account⟩ := exists_reachableWhile_of_map ran
  simp only [Prod.mk.injEq, decide_eq_true_eq, decide_eq_false_iff_not]
    at account
  exact ⟨ledger, reached, account⟩

end Ledger

end StorageWorker

end CipherMQ
