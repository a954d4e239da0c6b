import CipherMQ.StorageLoop
import CipherMQ.TransitionSystem

/-!
# Buffered times and times written at once

A buffer keeps one time for each message.  A second update that arrives
before the first is written replaces it, whereas a row that already has a
time keeps it.  So the buffered worker agrees with one that writes every
update on arrival exactly as long as no buffered time is replaced by another
before a row has it.

The two are compared through what the table would be if the buffers were
written now: a flush does not change that, and an update changes it in the
row of its message only.
-/

namespace CipherMQ

namespace MessageMetadata

/-- Fill in the missing times of both columns. -/
def fillAll (times : TimeColumn → Option String) (row : MessageMetadata) :
    MessageMetadata :=
  (row.fill .delivered (times .delivered)).fill .acknowledged
    (times .acknowledged)

def withTime (times : TimeColumn → Option String) (column : TimeColumn)
    (time : Option String) : TimeColumn → Option String :=
  fun other => if other = column then time else times other

section FillAll

variable (row : MessageMetadata) (times : TimeColumn → Option String)
  (column : TimeColumn) (time : String)

theorem fillAll_none {times : TimeColumn → Option String}
    (none_left : ∀ column, times column = none) :
    row.fillAll times = row := by
  simp [fillAll, none_left]

theorem fillAll_fill_withTime_none :
    (row.fill column (times column)).fillAll (withTime times column none) =
      row.fillAll times := by
  cases column <;>
    simp [fillAll, withTime, fill, fillDelivered, fillAcknowledged]

/-- The first time is kept if a row has it, or if no other one is waiting. -/
def KeepsFirst (found waiting : Option String) (time : String) : Prop :=
  found.isSome ∨ ∀ earlier ∈ waiting, earlier = time

instance (found waiting : Option String) (time : String) :
    Decidable (KeepsFirst found waiting time) :=
  inferInstanceAs (Decidable (_ ∨ ∀ earlier ∈ waiting, _))

theorem or_some_eq_iff (found waiting : Option String) (time : String) :
    found.or (some time) = (found.or waiting).or (some time) ↔
      KeepsFirst found waiting time := by
  cases found <;> cases waiting <;> simp [KeepsFirst, eq_comm]

theorem or_some_or_eq_iff (found waiting : Option String) (time : String) :
    (found.or (some time)).or waiting = (found.or waiting).or (some time) ↔
      KeepsFirst found waiting time := by
  cases found <;> cases waiting <;> simp [KeepsFirst, eq_comm]

/-- Replacing the waiting time is the same as writing both in turn. -/
theorem fillAll_withTime_eq_iff :
    row.fillAll (withTime times column (some time)) =
        (row.fillAll times).fill column (some time) ↔
      KeepsFirst (row.time column) (times column) time := by
  rw [← or_some_eq_iff]
  cases column <;>
    simp [fillAll, withTime, fill, fillDelivered, fillAcknowledged,
      MessageMetadata.time]

/-- Writing a time before the waiting one is the same as writing it after. -/
theorem fillAll_fill_eq_iff :
    (row.fill column (some time)).fillAll times =
        (row.fillAll times).fill column (some time) ↔
      KeepsFirst (row.time column) (times column) time := by
  rw [← or_some_or_eq_iff]
  cases column <;>
    simp [fillAll, fill, fillDelivered, fillAcknowledged,
      MessageMetadata.time]

end FillAll

end MessageMetadata

namespace StorageWorker

open MessageMetadata

/-! ## What a flush would write -/

/-- The metadata table after a flush that succeeds. -/
def flushedMetadata (worker : StorageWorker) :
    Table MessageMetadata.messageId :=
  (worker.tick (.ok ()) (.ok ())).messageMetadata

section Flushed

variable (worker : StorageWorker) (column : TimeColumn)
  (messageId otherId time : String)

theorem lookup_flushedMetadata :
    worker.flushedMetadata.lookup messageId =
      (worker.messageMetadata.lookup messageId).map
        (fillAll fun column => worker.pending column messageId) := by
  unfold flushedMetadata
  rw [tick_eq, lookup_flush, lookup_flush, pending_flush, Option.map_map]
  rfl

theorem keys_flush (statement : Except String Unit) :
    (worker.flush column statement).messageMetadata.keys =
      worker.messageMetadata.keys := by
  cases statement with
  | error error => rw [messageMetadata_flush_error]
  | ok _ =>
      cases column
      · exact Table.keys_updateAll _ _ fun row =>
          messageId_fillDelivered _ row
      · exact Table.keys_updateAll _ _ fun row =>
          messageId_fillAcknowledged _ row

theorem keys_flushedMetadata :
    worker.flushedMetadata.keys = worker.messageMetadata.keys := by
  unfold flushedMetadata
  rw [tick_eq, keys_flush, keys_flush]

theorem flushedMetadata_flush :
    (worker.flush column (.ok ())).flushedMetadata =
      worker.flushedMetadata := by
  apply Table.eq_of_lookup
  · rw [keys_flushedMetadata, keys_flush, keys_flushedMetadata]
  · intro messageId
    rw [lookup_flushedMetadata, lookup_flush, lookup_flushedMetadata,
      Option.map_map]
    congr 1
    funext row
    simp only [pending_flush]
    exact fillAll_fill_withTime_none row _ column

theorem flushedMetadata_tick :
    (worker.tick (.ok ()) (.ok ())).flushedMetadata =
      worker.flushedMetadata := by
  rw [tick_eq, flushedMetadata_flush, flushedMetadata_flush]

/-- Whether the buffer is written at once makes no difference. -/
theorem flushedMetadata_updateTimeAsync :
    (worker.updateTimeAsync column messageId time (.ok ())).flushedMetadata =
      (worker.buffer column messageId time).flushedMetadata := by
  rw [updateTimeAsync_eq]
  split
  · exact flushedMetadata_flush _ column
  · rfl

theorem lookup_flushedMetadata_buffer :
    (worker.buffer column messageId time).flushedMetadata.lookup otherId =
      (worker.messageMetadata.lookup otherId).map (fillAll
        (if otherId = messageId then
          withTime (fun column => worker.pending column otherId) column
            (some time)
        else
          fun column => worker.pending column otherId)) := by
  rw [lookup_flushedMetadata, messageMetadata_buffer]
  congr 2
  funext other
  rw [pending_buffer]
  by_cases same : otherId = messageId
  · simp [same, withTime]
  · simp [same]

end Flushed

/-! ## Runs -/

/-- What can happen to the metadata while every statement succeeds. -/
inductive MetadataEvent where
  | saveMetadata (metadata : MessageMetadata)
  | updateTimeAsync (column : TimeColumn) (messageId time : String)
  | updateTimeSync (column : TimeColumn) (messageId time : String)
  | flushUpdates
  | tick
  deriving DecidableEq, Repr

/-- The event as the loop of the worker sees it. -/
def MetadataEvent.event (conditions : Conditions) : MetadataEvent → Event
  | .saveMetadata metadata =>
      .receive (.storage (.saveMetadata metadata)) conditions
  | .updateTimeAsync .delivered messageId time =>
      .receive (.storage (.updateDeliveredTimeAsync messageId time))
        conditions
  | .updateTimeAsync .acknowledged messageId time =>
      .receive (.storage (.updateAcknowledgedTimeAsync messageId time))
        conditions
  | .updateTimeSync .delivered messageId time =>
      .receive (.updateDeliveredTime messageId time) conditions
  | .updateTimeSync .acknowledged messageId time =>
      .receive (.updateAcknowledgedTime messageId time) conditions
  | .flushUpdates => .receive .flushUpdates conditions
  | .tick => .tick (.ok ()) (.ok ())

/-- The worker as it is. -/
def batchedStep (worker : StorageWorker) : MetadataEvent → StorageWorker
  | .saveMetadata metadata => (worker.saveMetadata metadata (.ok ())).1
  | .updateTimeAsync column messageId time =>
      worker.updateTimeAsync column messageId time (.ok ())
  | .updateTimeSync column messageId time =>
      (updateTimeSync column worker messageId time (.ok ())).1
  | .flushUpdates | .tick => worker.tick (.ok ()) (.ok ())

/-- A worker that writes every update when it receives it. -/
def directStep (worker : StorageWorker) : MetadataEvent → StorageWorker
  | .saveMetadata metadata => (worker.saveMetadata metadata (.ok ())).1
  | .updateTimeAsync column messageId time
  | .updateTimeSync column messageId time =>
      (updateTimeSync column worker messageId time (.ok ())).1
  | .flushUpdates | .tick => worker

/-- The steps of the buffered worker are rounds of the loop in which no
statement fails. -/
theorem serve_event (cipher : KeyCipher) (worker : StorageWorker)
    {conditions : Conditions} (reaches : conditions.drops = false)
    (statement : conditions.statement = .ok ())
    (acknowledged : conditions.acknowledged = .ok ())
    (event : MetadataEvent) :
    (worker.serve cipher (event.event conditions)).map Prod.fst =
      some (worker.batchedStep event) := by
  cases event with
  | saveMetadata metadata =>
      simp [MetadataEvent.event, serve, reaches, work, handle, statement,
        batchedStep]
  | updateTimeAsync column messageId time =>
      cases column <;>
        simp [MetadataEvent.event, serve, reaches, work, handle, statement,
          batchedStep, updateTimeAsync]
  | updateTimeSync column messageId time =>
      cases column <;>
        simp [MetadataEvent.event, serve, reaches, work, statement,
          batchedStep, updateDeliveredTimeSync, updateAcknowledgedTimeSync]
  | flushUpdates =>
      simp [MetadataEvent.event, serve, reaches, work, statement,
        acknowledged, batchedStep]
  | tick => rfl

def MetadataEvent.savedId : MetadataEvent → Option String
  | .saveMetadata metadata => some metadata.messageId
  | _ => none

/-- An update names a message whose metadata was saved before, or stands in
the table from the start. -/
def NamesSaved (messageMetadata : Table MessageMetadata.messageId)
    (before : List MetadataEvent) : MetadataEvent → Prop
  | .updateTimeAsync _ messageId _ | .updateTimeSync _ messageId _ =>
      (messageMetadata.lookup messageId).isSome ∨
        ∃ earlier ∈ before, earlier.savedId = some messageId
  | _ => True

instance (messageMetadata : Table MessageMetadata.messageId)
    (before : List MetadataEvent) :
    DecidablePred (NamesSaved messageMetadata before)
  | .updateTimeAsync _ _ _ | .updateTimeSync _ _ _ =>
      inferInstanceAs (Decidable (_ ∨ ∃ earlier ∈ before, _))
  | .saveMetadata _ | .flushUpdates | .tick =>
      inferInstanceAs (Decidable True)

/-- An update does not replace a buffered time by another one before the row
of the message has a time. -/
def KeepsFirstTime (worker : StorageWorker) : MetadataEvent → Prop
  | .updateTimeAsync column messageId time
  | .updateTimeSync column messageId time =>
      KeepsFirst
        ((worker.messageMetadata.lookup messageId).bind fun row =>
          row.time column)
        (worker.pending column messageId) time
  | _ => True

instance (worker : StorageWorker) : DecidablePred worker.KeepsFirstTime
  | .updateTimeAsync _ _ _ | .updateTimeSync _ _ _ =>
      inferInstanceAs (Decidable (KeepsFirst _ _ _))
  | .saveMetadata _ | .flushUpdates | .tick =>
      inferInstanceAs (Decidable True)

def savedKeys (keys : List String) : MetadataEvent → List String
  | .saveMetadata metadata =>
      if metadata.messageId ∈ keys then keys
      else keys ++ [metadata.messageId]
  | _ => keys

theorem keys_updateTimeSync (worker : StorageWorker) (column : TimeColumn)
    (messageId time : String) :
    (updateTimeSync column worker messageId time
        (.ok ())).1.messageMetadata.keys =
      worker.messageMetadata.keys :=
  Table.keys_updateAll _ _ fun row => row.messageId_fill column _

theorem keys_batchedStep (worker : StorageWorker) (event : MetadataEvent) :
    (worker.batchedStep event).messageMetadata.keys =
      savedKeys worker.messageMetadata.keys event := by
  cases event with
  | saveMetadata metadata => exact Table.keys_upsert _ messageId_merge metadata
  | updateTimeAsync column messageId time =>
      simp only [batchedStep, updateTimeAsync_eq]
      split
      · rw [keys_flush, messageMetadata_buffer]
        rfl
      · rw [messageMetadata_buffer]
        rfl
  | updateTimeSync column messageId time =>
      exact keys_updateTimeSync worker column messageId time
  | flushUpdates | tick => exact keys_flushedMetadata worker

theorem keys_directStep (worker : StorageWorker) (event : MetadataEvent) :
    (worker.directStep event).messageMetadata.keys =
      savedKeys worker.messageMetadata.keys event := by
  cases event with
  | saveMetadata metadata => exact Table.keys_upsert _ messageId_merge metadata
  | updateTimeAsync column messageId time
  | updateTimeSync column messageId time =>
      exact keys_updateTimeSync worker column messageId time
  | flushUpdates | tick => rfl

theorem mem_savedKeys {keys : List String} {messageId : String}
    (isKey : messageId ∈ keys) (event : MetadataEvent) :
    messageId ∈ savedKeys keys event := by
  cases event with
  | saveMetadata metadata =>
      simp only [savedKeys]
      split
      · exact isKey
      · exact List.mem_append_left _ isKey
  | updateTimeAsync _ _ _ | updateTimeSync _ _ _ | flushUpdates | tick =>
      exact isKey

theorem mem_savedKeys_of_savedId (keys : List String) {messageId : String}
    {event : MetadataEvent} (isSaved : event.savedId = some messageId) :
    messageId ∈ savedKeys keys event := by
  cases event with
  | saveMetadata metadata =>
      obtain rfl := Option.some.inj isSaved
      simp only [savedKeys]
      split
      · assumption
      · exact List.mem_append_right _ (List.mem_singleton_self _)
  | updateTimeAsync _ _ _ | updateTimeSync _ _ _ | flushUpdates | tick =>
      cases isSaved

/-- Every message whose metadata was saved has a row. -/
theorem mem_keys_of_saved (initial : StorageWorker)
    (before : List MetadataEvent) {messageId : String}
    (saved : messageId ∈ initial.messageMetadata.keys ∨
      ∃ earlier ∈ before, earlier.savedId = some messageId) :
    messageId ∈
      (runFrom batchedStep initial before).messageMetadata.keys := by
  induction before using List.reverseRecOn with
  | nil => simpa using saved
  | append_singleton before event ih =>
      rw [runFrom_concat, keys_batchedStep]
      rcases saved with atStart | ⟨earlier, member, isSaved⟩
      · exact mem_savedKeys (ih (.inl atStart)) event
      · rcases List.mem_append.mp member with inBefore | isEvent
        · exact mem_savedKeys (ih (.inr ⟨earlier, inBefore, isSaved⟩)) event
        · rw [List.mem_singleton] at isEvent
          subst isEvent
          exact mem_savedKeys_of_savedId _ isSaved

def PendingSaved (worker : StorageWorker) : Prop :=
  ∀ column messageId, (worker.pending column messageId).isSome →
    messageId ∈ worker.messageMetadata.keys

def NamesRow (worker : StorageWorker) : MetadataEvent → Prop
  | .updateTimeAsync _ messageId _ | .updateTimeSync _ messageId _ =>
      messageId ∈ worker.messageMetadata.keys
  | _ => True

theorem pendingSaved_batchedStep {worker : StorageWorker}
    (saved : worker.PendingSaved) {event : MetadataEvent}
    (names : worker.NamesRow event) :
    (worker.batchedStep event).PendingSaved := by
  intro column messageId isPending
  rw [keys_batchedStep]
  apply mem_savedKeys
  cases event with
  | saveMetadata metadata =>
      simp only [batchedStep, pending_saveMetadata] at isPending
      exact saved column messageId isPending
  | updateTimeAsync updated updatedId time =>
      have inBuffer : ((worker.buffer updated updatedId time).pending column
          messageId).isSome := by
        simp only [batchedStep, updateTimeAsync_eq] at isPending
        split at isPending
        · rw [pending_flush] at isPending
          split at isPending
          · cases isPending
          · exact isPending
        · exact isPending
      rw [pending_buffer] at inBuffer
      split at inBuffer
      · rename_i same
        exact same.2 ▸ names
      · exact saved column messageId inBuffer
  | updateTimeSync updated updatedId time =>
      simp only [batchedStep, pending_updateTimeSync] at isPending
      exact saved column messageId isPending
  | flushUpdates | tick =>
      simp only [batchedStep, tick_eq, pending_flush] at isPending
      cases column <;> simp at isPending

/-! ## One step of both workers -/

section Compare

variable {worker direct : StorageWorker}
  (same : worker.flushedMetadata = direct.messageMetadata)

include same

theorem flushedMetadata_saveMetadata (saved : worker.PendingSaved)
    (metadata : MessageMetadata) :
    (worker.saveMetadata metadata (.ok ())).1.flushedMetadata =
      (direct.saveMetadata metadata (.ok ())).1.messageMetadata := by
  apply Table.eq_of_lookup
  · have sameKeys : worker.messageMetadata.keys =
        direct.messageMetadata.keys := by
      rw [← same, keys_flushedMetadata]
    rw [keys_flushedMetadata]
    have onWorker := keys_batchedStep worker (.saveMetadata metadata)
    have onDirect := keys_directStep direct (.saveMetadata metadata)
    rw [sameKeys] at onWorker
    exact onWorker.trans onDirect.symm
  · intro messageId
    rw [lookup_flushedMetadata, lookup_saveMetadata, lookup_saveMetadata,
      ← same]
    simp only [pending_saveMetadata, lookup_flushedMetadata]
    split
    · rename_i isId
      subst isId
      cases found : worker.messageMetadata.lookup metadata.messageId with
      | some row => rfl
      | none =>
          -- a message without a row has nothing in the buffers
          have noKey : metadata.messageId ∉ worker.messageMetadata.keys := by
            rw [← Table.isSome_lookup_iff, found]
            simp
          have nothing : ∀ column,
              worker.pending column metadata.messageId = none := by
            intro column
            by_contra isPending
            exact noKey (saved column _
              (Option.isSome_iff_ne_none.mpr isPending))
          simp [fillAll_none _ nothing]
    · rfl

/-- A table that differs from what the worker would write in one row only is
the directly updated one exactly if that row is. -/
theorem eq_updateTimeSync_iff {after : Table MessageMetadata.messageId}
    (column : TimeColumn) {messageId : String} (time : String)
    {row written : MessageMetadata}
    (found : worker.messageMetadata.lookup messageId = some row)
    (sameKeys : after.keys = worker.messageMetadata.keys)
    (changed : after.lookup messageId = some written)
    (others : ∀ other, other ≠ messageId →
      after.lookup other = worker.flushedMetadata.lookup other) :
    after = (updateTimeSync column direct messageId time
        (.ok ())).1.messageMetadata ↔
      written = (row.fillAll fun column =>
        worker.pending column messageId).fill column (some time) := by
  have atMessage : (updateTimeSync column direct messageId time
      (.ok ())).1.messageMetadata.lookup messageId =
      some ((row.fillAll fun column =>
        worker.pending column messageId).fill column (some time)) := by
    rw [lookup_updateTimeSync, ← same, lookup_flushedMetadata, found]
    simp
  constructor
  · intro agree
    rw [agree, atMessage] at changed
    exact (Option.some.inj changed).symm
  · intro isWritten
    apply Table.eq_of_lookup
    · rw [sameKeys, keys_updateTimeSync, ← same, keys_flushedMetadata]
    · intro other
      by_cases isId : other = messageId
      · rw [isId, changed, atMessage, isWritten]
      · rw [others other isId, lookup_updateTimeSync, same]
        simp [isId]

/-- One step keeps the workers in agreement exactly if it keeps the first
time of its message. -/
theorem flushedMetadata_batchedStep_iff (saved : worker.PendingSaved)
    {event : MetadataEvent} (names : worker.NamesRow event) :
    (worker.batchedStep event).flushedMetadata =
        (direct.directStep event).messageMetadata ↔
      worker.KeepsFirstTime event := by
  cases event with
  | saveMetadata metadata =>
      exact iff_of_true (flushedMetadata_saveMetadata same saved metadata)
        trivial
  | updateTimeAsync column messageId time =>
      obtain ⟨row, found⟩ := Option.isSome_iff_exists.mp
        ((Table.isSome_lookup_iff _ _).mpr names)
      simp only [batchedStep, directStep, KeepsFirstTime, found,
        Option.bind_some, flushedMetadata_updateTimeAsync]
      refine Iff.trans ?_ (fillAll_withTime_eq_iff row
        (fun column => worker.pending column messageId) column time)
      apply eq_updateTimeSync_iff same column time found
      · rw [keys_flushedMetadata, messageMetadata_buffer]
      · rw [lookup_flushedMetadata_buffer, found]
        simp
      · intro other notId
        rw [lookup_flushedMetadata_buffer, lookup_flushedMetadata]
        simp [notId]
  | updateTimeSync column messageId time =>
      obtain ⟨row, found⟩ := Option.isSome_iff_exists.mp
        ((Table.isSome_lookup_iff _ _).mpr names)
      simp only [batchedStep, directStep, KeepsFirstTime, found,
        Option.bind_some]
      refine Iff.trans ?_ (fillAll_fill_eq_iff row
        (fun column => worker.pending column messageId) column time)
      apply eq_updateTimeSync_iff same column time found
      · rw [keys_flushedMetadata, keys_updateTimeSync]
      · rw [lookup_flushedMetadata, lookup_updateTimeSync, found]
        simp [pending_updateTimeSync]
      · intro other notId
        rw [lookup_flushedMetadata, lookup_updateTimeSync,
          lookup_flushedMetadata]
        simp [notId, pending_updateTimeSync]
  | flushUpdates | tick =>
      exact iff_of_true ((flushedMetadata_tick worker).trans same) trivial

end Compare

/-! ## Whole runs -/

/-- A buffered worker and one that writes at once take an event. -/
def bothStep (both : StorageWorker × StorageWorker)
    (event : MetadataEvent) : StorageWorker × StorageWorker :=
  (both.1.batchedStep event, both.2.directStep event)

/-- The buffered worker would write what the other one has written. -/
def Agree (both : StorageWorker × StorageWorker) : Prop :=
  both.1.flushedMetadata = both.2.messageMetadata

theorem agree_bothStep_iff (both : StorageWorker × StorageWorker)
    (event : MetadataEvent) (saved : both.1.PendingSaved)
    (names : both.1.NamesRow event) (agree : Agree both) :
    Agree (bothStep both event) ↔ both.1.KeepsFirstTime event :=
  flushedMetadata_batchedStep_iff agree saved names

theorem agree_new (messageMetadata : Table MessageMetadata.messageId)
    (publicKeys : Table PublicKeyRow.clientId) :
    Agree (new messageMetadata publicKeys,
      new messageMetadata publicKeys) := by
  apply Table.eq_of_lookup
  · exact keys_flushedMetadata _
  · intro messageId
    have nothing : ∀ column, (new messageMetadata publicKeys).pending column
        messageId = none := by
      intro column
      cases column <;> rfl
    have unchanged : (fillAll fun column => (new messageMetadata
        publicKeys).pending column messageId) = id :=
      funext fun row => fillAll_none row nothing
    rw [lookup_flushedMetadata, unchanged, Option.map_id]
    rfl

/-- As long as updates name saved messages, the buffered worker and the one
that writes at once agree after every part of a run exactly if no update of
the run replaces a buffered time by another one before the row has a time. -/
theorem flushed_eq_direct_iff
    (messageMetadata : Table MessageMetadata.messageId)
    (publicKeys : Table PublicKeyRow.clientId)
    (events : List MetadataEvent)
    (named : ∀ before event, before ++ [event] <+: events →
      NamesSaved messageMetadata before event) :
    (∀ visited, visited <+: events →
        (runFrom batchedStep (new messageMetadata publicKeys)
            visited).flushedMetadata =
          (runFrom directStep (new messageMetadata publicKeys)
            visited).messageMetadata) ↔
      ∀ before event, before ++ [event] <+: events →
        (runFrom batchedStep (new messageMetadata publicKeys)
          before).KeepsFirstTime event := by
  have both : ∀ visited, runFrom bothStep (new messageMetadata publicKeys,
      new messageMetadata publicKeys) visited =
      (runFrom batchedStep (new messageMetadata publicKeys) visited,
        runFrom directStep (new messageMetadata publicKeys) visited) :=
    runFrom_pair directStep _ _
  have whole := runFrom_forall_prefix_iff_of_admitted _ _
    (agree_new messageMetadata publicKeys) ?_ ?_ agree_bothStep_iff events ?_
  · simpa only [both, Agree] using whole
  · intro column messageId isPending
    cases column <;> cases isPending
  · intro both event saved names
    exact pendingSaved_batchedStep saved names
  · intro before event isPrefix
    rw [both]
    have saved := named before event isPrefix
    cases event with
    | updateTimeAsync column messageId time
    | updateTimeSync column messageId time =>
        apply mem_keys_of_saved
        rw [← Table.isSome_lookup_iff]
        exact saved
    | saveMetadata _ | flushUpdates | tick => trivial

/-- A delivery that is reported before and after the buffers are written. -/
def reportedAgain : List MetadataEvent :=
  [.saveMetadata ⟨"m", "sender", "orders", "new", none, none, none⟩,
    .updateTimeAsync .delivered "m" "10:01", .tick,
    .updateTimeAsync .delivered "m" "10:02"]

theorem flushed_eq_direct_reportedAgain :
    (∀ before event, before ++ [event] <+: reportedAgain →
        NamesSaved .empty before event) ∧
      ∀ visited, visited <+: reportedAgain →
        (runFrom batchedStep (new .empty .empty) visited).flushedMetadata =
          (runFrom directStep (new .empty .empty)
            visited).messageMetadata := by
  have named : ∀ before event, before ++ [event] <+: reportedAgain →
      NamesSaved .empty before event :=
    (forall_prefix_iff_forall_take _).mpr (by decide)
  refine ⟨named, (flushed_eq_direct_iff .empty .empty _ named).mpr ?_⟩
  exact (forall_prefix_iff_forall_take _).mpr (by decide)

/-- Two deliveries of one message that are reported before the buffers are
written. -/
def reportedTwice : List MetadataEvent :=
  [.saveMetadata ⟨"m", "sender", "orders", "new", none, none, none⟩,
    .updateTimeAsync .delivered "m" "10:01",
    .updateTimeAsync .delivered "m" "10:02"]

/-- The later of two buffered times wins, the earlier one of two that are
written at once. -/
theorem flushed_ne_direct_reportedTwice :
    (∀ before event, before ++ [event] <+: reportedTwice →
        NamesSaved .empty before event) ∧
      ((runFrom batchedStep (new .empty .empty)
          reportedTwice).flushedMetadata.lookup "m").bind
            deliveredTime = some "10:02" ∧
      ((runFrom directStep (new .empty .empty)
          reportedTwice).messageMetadata.lookup "m").bind
            deliveredTime = some "10:01" ∧
      (runFrom batchedStep (new .empty .empty)
          reportedTwice).flushedMetadata ≠
        (runFrom directStep (new .empty .empty)
          reportedTwice).messageMetadata := by
  have buffered : ((runFrom batchedStep (new .empty .empty)
      reportedTwice).flushedMetadata.lookup "m").bind deliveredTime =
        some "10:02" := by
    decide
  have written : ((runFrom directStep (new .empty .empty)
      reportedTwice).messageMetadata.lookup "m").bind deliveredTime =
        some "10:01" := by
    decide
  refine ⟨(forall_prefix_iff_forall_take _).mpr (by decide), buffered,
    written, ?_⟩
  intro same
  rw [same, written] at buffered
  exact absurd buffered (by decide)

end StorageWorker

end CipherMQ
