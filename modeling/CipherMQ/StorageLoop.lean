import CipherMQ.StorageWorker

/-!
# The loop of the storage worker

The worker takes commands off its channel and, between two commands, flushes
its buffers whenever an interval has passed.  Before it carries out a command
it looks whether its pool of connections is still open.  When the pool is
closed and the worker cannot reconnect, the command is dropped, and with it
the channel on which its sender may be waiting for a reply.

Besides the commands of the handlers there are some that no handler sends:
updates that are carried out at once, and an explicit flush.
-/

namespace CipherMQ

/-- The columns of the metadata table that are filled in later. -/
inductive TimeColumn where
  | delivered
  | acknowledged
  deriving DecidableEq, Repr

namespace MessageMetadata

def time (row : MessageMetadata) : TimeColumn → Option String
  | .delivered => row.deliveredTime
  | .acknowledged => row.acknowledgedTime

def fill (column : TimeColumn) (time : Option String)
    (row : MessageMetadata) : MessageMetadata :=
  match column with
  | .delivered => row.fillDelivered time
  | .acknowledged => row.fillAcknowledged time

theorem messageId_fill (column : TimeColumn) (time : Option String)
    (row : MessageMetadata) :
    (row.fill column time).messageId = row.messageId := by
  cases column <;> rfl

theorem time_fill (column other : TimeColumn) (time : Option String)
    (row : MessageMetadata) :
    (row.fill column time).time other =
      if other = column then (row.time other).or time
      else row.time other := by
  cases column <;> cases other <;> rfl

@[simp]
theorem fill_none (column : TimeColumn) (row : MessageMetadata) :
    row.fill column none = row := by
  cases column <;> simp [fill, fillDelivered, fillAcknowledged]

theorem time_merge (old row : MessageMetadata) (column : TimeColumn) :
    (old.merge row).time column = old.time column := by
  cases column <;> rfl

end MessageMetadata

namespace StorageWorker

def updates (worker : StorageWorker) :
    TimeColumn → Table (Prod.fst : String × String → String)
  | .delivered => worker.deliveredUpdates
  | .acknowledged => worker.acknowledgedUpdates

def pending (worker : StorageWorker) (column : TimeColumn)
    (messageId : String) : Option String :=
  bufferedTime (worker.updates column) messageId

def buffer (worker : StorageWorker) (column : TimeColumn)
    (messageId time : String) : StorageWorker :=
  match column with
  | .delivered =>
      { worker with
        deliveredUpdates :=
          insertUpdate worker.deliveredUpdates messageId time }
  | .acknowledged =>
      { worker with
        acknowledgedUpdates :=
          insertUpdate worker.acknowledgedUpdates messageId time }

def flush (worker : StorageWorker) (column : TimeColumn)
    (statement : Except String Unit) : StorageWorker :=
  match column with
  | .delivered => worker.flushDeliveredUpdates statement
  | .acknowledged => worker.flushAcknowledgedUpdates statement

def updateTimeAsync (worker : StorageWorker) (column : TimeColumn)
    (messageId time : String) (statement : Except String Unit) :
    StorageWorker :=
  match column with
  | .delivered => worker.updateDeliveredTimeAsync messageId time statement
  | .acknowledged =>
      worker.updateAcknowledgedTimeAsync messageId time statement

def updateTimeSync (column : TimeColumn) (worker : StorageWorker)
    (messageId time : String) (statement : Except String Unit) :
    StorageWorker × Except StorageError Unit :=
  match statement with
  | .ok () =>
      ({ worker with
          messageMetadata := worker.messageMetadata.updateAll
            (fun row => row.fill column
              (if row.messageId = messageId then some time else none))
            (fun row => row.messageId_fill column _) },
        .ok ())
  | .error error => (worker, .error (.postgres error))

def updateDeliveredTimeSync (worker : StorageWorker)
    (messageId time : String) (statement : Except String Unit) :
    StorageWorker × Except StorageError Unit :=
  updateTimeSync .delivered worker messageId time statement

def updateAcknowledgedTimeSync (worker : StorageWorker)
    (messageId time : String) (statement : Except String Unit) :
    StorageWorker × Except StorageError Unit :=
  updateTimeSync .acknowledged worker messageId time statement

/-! ## Commands and ticks -/

/-- What the worker can be told: a command of a handler, or one of those that
no handler sends. -/
inductive Command where
  | storage (command : StorageCommand)
  | updateDeliveredTime (messageId time : String)
  | updateAcknowledgedTime (messageId time : String)
  | loadUnacknowledgedMetadata
  | flushUpdates
  deriving DecidableEq, Repr

/-- What the database and the random generator do while a command is carried
out.  `acknowledged` is the outcome of the second statement of a flush. -/
structure Conditions where
  closed : Bool
  reconnects : Bool
  nonce : List UInt8
  statement : Except String Unit
  acknowledged : Except String Unit

inductive Response where
  | reply (reply : Reply)
  | loaded (result : Except StorageError (List MessageMetadata))

def work (cipher : KeyCipher) (worker : StorageWorker)
    (conditions : Conditions) :
    Command → Option (StorageWorker × Option Response)
  | .storage command =>
      (worker.handle cipher conditions.nonce conditions.statement
        command).map fun handled => (handled.1, handled.2.map .reply)
  | .updateDeliveredTime messageId time =>
      let updated := worker.updateDeliveredTimeSync messageId time
        conditions.statement
      some (updated.1, some (.reply (.saved updated.2)))
  | .updateAcknowledgedTime messageId time =>
      let updated := worker.updateAcknowledgedTimeSync messageId time
        conditions.statement
      some (updated.1, some (.reply (.saved updated.2)))
  | .loadUnacknowledgedMetadata =>
      some (worker, some (.loaded
        (match conditions.statement with
          | .ok () => .ok worker.loadUnacknowledgedMetadata
          | .error error => .error (.postgres error))))
  | .flushUpdates =>
      some (worker.tick conditions.statement conditions.acknowledged, none)

inductive Event where
  | receive (command : Command) (conditions : Conditions)
  | tick (delivered acknowledged : Except String Unit)

def Conditions.drops (conditions : Conditions) : Bool :=
  conditions.closed && !conditions.reconnects

/-- One round of the loop.  No result means that the worker panics. -/
def serve (cipher : KeyCipher) (worker : StorageWorker) :
    Event → Option (StorageWorker × Option Response)
  | .receive command conditions =>
      if conditions.drops then
        some (worker, none)
      else
        worker.work cipher conditions command
  | .tick delivered acknowledged =>
      some (worker.tick delivered acknowledged, none)

/-! ## Buffers -/

section Buffers

variable (worker : StorageWorker) (column other : TimeColumn)
  (messageId otherId time : String)

@[simp]
theorem messageMetadata_buffer :
    (worker.buffer column messageId time).messageMetadata =
      worker.messageMetadata := by
  cases column <;> rfl

theorem pending_buffer :
    (worker.buffer column messageId time).pending other otherId =
      if other = column ∧ otherId = messageId then some time
      else worker.pending other otherId := by
  cases column <;> cases other <;>
    simp [pending, updates, buffer, bufferedTime_insertUpdate]

theorem pending_flush (statement : Except String Unit) :
    (worker.flush column statement).pending other messageId =
      if other = column then none else worker.pending other messageId := by
  cases column <;> cases other <;> rfl

theorem lookup_flush :
    (worker.flush column (.ok ())).messageMetadata.lookup messageId =
      (worker.messageMetadata.lookup messageId).map fun row =>
        row.fill column (worker.pending column messageId) := by
  have atRow : ∀ row, worker.messageMetadata.lookup messageId = some row →
      row.messageId = messageId := fun row found => Table.key_of_lookup found
  cases found : worker.messageMetadata.lookup messageId with
  | none =>
      cases column
      · simp [flush, lookup_flushDeliveredUpdates, found]
      · simp [flush, lookup_flushAcknowledgedUpdates, found]
  | some row =>
      have isRow := atRow row found
      cases column
      · simp [flush, lookup_flushDeliveredUpdates, found, isRow,
          MessageMetadata.fill, pending, updates]
      · simp [flush, lookup_flushAcknowledgedUpdates, found, isRow,
          MessageMetadata.fill, pending, updates]

theorem messageMetadata_flush_error (error : String) :
    (worker.flush column (.error error)).messageMetadata =
      worker.messageMetadata := by
  cases column <;> rfl

theorem tick_eq (delivered acknowledged : Except String Unit) :
    worker.tick delivered acknowledged =
      (worker.flush .delivered delivered).flush .acknowledged
        acknowledged :=
  rfl

/-- An update goes into the buffer, and a full buffer is written. -/
theorem updateTimeAsync_eq (statement : Except String Unit) :
    worker.updateTimeAsync column messageId time statement =
      if batchSize ≤
          ((worker.buffer column messageId time).updates column).length then
        (worker.buffer column messageId time).flush column statement
      else
        worker.buffer column messageId time := by
  cases column <;> rfl

theorem lookup_updateTimeSync :
    (updateTimeSync column worker messageId time (.ok ())).1.messageMetadata.lookup
        otherId =
      (worker.messageMetadata.lookup otherId).map fun row =>
        row.fill column (if otherId = messageId then some time else none) := by
  simp only [updateTimeSync]
  rw [Table.lookup_updateAll]
  cases found : worker.messageMetadata.lookup otherId with
  | none => rfl
  | some row =>
      have isRow := Table.key_of_lookup found
      simp [isRow]

theorem pending_updateTimeSync (statement : Except String Unit) :
    (updateTimeSync column worker messageId time statement).1.pending other
        otherId =
      worker.pending other otherId := by
  cases statement <;> cases other <;> rfl

theorem pending_saveMetadata (metadata : MessageMetadata)
    (statement : Except String Unit) :
    (worker.saveMetadata metadata statement).1.pending other otherId =
      worker.pending other otherId := by
  cases statement <;> cases other <;> rfl

end Buffers

end StorageWorker

end CipherMQ
