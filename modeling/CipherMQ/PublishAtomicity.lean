import CipherMQ.CallSteps
import CipherMQ.PublishEffect
import CipherMQ.StorageWorker

/-!
# What a failed publish leaves behind

A publish fails on a duplicate, when its row cannot be saved, and when no
queue is bound.  The row is saved before the bindings are looked at, so in the
last case the table keeps a row for a message that was never queued, or the
row of an earlier message with that id now names another client.  In memory
nothing changes.
-/

namespace CipherMQ

namespace ServerState

structure PublishOutcome where
  state : ServerState
  worker : StorageWorker
  result : Except String Unit

def requestedRow (request : PublishRequest) (sentTime : String) :
    MessageMetadata :=
  publishMetadata request.exchangeName request.routingKey request.message
    request.clientId sentTime

/-- A publish against the tables of the worker, which answers with the outcome
of its statement.  A duplicate does not reach the worker. -/
def publishSaving (state : ServerState) (worker : StorageWorker)
    (request : PublishRequest) (sentTime : String)
    (statement : Except String Unit) : PublishOutcome :=
  let saved := worker.saveMetadata (requestedRow request sentTime) statement
  let published := state.publish request.exchangeName request.routingKey
    request.message request.clientId request.receivedTime sentTime saved.2
  { state := published.1
    worker :=
      if state.messageStatus.containsKey request.message.messageId then worker
      else saved.1
    result := published.2 }

/-- In memory only the handle of the storage worker has moved on, and the
table is the same. -/
structure LeavesNothing (state : ServerState) (worker : StorageWorker)
    (outcome : PublishOutcome) : Prop where
  memory : { outcome.state with storage := state.storage } = state
  table : outcome.worker.messageMetadata = worker.messageMetadata

/-- The table already has a row for the message which names the same client,
exchange, routing key and time. -/
def RowStands (worker : StorageWorker) (request : PublishRequest)
    (sentTime : String) : Prop :=
  ∃ row, worker.messageMetadata.lookup request.message.messageId = some row ∧
    row.clientId = request.clientId ∧
    row.exchangeName = request.exchangeName ∧
    row.routingKey = request.routingKey ∧
    row.sentTime = some sentTime

variable {state : ServerState} {worker : StorageWorker}
  {request : PublishRequest} {sentTime : String}

theorem merge_eq_self_iff (row metadata : MessageMetadata) :
    row.merge metadata = row ↔
      row.clientId = metadata.clientId ∧
        row.exchangeName = metadata.exchangeName ∧
        row.routingKey = metadata.routingKey ∧
        row.sentTime = metadata.sentTime := by
  cases row
  simp only [MessageMetadata.merge, MessageMetadata.mk.injEq, true_and,
    and_true]
  constructor
  · rintro ⟨client, exchange, key, time⟩
    exact ⟨client.symm, exchange.symm, key.symm, time.symm⟩
  · rintro ⟨client, exchange, key, time⟩
    exact ⟨client.symm, exchange.symm, key.symm, time.symm⟩

theorem saveMetadata_eq_self_iff :
    (worker.saveMetadata (requestedRow request sentTime)
        (.ok ())).1.messageMetadata = worker.messageMetadata ↔
      RowStands worker request sentTime := by
  simp only [StorageWorker.saveMetadata]
  rw [Table.upsert_eq_self_iff]
  constructor
  · rintro ⟨row, found, same⟩
    exact ⟨row, found, (merge_eq_self_iff row _).mp same⟩
  · rintro ⟨row, found, same⟩
    exact ⟨row, found, (merge_eq_self_iff row _).mpr same⟩

theorem memory_of_failed {exchangeName routingKey : String}
    {message : EncryptedInputData} {clientId : String} {receivedTime : Nat}
    {reply : Except StorageError Unit} {error : String}
    (failed : (state.publish exchangeName routingKey message clientId
      receivedTime sentTime reply).2 = .error error) :
    { (state.publish exchangeName routingKey message clientId receivedTime
        sentTime reply).1 with storage := state.storage } = state := by
  unfold publish at failed ⊢
  split
  · rfl
  · rename_i isNew
    rw [if_neg isNew] at failed
    dsimp only at failed ⊢
    split
    · rfl
    · rename_i accepted
      simp only [accepted] at failed
      split
      · rfl
      · rename_i bound
        rw [if_neg bound] at failed
        cases failed

/-- A publish leaves nothing behind when it fails, unless the message is new,
its row is saved, no queue is bound for it, and the row was not there
before. -/
theorem failed_publish_leaves_nothing_iff (state : ServerState)
    (worker : StorageWorker) (request : PublishRequest) (sentTime : String)
    (statement : Except String Unit) :
    (∀ error,
      (state.publishSaving worker request sentTime statement).result =
          .error error →
        LeavesNothing state worker
          (state.publishSaving worker request sentTime statement)) ↔
      ¬ (state.messageStatus request.message.messageId = none ∧
        statement = .ok () ∧
        state.targetQueues request.exchangeName request.routingKey = [] ∧
        ¬ RowStands worker request sentTime) := by
  have savedTable : state.messageStatus request.message.messageId = none →
      (state.publishSaving worker request sentTime statement).worker =
        (worker.saveMetadata (requestedRow request sentTime)
          statement).1 := by
    intro untracked
    simp [publishSaving, untracked]
  constructor
  · rintro atomic ⟨untracked, rfl, unbound, changes⟩
    have failed :
        (state.publishSaving worker request sentTime (.ok ())).result =
          .error ("No queues bound to exchange '" ++ request.exchangeName ++
            "' with routing key '" ++ request.routingKey ++ "'") := by
      unfold targetQueues at unbound
      simp [publishSaving, publish, untracked, StorageWorker.saveMetadata,
        Storage.saveMetadata, Storage.request, targetQueues, unbound]
    have sameTable := (atomic _ failed).table
    rw [savedTable untracked] at sameTable
    exact changes (saveMetadata_eq_self_iff.mp sameTable)
  · intro guarded error failed
    refine ⟨memory_of_failed failed, ?_⟩
    cases tracked : state.messageStatus request.message.messageId with
    | some status => simp [publishSaving, tracked]
    | none =>
        rw [savedTable tracked]
        cases statement with
        | error cause => rfl
        | ok _ =>
            -- the row was saved, so the failure is a missing binding
            apply saveMetadata_eq_self_iff.mpr
            by_contra changes
            refine guarded ⟨tracked, rfl, ?_, changes⟩
            by_contra bound
            unfold targetQueues at bound
            simp [publishSaving, publish, tracked,
              StorageWorker.saveMetadata, Storage.saveMetadata,
              Storage.request, targetQueues, bound] at failed

/-- `sender_1` and then `sender_2` publish `m1` to an exchange without
bindings.  Both fail; the first leaves a row for a message that was never
queued, the second makes `sender_2` the client that may ask for a resend. -/
theorem failed_publish_leaves_row :
    let request (clientId : String) : PublishRequest :=
      ⟨"e", "k", sampleMessage "m1", clientId, 1⟩
    let first := (after 10 []).publishSaving (.new .empty .empty)
      (request "sender_1") "t1" (.ok ())
    let second := first.state.publishSaving first.worker
      (request "sender_2") "t2" (.ok ())
    first.result = .error
        "No queues bound to exchange 'e' with routing key 'k'" ∧
      first.worker.loadUnacknowledgedMetadata =
        [⟨"m1", "sender_1", "e", "k", some "t1", none, none⟩] ∧
      first.worker.getClientIdForMessage "m1" (.ok ()) =
        .ok (some "sender_1") ∧
      second.result = .error
        "No queues bound to exchange 'e' with routing key 'k'" ∧
      second.worker.getClientIdForMessage "m1" (.ok ()) =
        .ok (some "sender_2") := by
  decide +kernel

end ServerState

end CipherMQ
