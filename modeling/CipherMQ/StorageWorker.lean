import CipherMQ.Base64
import CipherMQ.Storage
import CipherMQ.Table

/-!
# The storage worker

One task takes the commands off the storage channel and turns them into
statements on two tables.  Saving the metadata of a message is an upsert that
leaves the times of an existing row alone.  Delivery and acknowledgement times
are collected in two buffers, which are written when they are full and at
every tick of an interval; such a write fills in missing times only.  Public
keys are stored encrypted, with the authentication tag in a column of its own.

The database answers a statement by executing it or by an error; the cipher
and the texts of decoding errors come from the libraries the worker uses and
are parameters.
-/

namespace CipherMQ

/-- The cipher of the public key table, with the texts of the errors that
handlers quote. -/
structure KeyCipher where
  encrypt : List UInt8 → List UInt8 → Except String (List UInt8)
  decrypt : List UInt8 → List UInt8 → Except String (List UInt8)
  decodeError : String → String

structure PublicKeyRow where
  clientId : String
  publicKeyCiphertext : String
  nonce : String
  tag : String
  deriving DecidableEq, Repr

structure StorageWorker where
  messageMetadata : Table MessageMetadata.messageId
  publicKeys : Table PublicKeyRow.clientId
  deliveredUpdates : Table (Prod.fst : String × String → String)
  acknowledgedUpdates : Table (Prod.fst : String × String → String)

/-- The update of an existing row by a row with the same message. -/
def MessageMetadata.merge (old row : MessageMetadata) : MessageMetadata :=
  { old with
    clientId := row.clientId
    exchangeName := row.exchangeName
    routingKey := row.routingKey
    sentTime := row.sentTime }

theorem MessageMetadata.messageId_merge (old row : MessageMetadata)
    (same : old.messageId = row.messageId) :
    (old.merge row).messageId = row.messageId :=
  same

def MessageMetadata.fillDelivered (time : Option String)
    (row : MessageMetadata) : MessageMetadata :=
  { row with deliveredTime := row.deliveredTime.or time }

theorem MessageMetadata.messageId_fillDelivered (time : Option String)
    (row : MessageMetadata) :
    (row.fillDelivered time).messageId = row.messageId :=
  rfl

def MessageMetadata.fillAcknowledged (time : Option String)
    (row : MessageMetadata) : MessageMetadata :=
  { row with acknowledgedTime := row.acknowledgedTime.or time }

theorem MessageMetadata.messageId_fillAcknowledged (time : Option String)
    (row : MessageMetadata) :
    (row.fillAcknowledged time).messageId = row.messageId :=
  rfl

namespace StorageWorker

def batchSize : Nat := 50

def new (messageMetadata : Table MessageMetadata.messageId)
    (publicKeys : Table PublicKeyRow.clientId) : StorageWorker :=
  ⟨messageMetadata, publicKeys, .empty, .empty⟩

/-! ## Message metadata -/

def saveMetadata (worker : StorageWorker) (metadata : MessageMetadata)
    (statement : Except String Unit) :
    StorageWorker × Except StorageError Unit :=
  match statement with
  | .ok () =>
      ({ worker with
          messageMetadata := worker.messageMetadata.upsert
            MessageMetadata.merge MessageMetadata.messageId_merge
            metadata },
        .ok ())
  | .error error => (worker, .error (.postgres error))

def bufferedTime (updates : Table (Prod.fst : String × String → String))
    (messageId : String) : Option String :=
  (updates.lookup messageId).map Prod.snd

/-- Write the buffered delivery times; the buffer is emptied even if the
statement fails. -/
def flushDeliveredUpdates (worker : StorageWorker)
    (statement : Except String Unit) : StorageWorker :=
  { worker with
    messageMetadata :=
      match statement with
      | .ok () => worker.messageMetadata.updateAll
          (fun row => row.fillDelivered
            (bufferedTime worker.deliveredUpdates row.messageId))
          (fun row => MessageMetadata.messageId_fillDelivered _ row)
      | .error _ => worker.messageMetadata
    deliveredUpdates := .empty }

def flushAcknowledgedUpdates (worker : StorageWorker)
    (statement : Except String Unit) : StorageWorker :=
  { worker with
    messageMetadata :=
      match statement with
      | .ok () => worker.messageMetadata.updateAll
          (fun row => row.fillAcknowledged
            (bufferedTime worker.acknowledgedUpdates row.messageId))
          (fun row => MessageMetadata.messageId_fillAcknowledged _ row)
      | .error _ => worker.messageMetadata
    acknowledgedUpdates := .empty }

/-- Put a time into a buffer, over an earlier one for the same message. -/
def insertUpdate (updates : Table (Prod.fst : String × String → String))
    (messageId time : String) :
    Table (Prod.fst : String × String → String) :=
  updates.upsert (fun _ update => update) (fun _ _ _ => rfl)
    (messageId, time)

def updateDeliveredTimeAsync (worker : StorageWorker)
    (messageId time : String) (statement : Except String Unit) :
    StorageWorker :=
  let worker :=
    { worker with
      deliveredUpdates := insertUpdate worker.deliveredUpdates messageId time }
  if batchSize ≤ worker.deliveredUpdates.length then
    worker.flushDeliveredUpdates statement
  else
    worker

def updateAcknowledgedTimeAsync (worker : StorageWorker)
    (messageId time : String) (statement : Except String Unit) :
    StorageWorker :=
  let worker :=
    { worker with
      acknowledgedUpdates :=
        insertUpdate worker.acknowledgedUpdates messageId time }
  if batchSize ≤ worker.acknowledgedUpdates.length then
    worker.flushAcknowledgedUpdates statement
  else
    worker

def tick (worker : StorageWorker)
    (delivered acknowledged : Except String Unit) : StorageWorker :=
  (worker.flushDeliveredUpdates delivered).flushAcknowledgedUpdates
    acknowledged

def loadUnacknowledgedMetadata (worker : StorageWorker) :
    List MessageMetadata :=
  worker.messageMetadata.select fun row => row.acknowledgedTime.isNone

def getClientIdForMessage (worker : StorageWorker) (messageId : String)
    (statement : Except String Unit) :
    Except StorageError (Option String) :=
  match statement with
  | .ok () =>
      .ok ((worker.messageMetadata.lookup messageId).map
        MessageMetadata.clientId)
  | .error error => .error (.postgres error)

/-! ## Public keys -/

def decodeColumn (cipher : KeyCipher) (name text : String) :
    Except StorageError (List UInt8) :=
  match Base64.decode text with
  | some bytes => .ok bytes
  | none => .error (.encryptionError
      ("Invalid " ++ name ++ ": " ++ cipher.decodeError text))

/-- Split the authentication tag off.  A ciphertext shorter than a tag would
make the subtraction of the lengths underflow, and the worker panic. -/
def splitTag (encrypted : List UInt8) :
    Option (List UInt8 × List UInt8) :=
  if 16 ≤ encrypted.length then
    some (encrypted.splitAt (encrypted.length - 16))
  else
    none

def publicKeyRow (clientId : String) (nonce ciphertext tag : List UInt8) :
    PublicKeyRow :=
  ⟨clientId, Base64.encode ciphertext, Base64.encode nonce,
    Base64.encode tag⟩

/-- Encrypt and save a public key under a fresh nonce.  No result means that
the worker panics. -/
def savePublicKey (cipher : KeyCipher) (worker : StorageWorker)
    (keyData : PublicKeyData) (nonce : List UInt8)
    (statement : Except String Unit) :
    Option (StorageWorker × Except StorageError Unit) :=
  match decodeColumn cipher "public key" keyData.publicKey with
  | .error error => some (worker, .error error)
  | .ok publicKey =>
      match cipher.encrypt nonce publicKey with
      | .error error =>
          some (worker, .error (.encryptionError
            ("Encryption failed: " ++ error)))
      | .ok encrypted =>
          (splitTag encrypted).map fun parts =>
            match statement with
            | .ok () =>
                ({ worker with
                    publicKeys := worker.publicKeys.upsert
                      (fun _ row => row) (fun _ _ _ => rfl)
                      (publicKeyRow keyData.clientId nonce parts.1
                        parts.2) },
                  .ok ())
            | .error error => (worker, .error (.postgres error))

/-- Decrypt the key of a row.  A nonce of the wrong length makes the worker
panic. -/
def decryptRow (cipher : KeyCipher) (row : PublicKeyRow) :
    Option (Except StorageError String) :=
  match decodeColumn cipher "ciphertext" row.publicKeyCiphertext,
      decodeColumn cipher "nonce" row.nonce,
      decodeColumn cipher "tag" row.tag with
  | .error error, _, _ => some (.error error)
  | .ok _, .error error, _ => some (.error error)
  | .ok _, .ok _, .error error => some (.error error)
  | .ok ciphertext, .ok nonce, .ok tag =>
      if nonce.length = 12 then
        match cipher.decrypt nonce (ciphertext ++ tag) with
        | .ok publicKey => some (.ok (Base64.encode publicKey))
        | .error error =>
            some (.error (.encryptionError ("Decryption failed: " ++ error)))
      else
        none

def getPublicKey (cipher : KeyCipher) (worker : StorageWorker)
    (clientId : String) (statement : Except String Unit) :
    Option (Except StorageError (Option String)) :=
  match statement with
  | .error error => some (.error (.postgres error))
  | .ok () =>
      match worker.publicKeys.lookup clientId with
      | none => some (.ok none)
      | some row =>
          (decryptRow cipher row).map fun decrypted => decrypted.map some

/-! ## Commands -/

/-- What the worker sends back on the reply channel of a command. -/
inductive Reply where
  | saved (result : Except StorageError Unit)
  | found (result : Except StorageError (Option String))

/-- Carry out a command.  The updates of times have no reply channel; no
result means that the worker panics. -/
def handle (cipher : KeyCipher) (worker : StorageWorker)
    (nonce : List UInt8) (statement : Except String Unit) :
    StorageCommand → Option (StorageWorker × Option Reply)
  | .saveMetadata metadata =>
      let saved := worker.saveMetadata metadata statement
      some (saved.1, some (.saved saved.2))
  | .updateDeliveredTimeAsync messageId time =>
      some (worker.updateDeliveredTimeAsync messageId time statement, none)
  | .updateAcknowledgedTimeAsync messageId time =>
      some (worker.updateAcknowledgedTimeAsync messageId time statement, none)
  | .getClientIdForMessage messageId =>
      some (worker,
        some (.found (worker.getClientIdForMessage messageId statement)))
  | .savePublicKey keyData =>
      (worker.savePublicKey cipher keyData nonce statement).map fun saved =>
        (saved.1, some (.saved saved.2))
  | .getPublicKey clientId =>
      (worker.getPublicKey cipher clientId statement).map fun found =>
        (worker, some (.found found))

/-! ## What the worker knows of acknowledgements -/

/-- The row of a message or the buffer holds an acknowledgement time. -/
def Acknowledged (worker : StorageWorker) (messageId : String) : Prop :=
  ((worker.messageMetadata.lookup messageId).bind
      MessageMetadata.acknowledgedTime).isSome ∨
    (bufferedTime worker.acknowledgedUpdates messageId).isSome

instance (worker : StorageWorker) (messageId : String) :
    Decidable (worker.Acknowledged messageId) :=
  inferInstanceAs (Decidable (_ ∨ _))

/-- No row is lost, and only messages of `acknowledges` become
acknowledged. -/
structure Advances (acknowledges : String → Prop)
    (before after : StorageWorker) : Prop where
  rows : ∀ messageId, (before.messageMetadata.lookup messageId).isSome →
    (after.messageMetadata.lookup messageId).isSome
  acknowledged : ∀ messageId, after.Acknowledged messageId →
    before.Acknowledged messageId ∨ acknowledges messageId

theorem Advances.refl (acknowledges : String → Prop)
    (worker : StorageWorker) : Advances acknowledges worker worker :=
  ⟨fun _ present => present, fun _ known => Or.inl known⟩

theorem Advances.trans {acknowledges : String → Prop}
    {first second third : StorageWorker}
    (begins : Advances acknowledges first second)
    (goesOn : Advances acknowledges second third) :
    Advances acknowledges first third where
  rows messageId present :=
    goesOn.rows messageId (begins.rows messageId present)
  acknowledged messageId known := by
    rcases goesOn.acknowledged messageId known with earlier | isNew
    · exact begins.acknowledged messageId earlier
    · exact Or.inr isNew

variable (worker : StorageWorker)

theorem lookup_saveMetadata (metadata : MessageMetadata)
    (messageId : String) :
    (worker.saveMetadata metadata (.ok ())).1.messageMetadata.lookup
        messageId =
      if messageId = metadata.messageId then
        some (((worker.messageMetadata.lookup metadata.messageId).map
          fun old => old.merge metadata).getD metadata)
      else
        worker.messageMetadata.lookup messageId := by
  simp only [saveMetadata]
  rw [Table.lookup_upsert]

theorem lookup_flushDeliveredUpdates (messageId : String) :
    (worker.flushDeliveredUpdates (.ok ())).messageMetadata.lookup
        messageId =
      (worker.messageMetadata.lookup messageId).map fun row =>
        row.fillDelivered
          (bufferedTime worker.deliveredUpdates row.messageId) := by
  simp only [flushDeliveredUpdates]
  rw [Table.lookup_updateAll]

theorem lookup_flushAcknowledgedUpdates (messageId : String) :
    (worker.flushAcknowledgedUpdates (.ok ())).messageMetadata.lookup
        messageId =
      (worker.messageMetadata.lookup messageId).map fun row =>
        row.fillAcknowledged
          (bufferedTime worker.acknowledgedUpdates row.messageId) := by
  simp only [flushAcknowledgedUpdates]
  rw [Table.lookup_updateAll]

theorem advances_saveMetadata (acknowledges : String → Prop)
    {metadata : MessageMetadata}
    (unacknowledged : metadata.acknowledgedTime = none)
    (statement : Except String Unit) :
    Advances acknowledges worker
      (worker.saveMetadata metadata statement).1 := by
  cases statement with
  | error error => exact .refl _ worker
  | ok _ =>
      constructor
      · intro messageId present
        rw [lookup_saveMetadata]
        split
        · rfl
        · exact present
      · rintro messageId (inRow | inBuffer)
        · left
          left
          rw [lookup_saveMetadata] at inRow
          split at inRow
          · rename_i same
            subst same
            cases found : worker.messageMetadata.lookup metadata.messageId with
            | none => simp [found, unacknowledged] at inRow
            | some old => simpa [found, MessageMetadata.merge] using inRow
          · exact inRow
        · exact Or.inl (Or.inr inBuffer)

theorem advances_flushDeliveredUpdates (acknowledges : String → Prop)
    (statement : Except String Unit) :
    Advances acknowledges worker
      (worker.flushDeliveredUpdates statement) := by
  cases statement with
  | error error =>
      exact ⟨fun _ present => present, fun _ known => Or.inl known⟩
  | ok _ =>
      constructor
      · intro messageId present
        rw [lookup_flushDeliveredUpdates, Option.isSome_map]
        exact present
      · rintro messageId (inRow | inBuffer)
        · left
          left
          rw [lookup_flushDeliveredUpdates] at inRow
          cases found : worker.messageMetadata.lookup messageId with
          | none => simp [found] at inRow
          | some row =>
              simpa [found, MessageMetadata.fillDelivered] using inRow
        · exact Or.inl (Or.inr inBuffer)

/-- Flushing moves acknowledgement times from the buffer into rows. -/
theorem advances_flushAcknowledgedUpdates (acknowledges : String → Prop)
    (statement : Except String Unit) :
    Advances acknowledges worker
      (worker.flushAcknowledgedUpdates statement) := by
  have emptied : ∀ messageId, (bufferedTime
      (worker.flushAcknowledgedUpdates statement).acknowledgedUpdates
        messageId).isSome = false :=
    fun _ => rfl
  cases statement with
  | error error =>
      refine ⟨fun _ present => present, ?_⟩
      rintro messageId (inRow | inBuffer)
      · exact Or.inl (Or.inl inRow)
      · rw [emptied] at inBuffer
        cases inBuffer
  | ok _ =>
      constructor
      · intro messageId present
        rw [lookup_flushAcknowledgedUpdates, Option.isSome_map]
        exact present
      · rintro messageId (inRow | inBuffer)
        · left
          rw [lookup_flushAcknowledgedUpdates] at inRow
          cases found : worker.messageMetadata.lookup messageId with
          | none => simp [found] at inRow
          | some row =>
              have isRow := Table.key_of_lookup found
              simp only [found, Option.map_some, Option.bind_some,
                MessageMetadata.fillAcknowledged, isRow, Option.isSome_or,
                Bool.or_eq_true] at inRow
              rcases inRow with already | buffered
              · left
                simpa [found] using already
              · exact Or.inr buffered
        · rw [emptied] at inBuffer
          cases inBuffer

theorem bufferedTime_insertUpdate
    (updates : Table (Prod.fst : String × String → String))
    (messageId time other : String) :
    bufferedTime (insertUpdate updates messageId time) other =
      if other = messageId then some time
      else bufferedTime updates other := by
  unfold bufferedTime insertUpdate
  rw [Table.lookup_upsert]
  dsimp only
  split
  · cases updates.lookup messageId <;> rfl
  · rfl

theorem advances_updateDeliveredTimeAsync (acknowledges : String → Prop)
    (messageId time : String) (statement : Except String Unit) :
    Advances acknowledges worker
      (worker.updateDeliveredTimeAsync messageId time statement) := by
  have buffers : Advances acknowledges worker
      { worker with
        deliveredUpdates :=
          insertUpdate worker.deliveredUpdates messageId time } :=
    ⟨fun _ present => present, fun _ known => Or.inl known⟩
  unfold updateDeliveredTimeAsync
  dsimp only
  split
  · exact buffers.trans (advances_flushDeliveredUpdates _ _ statement)
  · exact buffers

theorem advances_updateAcknowledgedTimeAsync
    (messageId time : String) (statement : Except String Unit) :
    Advances (· = messageId) worker
      (worker.updateAcknowledgedTimeAsync messageId time statement) := by
  have buffers : Advances (· = messageId) worker
      { worker with
        acknowledgedUpdates :=
          insertUpdate worker.acknowledgedUpdates messageId time } := by
    refine ⟨fun _ present => present, ?_⟩
    rintro other (inRow | inBuffer)
    · exact Or.inl (Or.inl inRow)
    · rw [bufferedTime_insertUpdate] at inBuffer
      split at inBuffer
      · rename_i same
        exact Or.inr same
      · exact Or.inl (Or.inr inBuffer)
  unfold updateAcknowledgedTimeAsync
  dsimp only
  split
  · exact buffers.trans (advances_flushAcknowledgedUpdates _ _ statement)
  · exact buffers

theorem advances_tick (acknowledges : String → Prop)
    (delivered acknowledged : Except String Unit) :
    Advances acknowledges worker (worker.tick delivered acknowledged) :=
  (advances_flushDeliveredUpdates worker acknowledges delivered).trans
    (advances_flushAcknowledgedUpdates _ acknowledges acknowledged)

/-- Saving a key touches the table of keys only. -/
theorem savePublicKey_eq {cipher : KeyCipher} {keyData : PublicKeyData}
    {nonce : List UInt8} {statement : Except String Unit}
    {saved : StorageWorker × Except StorageError Unit}
    (saves : worker.savePublicKey cipher keyData nonce statement =
      some saved) :
    ∃ publicKeys, saved.1 = { worker with publicKeys := publicKeys } := by
  unfold savePublicKey at saves
  split at saves
  · cases saves
    exact ⟨_, rfl⟩
  · split at saves
    · cases saves
      exact ⟨_, rfl⟩
    · obtain ⟨parts, -, rfl⟩ := Option.map_eq_some_iff.mp saves
      split <;> exact ⟨_, rfl⟩

theorem savePublicKey_frame {cipher : KeyCipher} {keyData : PublicKeyData}
    {nonce : List UInt8} {statement : Except String Unit}
    {saved : StorageWorker × Except StorageError Unit}
    (saves : worker.savePublicKey cipher keyData nonce statement =
      some saved) :
    saved.1.messageMetadata = worker.messageMetadata ∧
      saved.1.acknowledgedUpdates = worker.acknowledgedUpdates := by
  obtain ⟨publicKeys, isSaved⟩ := worker.savePublicKey_eq saves
  rw [isSaved]
  exact ⟨rfl, rfl⟩

end StorageWorker

end CipherMQ
