import CipherMQ.EndToEnd
import Mathlib.Data.List.AList

/-!
# The start of the sender

Before it sends anything the sender asks the server for the public keys of its
receivers, one after the other on one connection, and keeps every key it is
given in a file.  When the connection breaks the whole round is repeated, and
files of the broken round stay.  The first round that returns a key settles
which receivers there are; when none does, the files left by earlier runs do.
Messages are encrypted with the keys in the files.
-/

namespace CipherMQ

namespace Sender

def keyPath (receiverId : String) : String :=
  "keys/" ++ receiverId ++ "_public.key"

theorem keyPath_injective : Function.Injective keyPath := by
  intro first second same
  have lists := congrArg String.toList same
  simp only [keyPath, String.toList_append] at lists
  exact String.toList_inj.mp
    (List.append_cancel_left (List.append_cancel_right lists))

/-- The keys that were returned, under the names of the receivers. -/
abbrev ReceiverKeys := AList fun _ : String => String

/-- What becomes of one connection to the server: whether it is opened and the
bindings are declared on it, what is read in answer to each question, and
whether each key can be written to its file. -/
structure KeyRound where
  configured : Except String Unit
  reply : Nat → Except String String
  saves : Nat → Bool

/-- Ask for the keys of the receivers from the one at `index` on.  The files
are kept also when the connection breaks. -/
def askForKeys (round : KeyRound) (index : Nat) :
    List String → KeyMap String String → ReceiverKeys →
      Except String ReceiverKeys × KeyMap String String
  | [], keyFiles, keys => (.ok keys, keyFiles)
  | receiverId :: receiverIds, keyFiles, keys =>
      match round.reply index with
      | .error text => (.error text, keyFiles)
      | .ok reply =>
          match parsePublicKey reply with
          | none => askForKeys round (index + 1) receiverIds keyFiles keys
          | some key =>
              -- A key that cannot be saved still counts as one.
              let keyFiles := if round.saves index then
                keyFiles.insert (keyPath receiverId) key else keyFiles
              askForKeys round (index + 1) receiverIds keyFiles
                (keys.insert receiverId key)

def fetchAllPublicKeysOnce (receiverIds : List String) (round : KeyRound)
    (keyFiles : KeyMap String String) :
    Except String ReceiverKeys × KeyMap String String :=
  match round.configured with
  | .error text => (.error text, keyFiles)
  | .ok () => askForKeys round 0 receiverIds keyFiles ∅

def fetchAllPublicKeys (receiverIds : List String) :
    List KeyRound → KeyMap String String →
      ReceiverKeys × KeyMap String String
  | [], keyFiles => (∅, keyFiles)
  | round :: rounds, keyFiles =>
      match fetchAllPublicKeysOnce receiverIds round keyFiles with
      | (.error _, keyFiles) => fetchAllPublicKeys receiverIds rounds keyFiles
      | (.ok keys, keyFiles) =>
          if keys.keys.isEmpty then
            fetchAllPublicKeys receiverIds rounds keyFiles
          else
            (keys, keyFiles)

def localKeys (keyFiles : KeyMap String String) :
    List String → ReceiverKeys → ReceiverKeys
  | [], keys => keys
  | receiverId :: receiverIds, keys =>
      localKeys keyFiles receiverIds
        (match keyFiles (keyPath receiverId) with
        | none => keys
        | some key =>
            keys.insert receiverId (String.ofList (Text.trim key.toList)))

/-- The keys the sender goes on with, and the files it has then.  It ends here
when there is no key. -/
def publicKeys (receiverIds : List String) (rounds : List KeyRound)
    (keyFiles : KeyMap String String) : ReceiverKeys × KeyMap String String :=
  let fetched := fetchAllPublicKeys receiverIds rounds keyFiles
  if fetched.1.keys.isEmpty then
    (localKeys fetched.2 receiverIds ∅, fetched.2)
  else
    fetched

/-! ## One round -/

def KeyRound.ReturnsAt (round : KeyRound) (receiverIds : List String)
    (index : Nat) (receiverId key : String) : Prop :=
  receiverIds[index]? = some receiverId ∧
    ∃ reply, round.reply index = .ok reply ∧ parsePublicKey reply = some key

def ValidFiles (valid : String → String → Prop) (receiverIds : List String)
    (keyFiles : KeyMap String String) : Prop :=
  ∀ receiverId ∈ receiverIds, ∀ key,
    keyFiles (keyPath receiverId) = some key → valid receiverId key

/-- Before the question at the index the map has the receivers whose keys were
returned, and each of them has its key in its file. -/
structure Gathered (valid : String → String → Prop)
    (receiverIds : List String) (round : KeyRound) (index : Nat)
    (keyFiles : KeyMap String String) (keys : ReceiverKeys) : Prop where
  validFiles : ValidFiles valid receiverIds keyFiles
  present : ∀ receiverId ∈ keys,
    ∃ key, keyFiles (keyPath receiverId) = some key
  mem_iff : ∀ receiverId, receiverId ∈ keys ↔
    ∃ earlier < index, ∃ key,
      round.ReturnsAt receiverIds earlier receiverId key

section Round

variable {valid : String → String → Prop} {receiverIds : List String}
  {round : KeyRound} {index : Nat} {keyFiles : KeyMap String String}
  {keys : ReceiverKeys}

theorem gathered_start (validFiles : ValidFiles valid receiverIds keyFiles) :
    Gathered valid receiverIds round 0 keyFiles ∅ :=
  ⟨validFiles, by simp, by simp⟩

/-- What the server has answered up to a question depends on the answer to the
question. -/
theorem returnsBefore_succ (receiverId : String) :
    (∃ earlier < index + 1, ∃ key,
        round.ReturnsAt receiverIds earlier receiverId key) ↔
      (∃ key, round.ReturnsAt receiverIds index receiverId key) ∨
        ∃ earlier < index, ∃ key,
          round.ReturnsAt receiverIds earlier receiverId key := by
  simp only [Nat.lt_succ_iff_lt_or_eq, or_and_right, exists_or,
    exists_eq_left]
  exact or_comm

theorem Gathered.skip
    (gathered : Gathered valid receiverIds round index keyFiles keys)
    {reply : String} (replies : round.reply index = .ok reply)
    (noKey : parsePublicKey reply = none) :
    Gathered valid receiverIds round (index + 1) keyFiles keys where
  validFiles := gathered.validFiles
  present := gathered.present
  mem_iff receiverId := by
    have notNow : ¬ ∃ key,
        round.ReturnsAt receiverIds index receiverId key := by
      rintro ⟨key, -, other, otherReplies, isKey⟩
      rw [replies] at otherReplies
      cases otherReplies
      rw [noKey] at isKey
      cases isKey
    rw [returnsBefore_succ, gathered.mem_iff]
    exact (or_iff_right notNow).symm

theorem Gathered.take
    (gathered : Gathered valid receiverIds round index keyFiles keys)
    {receiverId key : String}
    (returns : round.ReturnsAt receiverIds index receiverId key)
    (isValid : valid receiverId key) :
    Gathered valid receiverIds round (index + 1)
      (keyFiles.insert (keyPath receiverId) key)
      (keys.insert receiverId key) where
  validFiles id isMember other isKey := by
    simp only [KeyMap.insert_apply, keyPath_injective.eq_iff] at isKey
    split at isKey
    · rename_i same
      cases isKey
      exact same ▸ isValid
    · exact gathered.validFiles id isMember other isKey
  present id isMember := by
    simp only [KeyMap.insert_apply, keyPath_injective.eq_iff]
    split
    · exact ⟨key, rfl⟩
    · rename_i different
      exact gathered.present id
        ((AList.mem_insert keys).mp isMember |>.resolve_left different)
  mem_iff id := by
    have now : (∃ key, round.ReturnsAt receiverIds index id key) ↔
        id = receiverId := by
      constructor
      · rintro ⟨other, isAt, -⟩
        rw [returns.1] at isAt
        exact (Option.some.inj isAt).symm
      · rintro rfl
        exact ⟨key, returns⟩
    rw [AList.mem_insert, returnsBefore_succ, gathered.mem_iff, now]

theorem gathered_askForKeys (saves : ∀ index, round.saves index = true)
    (valids : ∀ index receiverId key,
      round.ReturnsAt receiverIds index receiverId key →
        valid receiverId key)
    (rest : List String) (isRest : receiverIds.drop index = rest)
    (gathered : Gathered valid receiverIds round index keyFiles keys) :
    ∃ last found, Gathered valid receiverIds round last
        (askForKeys round index rest keyFiles keys).2 found ∧
      ∀ returned, (askForKeys round index rest keyFiles keys).1 =
        .ok returned → returned = found ∧ receiverIds.length ≤ last := by
  induction rest generalizing index keyFiles keys with
  | nil =>
      refine ⟨index, keys, gathered, fun returned isReturned => ?_⟩
      cases isReturned
      exact ⟨rfl, List.drop_eq_nil_iff.mp isRest⟩
  | cons receiverId rest ih =>
      have isAt : receiverIds[index]? = some receiverId := by
        rw [← List.head?_drop, isRest]
        rfl
      have isTail : receiverIds.drop (index + 1) = rest := by
        rw [← List.tail_drop, isRest]
        rfl
      unfold askForKeys
      split
      · exact ⟨index, keys, gathered, fun _ isReturned => nomatch isReturned⟩
      · rename_i reply replies
        split
        · rename_i noKey
          exact ih isTail (gathered.skip replies noKey)
        · rename_i key isKey
          have returns : round.ReturnsAt receiverIds index receiverId key :=
            ⟨isAt, reply, replies, isKey⟩
          simp only [saves, if_true]
          exact ih isTail
            (gathered.take returns (valids index receiverId key returns))

/-- A round that ends has the receivers whose keys were returned. -/
theorem fetchAllPublicKeysOnce_spec
    (saves : ∀ index, round.saves index = true)
    (valids : ∀ index receiverId key,
      round.ReturnsAt receiverIds index receiverId key →
        valid receiverId key)
    (validFiles : ValidFiles valid receiverIds keyFiles) :
    ValidFiles valid receiverIds
        (fetchAllPublicKeysOnce receiverIds round keyFiles).2 ∧
      ∀ keys, (fetchAllPublicKeysOnce receiverIds round keyFiles).1 =
        .ok keys →
          (∀ receiverId ∈ keys, ∃ key,
            (fetchAllPublicKeysOnce receiverIds round keyFiles).2
              (keyPath receiverId) = some key) ∧
          ∀ receiverId, receiverId ∈ keys ↔
            ∃ index key, round.ReturnsAt receiverIds index receiverId key := by
  unfold fetchAllPublicKeysOnce
  split
  · exact ⟨validFiles, fun _ isReturned => nomatch isReturned⟩
  · obtain ⟨last, found, gathered, ends⟩ := gathered_askForKeys saves valids
      receiverIds List.drop_zero (gathered_start validFiles)
    refine ⟨gathered.validFiles, fun keys isReturned => ?_⟩
    obtain ⟨rfl, isLast⟩ := ends keys isReturned
    refine ⟨gathered.present, fun receiverId => ?_⟩
    rw [gathered.mem_iff]
    constructor
    · rintro ⟨index, -, returns⟩
      exact ⟨index, returns⟩
    · rintro ⟨index, key, returns⟩
      have isIndex := (List.getElem?_eq_some_iff.mp returns.1).1
      exact ⟨index, by omega, key, returns⟩

end Round

/-! ## All rounds -/

/-- What is known of a map of keys: its receivers have valid keys in their
files, and unless there are none they are those that one of the rounds has
returned keys for. -/
structure Fetched (valid : String → String → Prop)
    (receiverIds : List String) (rounds : List KeyRound)
    (fetched : ReceiverKeys × KeyMap String String) : Prop where
  validFiles : ValidFiles valid receiverIds fetched.2
  present : ∀ receiverId ∈ fetched.1,
    ∃ key, fetched.2 (keyPath receiverId) = some key
  settled : fetched.1.keys = [] ∨ ∃ round ∈ rounds, ∀ receiverId,
    receiverId ∈ fetched.1 ↔
      ∃ index key, round.ReturnsAt receiverIds index receiverId key

section Rounds

variable {valid : String → String → Prop} {receiverIds : List String}
  {rounds : List KeyRound} {keyFiles : KeyMap String String}

theorem Fetched.cons {round : KeyRound}
    {fetched : ReceiverKeys × KeyMap String String}
    (later : Fetched valid receiverIds rounds fetched) :
    Fetched valid receiverIds (round :: rounds) fetched where
  validFiles := later.validFiles
  present := later.present
  settled := later.settled.imp_right fun ⟨other, isRound, settles⟩ =>
    ⟨other, List.mem_cons_of_mem _ isRound, settles⟩

theorem fetched_fetchAllPublicKeys
    (saves : ∀ round ∈ rounds, ∀ index, round.saves index = true)
    (valids : ∀ round ∈ rounds, ∀ index receiverId key,
      round.ReturnsAt receiverIds index receiverId key →
        valid receiverId key)
    (validFiles : ValidFiles valid receiverIds keyFiles) :
    Fetched valid receiverIds rounds
      (fetchAllPublicKeys receiverIds rounds keyFiles) := by
  induction rounds generalizing keyFiles with
  | nil => exact ⟨validFiles, by simp [fetchAllPublicKeys], Or.inl rfl⟩
  | cons round rounds ih =>
      obtain ⟨stillValid, returned⟩ := fetchAllPublicKeysOnce_spec
        (saves round List.mem_cons_self) (valids round List.mem_cons_self)
        validFiles
      have later := ih
        (fun other isRound => saves other (List.mem_cons_of_mem _ isRound))
        (fun other isRound => valids other (List.mem_cons_of_mem _ isRound))
        stillValid
      unfold fetchAllPublicKeys
      split
      · rename_i isOnce
        rw [isOnce] at later
        exact later.cons
      · rename_i keys after isOnce
        rw [isOnce] at later stillValid returned
        split
        · exact later.cons
        · obtain ⟨present, settles⟩ := returned keys rfl
          exact ⟨stillValid, present,
            Or.inr ⟨round, List.mem_cons_self, settles⟩⟩

theorem mem_localKeys (keys : ReceiverKeys) (receiverId : String) :
    receiverId ∈ localKeys keyFiles receiverIds keys ↔
      receiverId ∈ keys ∨ receiverId ∈ receiverIds ∧
        ∃ key, keyFiles (keyPath receiverId) = some key := by
  induction receiverIds generalizing keys with
  | nil => simp [localKeys]
  | cons other receiverIds ih =>
      rw [localKeys, ih]
      by_cases same : receiverId = other
      · subst same
        cases keyFiles (keyPath receiverId) <;> simp
      · cases keyFiles (keyPath other) <;> simp [same]

/-- The sender goes on with the receivers that one of the rounds has returned
keys for, or with those that have a file. -/
theorem publicKeys_spec
    (saves : ∀ round ∈ rounds, ∀ index, round.saves index = true)
    (valids : ∀ round ∈ rounds, ∀ index receiverId key,
      round.ReturnsAt receiverIds index receiverId key →
        valid receiverId key)
    (validFiles : ValidFiles valid receiverIds keyFiles)
    {keys : ReceiverKeys} {after : KeyMap String String}
    (isStart : publicKeys receiverIds rounds keyFiles = (keys, after)) :
    (∀ receiverId ∈ keys,
      ∃ key, after (keyPath receiverId) = some key ∧ valid receiverId key) ∧
    ((∃ round ∈ rounds, ∀ receiverId, receiverId ∈ keys ↔
        ∃ index key, round.ReturnsAt receiverIds index receiverId key) ∨
      ∀ receiverId, receiverId ∈ keys ↔ receiverId ∈ receiverIds ∧
        ∃ key, after (keyPath receiverId) = some key) := by
  have fetched := fetched_fetchAllPublicKeys saves valids validFiles
  unfold publicKeys at isStart
  dsimp only at isStart
  split at isStart
  · cases isStart
    have isLocal : ∀ receiverId,
        receiverId ∈ localKeys
            (fetchAllPublicKeys receiverIds rounds keyFiles).2 receiverIds ∅ ↔
          receiverId ∈ receiverIds ∧ ∃ key,
            (fetchAllPublicKeys receiverIds rounds keyFiles).2
              (keyPath receiverId) = some key := by
      intro receiverId
      rw [mem_localKeys]
      exact or_iff_right (AList.notMem_empty receiverId)
    refine ⟨fun receiverId isMember => ?_, Or.inr isLocal⟩
    obtain ⟨isReceiver, key, isKey⟩ := (isLocal receiverId).mp isMember
    exact ⟨key, isKey, fetched.validFiles receiverId isReceiver key isKey⟩
  · rename_i nonempty
    rw [isStart] at fetched nonempty
    rcases fetched.settled with isEmpty | ⟨round, isRound, settles⟩
    · exact absurd (List.isEmpty_iff.mpr isEmpty) nonempty
    · refine ⟨fun receiverId isMember => ?_, Or.inl ⟨round, isRound, settles⟩⟩
      obtain ⟨index, _, isAt, -⟩ := (settles receiverId).mp isMember
      obtain ⟨key, isKey⟩ := fetched.present receiverId isMember
      exact ⟨key, isKey, fetched.validFiles receiverId
        (List.mem_of_getElem? isAt) key isKey⟩

end Rounds

/-! ## What is encrypted then -/

section Encryption

variable {primitives : Primitives} {keyFiles : KeyMap String String}

/-- A message is encrypted for every receiver with a public key in its
file. -/
theorem map_receiverClientId_encryptForAllReceivers
    (lawful : primitives.Lawful) {privateKeys : String → Octets 32}
    (receiverIds : List String)
    (haveKeys : ∀ receiverId ∈ receiverIds,
      keyFiles (keyPath receiverId) = some (Base64.encode
        (primitives.publicKey (privateKeys receiverId)).bytes))
    (routingMap : KeyMap String String) (message : PlainMessage)
    (draw : String → Randomness × String) :
    (encryptForAllReceivers primitives receiverIds keyFiles routingMap message
        draw).map EncryptedMessage.receiverClientId = receiverIds ∧
      ∀ encrypted ∈ encryptForAllReceivers primitives receiverIds keyFiles
          routingMap message draw,
        Receiver.decryptMessage primitives encrypted.input.envelope
          (privateKeys encrypted.receiverClientId) =
            some (.ok message.content) := by
  induction receiverIds with
  | nil => exact ⟨rfl, by simp [encryptForAllReceivers]⟩
  | cons receiverId receiverIds ih =>
      obtain ⟨names, decrypt⟩ := ih fun other isMember =>
        haveKeys other (List.mem_cons_of_mem _ isMember)
      obtain ⟨encrypted, encrypts, decrypts, -, isFor⟩ :=
        exists_encryptMessage lawful message (privateKeys receiverId)
          receiverId
          ((routingMap (receiverId ++ "_queue")).getD (receiverId ++ "_key"))
          (draw receiverId).1 (draw receiverId).2
      have isEncrypted : encryptForReceiver primitives keyFiles routingMap
          message receiverId (draw receiverId).1 (draw receiverId).2 =
            some encrypted := by
        have isKey := haveKeys receiverId List.mem_cons_self
        unfold keyPath at isKey
        simp only [encryptForReceiver, isKey, trim_encode, encrypts,
          Except.toOption]
      have isAll : encryptForAllReceivers primitives
          (receiverId :: receiverIds) keyFiles routingMap message draw =
            encrypted :: encryptForAllReceivers primitives receiverIds
              keyFiles routingMap message draw :=
        List.filterMap_cons_some isEncrypted
      rw [isAll]
      refine ⟨?_, ?_⟩
      · rw [List.map_cons, names, isFor]
      · rintro other (_ | ⟨_, isMember⟩)
        · rw [isFor]
          exact decrypts
        · exact decrypt other isMember

/-- When every key can be saved, each message is encrypted for every receiver
the sender has settled on at its start, in whatever order, and each of them can
decrypt it.  The receivers are those a single round has returned keys for, or
those with a file: one that registers its key later gets nothing. -/
theorem encrypted_for_settled_receivers (lawful : primitives.Lawful)
    {cipher : KeyCipher} (cipherLawful : cipher.Lawful) {codec : Codec}
    {privateKeys : String → Octets 32} {receiverIds : List String}
    {rounds : List KeyRound}
    (saves : ∀ round ∈ rounds, ∀ index, round.saves index = true)
    (exchanged : ∀ round ∈ rounds, ∀ index receiverId key,
      round.ReturnsAt receiverIds index receiverId key →
        KeysExchanged primitives cipher codec receiverId
          (privateKeys receiverId) key)
    (validFiles : ValidFiles (fun receiverId => KeysExchanged primitives
      cipher codec receiverId (privateKeys receiverId)) receiverIds keyFiles)
    {keys : ReceiverKeys} {after : KeyMap String String}
    (isStart : publicKeys receiverIds rounds keyFiles = (keys, after))
    {order : List String} (isOrder : order.Perm keys.keys)
    (routingMap : KeyMap String String) (message : PlainMessage)
    (draw : String → Randomness × String) :
    (encryptForAllReceivers primitives order after routingMap message
        draw).map EncryptedMessage.receiverClientId = order ∧
    (∀ encrypted ∈ encryptForAllReceivers primitives order after routingMap
        message draw,
      Receiver.decryptMessage primitives encrypted.input.envelope
        (privateKeys encrypted.receiverClientId) =
          some (.ok message.content)) ∧
    ((∃ round ∈ rounds, ∀ receiverId, receiverId ∈ order ↔
        ∃ index key, round.ReturnsAt receiverIds index receiverId key) ∨
      ∀ receiverId, receiverId ∈ order ↔ receiverId ∈ receiverIds ∧
        ∃ key, after (keyPath receiverId) = some key) := by
  have isMember : ∀ receiverId, receiverId ∈ order ↔ receiverId ∈ keys :=
    fun receiverId => isOrder.mem_iff.trans AList.mem_keys
  obtain ⟨haveKeys, settled⟩ :=
    publicKeys_spec saves exchanged validFiles isStart
  have arePublic : ∀ receiverId ∈ order, after (keyPath receiverId) =
      some (Base64.encode
        (primitives.publicKey (privateKeys receiverId)).bytes) := by
    intro receiverId isReceiver
    obtain ⟨key, isKey, isExchanged⟩ :=
      haveKeys receiverId ((isMember receiverId).mp isReceiver)
    rw [isKey, isExchanged.keyText_eq cipherLawful]
  obtain ⟨names, decrypt⟩ := map_receiverClientId_encryptForAllReceivers
    lawful order arePublic routingMap message draw
  simp only [isMember]
  exact ⟨names, decrypt, settled⟩

end Encryption

end Sender

namespace SampleExchange

/-- The server answers the first question, and then the connection breaks or
there is no second key. -/
def keyRound (second : Except String String) : Sender.KeyRound where
  configured := .ok ()
  reply
    | 0 => .ok "Public key: B6N8vBQgk8i3VdwbEOhstCY3StFqqFPtC9/AsrhtHHw=\n"
    | _ => second
  saves _ := true

theorem keysExchanged_of_returnsAt {second : Except String String}
    (noKey : ∀ reply, second = .ok reply →
      Sender.parsePublicKey reply = none)
    (index : Nat) (receiverId key : String)
    (returns : (keyRound second).ReturnsAt ["receiver_1", "receiver_2"] index
      receiverId key) :
    KeysExchanged primitives Sender.sampleCipher jsonReader.codec receiverId
      privateKey key := by
  obtain ⟨isAt, reply, replies, isKey⟩ := returns
  cases index with
  | zero =>
      cases isAt
      cases replies
      have parsed : Sender.parsePublicKey
          "Public key: B6N8vBQgk8i3VdwbEOhstCY3StFqqFPtC9/AsrhtHHw=\n" =
            some "B6N8vBQgk8i3VdwbEOhstCY3StFqqFPtC9/AsrhtHHw=" := by
        decide +kernel
      rw [parsed] at isKey
      cases isKey
      exact keysExchanged
  | succ index =>
      rw [noKey reply replies] at isKey
      cases isKey

def keyRounds : List Sender.KeyRound :=
  [keyRound (.error "connection reset by peer"),
    keyRound (.ok "Public key not found\n")]

theorem encrypted_for_settled_receivers_hello :
    (Sender.encryptForAllReceivers primitives ["receiver_1"]
        (Sender.publicKeys ["receiver_1", "receiver_2"] keyRounds .empty).2
        .empty hello
        (fun _ => (⟨ephemeralSecret, sessionKey, nonce⟩,
          "2026-01-01T00:00:00+00:00"))).map
      Sender.EncryptedMessage.receiverClientId = ["receiver_1"] := by
  have noKey : Sender.parsePublicKey "Public key not found\n" = none := by
    decide +kernel
  have saves : ∀ round ∈ keyRounds, ∀ index, round.saves index = true := by
    simp [keyRounds, keyRound]
  have exchanged : ∀ round ∈ keyRounds, ∀ index receiverId key,
      round.ReturnsAt ["receiver_1", "receiver_2"] index receiverId key →
        KeysExchanged primitives Sender.sampleCipher jsonReader.codec
          receiverId ((fun _ => privateKey) receiverId) key := by
    simp only [keyRounds, List.forall_mem_cons]
    refine ⟨keysExchanged_of_returnsAt fun reply isReply => ?_,
      keysExchanged_of_returnsAt fun reply isReply => ?_, by simp⟩
    · cases isReply
    · cases isReply
      exact noKey
  have isStart : Sender.publicKeys ["receiver_1", "receiver_2"] keyRounds
      .empty = (_, _) :=
    Prod.mk.eta.symm
  have isOrder : (Sender.publicKeys ["receiver_1", "receiver_2"] keyRounds
      .empty).1.keys = ["receiver_1"] := by
    decide +kernel
  exact (Sender.encrypted_for_settled_receivers primitives_lawful
    Sender.sampleCipher_lawful saves exchanged
    (fun _ _ _ isFile => by cases isFile) isStart (.of_eq isOrder.symm)
    .empty hello _).1

end SampleExchange

end CipherMQ
