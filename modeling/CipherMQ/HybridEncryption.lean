import Mathlib.Data.List.TakeDrop
import Mathlib.Logic.Equiv.Basic
import CipherMQ.Base64
import CipherMQ.ReceiverClient
import CipherMQ.Utf8

/-!
# Hybrid encryption

The sender encrypts the content of a message under a fresh session key, and
the session key under the public key of the receiver, in a sealed box: the
ephemeral public key followed by a ciphertext under the secret that the
ephemeral and the receiver's key agree on.  The receiver takes the two apart
again.  The primitives come from libraries and are parameters; both programs
use the same ones.
-/

namespace CipherMQ

structure Aead (Key Nonce : Type) where
  encrypt : Key → Nonce → List UInt8 → Except String (List UInt8)
  decrypt : Key → Nonce → List UInt8 → Except String (List UInt8)

/-- Every plaintext can be encrypted, and is what its ciphertext decrypts to
under the same key and nonce. -/
def Aead.Inverts {Key Nonce : Type} (aead : Aead Key Nonce) : Prop :=
  ∀ key nonce plain, ∃ encrypted,
    aead.encrypt key nonce plain = .ok encrypted ∧
      aead.decrypt key nonce encrypted = .ok plain

structure Octets (length : Nat) where
  bytes : List UInt8
  isLength : bytes.length = length
  deriving DecidableEq

namespace Octets

def ofList? (length : Nat) (bytes : List UInt8) : Option (Octets length) :=
  if isLength : bytes.length = length then some ⟨bytes, isLength⟩ else none

@[simp]
theorem ofList?_bytes {length : Nat} (octets : Octets length) :
    ofList? length octets.bytes = some octets :=
  dif_pos octets.isLength

end Octets

/-- The primitives: X25519, Blake2b with 64 bytes of output,
XSalsa20-Poly1305 and ChaCha20-Poly1305. -/
structure Primitives where
  publicKey : Octets 32 → Octets 32
  diffieHellman : Octets 32 → Octets 32 → Octets 32
  blake2b : List UInt8 → Octets 64
  box : Aead (Octets 32) (Octets 24)
  chacha : Aead (Octets 32) (Octets 12)

structure Primitives.Lawful (primitives : Primitives) : Prop where
  agreement : ∀ first second,
    primitives.diffieHellman first (primitives.publicKey second) =
      primitives.diffieHellman second (primitives.publicKey first)
  box : primitives.box.Inverts
  chacha : primitives.chacha.Inverts

/-- The nonce of a sealed box: the first 24 bytes of the hash of the two
public keys. -/
def boxNonce (primitives : Primitives) (ephemeral recipient : Octets 32) :
    Octets 24 :=
  let hash := primitives.blake2b (ephemeral.bytes ++ recipient.bytes)
  ⟨hash.bytes.take 24, by simp [hash.isLength]⟩

/-! ## The sender -/

namespace Sender

structure PlainMessage where
  correlationId : String
  senderId : String
  content : String
  deriving DecidableEq, Repr

structure EncryptedMessage where
  messageId : String
  receiverClientId : String
  encSessionKey : String
  nonce : String
  ciphertext : String
  sentTime : String
  routingKey : String
  deriving DecidableEq, Repr

structure Randomness where
  ephemeralSecret : Octets 32
  sessionKey : Octets 32
  nonce : Octets 12

def sealedBoxEncrypt (primitives : Primitives) (plaintext : List UInt8)
    (recipient ephemeralSecret : Octets 32) : Except String (List UInt8) :=
  let ephemeral := primitives.publicKey ephemeralSecret
  let shared := primitives.diffieHellman ephemeralSecret recipient
  let nonce := boxNonce primitives ephemeral recipient
  match primitives.box.encrypt shared nonce plaintext with
  | .ok encrypted => .ok (ephemeral.bytes ++ encrypted)
  | .error error => .error ("SealedBox encrypt failed: " ++ error)

def messageIdOf (message : PlainMessage) (receiverClientId : String) :
    String :=
  message.senderId ++ "-" ++ message.correlationId ++ "-" ++
    receiverClientId

def encryptMessage (primitives : Primitives) (message : PlainMessage)
    (publicKeyB64 receiverClientId routingKey : String)
    (random : Randomness) (sentTime : String) :
    Except String EncryptedMessage :=
  match Base64.decode
      (String.ofList (Text.trim publicKeyB64.toList)) with
  | none => .error "Bad Base64 in receiver public key"
  | some bytes =>
      match Octets.ofList? 32 bytes with
      | none => .error "Receiver public key must be 32 bytes"
      | some recipient =>
          match sealedBoxEncrypt primitives random.sessionKey.bytes recipient
              random.ephemeralSecret with
          | .error error => .error error
          | .ok encSessionKey =>
              match primitives.chacha.encrypt random.sessionKey random.nonce
                  (Utf8.encode message.content) with
              | .error error =>
                  .error ("ChaCha20 encrypt failed: " ++ error)
              | .ok ciphertext =>
                  .ok {
                    messageId := messageIdOf message receiverClientId
                    receiverClientId := receiverClientId
                    encSessionKey := Base64.encode encSessionKey
                    nonce := Base64.encode random.nonce.bytes
                    ciphertext := Base64.encode ciphertext
                    sentTime := sentTime
                    routingKey := routingKey }

end Sender

/-! ## The receiver -/

namespace Receiver

def sealedBoxDecrypt (primitives : Primitives) (encSessionKey : List UInt8)
    (privateKey : Octets 32) : Except String (List UInt8) :=
  match Octets.ofList? 32 (encSessionKey.take 32) with
  | none => .error "SealedBox ciphertext too short"
  | some ephemeral =>
      let recipient := primitives.publicKey privateKey
      let shared := primitives.diffieHellman privateKey ephemeral
      let nonce := boxNonce primitives ephemeral recipient
      match primitives.box.decrypt shared nonce (encSessionKey.drop 32) with
      | .ok sessionKey => .ok sessionKey
      | .error error =>
          .error ("SealedBox inner-box decryption failed: " ++ error)

/-- Decrypt the content under the session key.  A session key or a nonce of
the wrong length makes the process panic. -/
def decryptContent (primitives : Primitives)
    (sessionKey nonce ciphertext : List UInt8) :
    Option (Except String String) :=
  match Octets.ofList? 32 sessionKey, Octets.ofList? 12 nonce with
  | some key, some nonce =>
      match primitives.chacha.decrypt key nonce ciphertext with
      | .error error =>
          some (.error ("ChaCha20-Poly1305 decryption failed: " ++ error))
      | .ok plaintext =>
          match Utf8.decode plaintext with
          | some content => some (.ok content)
          | none => some (.error "Decrypted payload is not valid UTF-8")
  | _, _ => none

def decryptMessage (primitives : Primitives) (envelope : EncryptedEnvelope)
    (privateKey : Octets 32) : Option (Except String String) :=
  match Base64.decode envelope.encSessionKey, Base64.decode envelope.nonce,
      Base64.decode envelope.ciphertext with
  | none, _, _ => some (.error "Bad Base64 in enc_session_key")
  | some _, none, _ => some (.error "Bad Base64 in nonce")
  | some _, some _, none => some (.error "Bad Base64 in ciphertext")
  | some encSessionKey, some nonce, some ciphertext =>
      match sealedBoxDecrypt primitives encSessionKey privateKey with
      | .error error => some (.error error)
      | .ok sessionKey =>
          decryptContent primitives sessionKey nonce ciphertext

end Receiver

/-! ## The round trip -/

section RoundTrip

variable {primitives : Primitives}

theorem sealedBoxDecrypt_sealedBoxEncrypt (lawful : primitives.Lawful)
    (plaintext : List UInt8) (privateKey ephemeralSecret : Octets 32) :
    ∃ sealed,
      Sender.sealedBoxEncrypt primitives plaintext
          (primitives.publicKey privateKey) ephemeralSecret = .ok sealed ∧
        Receiver.sealedBoxDecrypt primitives sealed privateKey =
          .ok plaintext := by
  let ephemeral := primitives.publicKey ephemeralSecret
  obtain ⟨encrypted, encrypts, decrypts⟩ := lawful.box
    (primitives.diffieHellman ephemeralSecret
      (primitives.publicKey privateKey))
    (boxNonce primitives ephemeral (primitives.publicKey privateKey))
    plaintext
  refine ⟨ephemeral.bytes ++ encrypted, ?_, ?_⟩
  · unfold Sender.sealedBoxEncrypt
    dsimp only
    rw [encrypts]
  · have header : (ephemeral.bytes ++ encrypted).take 32 = ephemeral.bytes :=
      List.take_left' ephemeral.isLength
    have body : (ephemeral.bytes ++ encrypted).drop 32 = encrypted :=
      List.drop_left' ephemeral.isLength
    unfold Receiver.sealedBoxDecrypt
    rw [header, body, Octets.ofList?_bytes]
    dsimp only
    rw [lawful.agreement privateKey ephemeralSecret, decrypts]

/-- An envelope whose box opens is decrypted under the session key in it. -/
theorem decryptMessage_opened {privateKey : Octets 32}
    {sealed sessionKey : List UInt8}
    (unseals : Receiver.sealedBoxDecrypt primitives sealed privateKey =
      .ok sessionKey) (nonce ciphertext : List UInt8) :
    Receiver.decryptMessage primitives
        ⟨Base64.encode sealed, Base64.encode nonce,
          Base64.encode ciphertext⟩ privateKey =
      Receiver.decryptContent primitives sessionKey nonce ciphertext := by
  simp [Receiver.decryptMessage, unseals]

/-- What the sender encrypts for a receiver, the receiver decrypts to the same
content. -/
theorem decryptMessage_encryptMessage (lawful : primitives.Lawful)
    (message : Sender.PlainMessage) (privateKey : Octets 32)
    (receiverClientId routingKey : String) (random : Sender.Randomness)
    (sentTime : String) :
    ∃ encrypted,
      Sender.encryptMessage primitives message
          (Base64.encode (primitives.publicKey privateKey).bytes)
          receiverClientId routingKey random sentTime = .ok encrypted ∧
        Receiver.decryptMessage primitives
            ⟨encrypted.encSessionKey, encrypted.nonce,
              encrypted.ciphertext⟩ privateKey =
          some (.ok message.content) := by
  obtain ⟨sealed, seals, unseals⟩ :=
    sealedBoxDecrypt_sealedBoxEncrypt lawful random.sessionKey.bytes privateKey
      random.ephemeralSecret
  obtain ⟨ciphertext, encrypts, decrypts⟩ :=
    lawful.chacha random.sessionKey random.nonce
      (Utf8.encode message.content)
  have decoded : Base64.decode (String.ofList (Text.trim
      (Base64.encode (primitives.publicKey privateKey).bytes).toList)) =
        some (primitives.publicKey privateKey).bytes := by
    rw [Base64.toList_encode, Base64.trim_encodeChars]
    exact Base64.decode_encode _
  refine ⟨{
    messageId := Sender.messageIdOf message receiverClientId
    receiverClientId := receiverClientId
    encSessionKey := Base64.encode sealed
    nonce := Base64.encode random.nonce.bytes
    ciphertext := Base64.encode ciphertext
    sentTime := sentTime
    routingKey := routingKey }, ?_, ?_⟩
  · unfold Sender.encryptMessage
    rw [decoded]
    simp [seals, encrypts]
  · rw [decryptMessage_opened unseals]
    simp [Receiver.decryptContent, decrypts]

end RoundTrip

/-! ## A real exchange -/

/-- Bytes given in Base64, cut or filled up to their length. -/
def octets (length : Nat) (text : String) : Octets length :=
  ⟨((Base64.decode text).getD []).takeD length 0, List.takeD_length ..⟩

/-- A cipher that knows one ciphertext, and leaves other texts as they are. -/
def knowing {Key Nonce : Type} [DecidableEq Key] [DecidableEq Nonce]
    (knownKey : Key) (knownNonce : Nonce) (plain encrypted : List UInt8) :
    Aead Key Nonce :=
  let code (key : Key) (nonce : Nonce) (bytes : List UInt8) : List UInt8 :=
    if key = knownKey ∧ nonce = knownNonce then
      Equiv.swap plain encrypted bytes
    else
      bytes
  ⟨fun key nonce bytes => .ok (code key nonce bytes),
    fun key nonce bytes => .ok (code key nonce bytes)⟩

theorem knowing_inverts {Key Nonce : Type} [DecidableEq Key]
    [DecidableEq Nonce] (knownKey : Key) (knownNonce : Nonce)
    (plain encrypted : List UInt8) :
    (knowing knownKey knownNonce plain encrypted).Inverts := by
  intro key nonce bytes
  refine ⟨_, rfl, ?_⟩
  by_cases isKnown : key = knownKey ∧ nonce = knownNonce
  · simp [knowing, isKnown]
  · simp [knowing, isKnown]

/-- The secret two private keys agree on: a known one for one pair, and sums
otherwise. -/
def agreed (one two shared first second : Octets 32) : Octets 32 :=
  if (first = one ∧ second = two) ∨ (first = two ∧ second = one) then
    shared
  else
    ⟨List.zipWith (· + ·) first.bytes second.bytes, by
      simp [first.isLength, second.isLength]⟩

theorem agreed_comm (one two shared first second : Octets 32) :
    agreed one two shared first second =
      agreed one two shared second first := by
  have same : ((first = one ∧ second = two) ∨
      (first = two ∧ second = one)) ↔
        ((second = one ∧ first = two) ∨
          (second = two ∧ first = one)) := by
    tauto
  have sums : List.zipWith (· + ·) first.bytes second.bytes =
      List.zipWith (· + ·) second.bytes first.bytes := by
    rw [List.zipWith_comm]
    simp only [UInt8.add_comm]
  simp only [agreed, same, sums]

namespace SampleExchange

def privateKey : Octets 32 :=
  octets 32 "AQIDBAUGBwgJCgsMDQ4PEBESExQVFhcYGRobHB0eHyA="

def publicKey : Octets 32 :=
  octets 32 "B6N8vBQgk8i3VdwbEOhstCY3StFqqFPtC9/AsrhtHHw="

def ephemeralSecret : Octets 32 :=
  octets 32 "XasIfmJKikt54X+Lg4AO5m87sSkmGLb9HC+LJ/+I4Os="

def ephemeral : Octets 32 :=
  octets 32 "3p7bfXt9wbTTW2HC7OQ1Nz+DQ8hbeGdNrfx+FG+IK08="

def shared : Octets 32 :=
  octets 32 "0U4+tRt7CdcG87TIDPlYKU31vF68UQIZJIkV0E0EcTE="

def hash : Octets 64 :=
  octets 64 ("Sexw0KoGamMAf80RgkCggfGtP8gHNv8Qx6kuHoKUKXHZ7v4yChS6" ++
    "aTMcPbJ1aZaxdVS+huf3MzMU+vwhAcDoow==")

def sessionKey : Octets 32 :=
  octets 32 "AAECAwQFBgcICQoLDA0ODxAREhMUFRYXGBkaGxwdHh8="

def boxed : Octets 48 :=
  octets 48
    "DexuIhIMo0ra3gLXfGgu5uia9NFi8cZU3Q8WZA67HlhBOXiXk/oibVPuPOP7+2yv"

def nonce : Octets 12 :=
  octets 12 "AAECAwQFBgcICQoL"

def ciphertext : Octets 21 :=
  octets 21 "wZ5kbEaPIDMLvtAmZ5ERNYOfYRds"

def keyPairs : Equiv.Perm (Octets 32) :=
  (Equiv.swap ephemeralSecret ephemeral).trans
    (Equiv.swap privateKey publicKey)

def primitives : Primitives where
  publicKey := keyPairs
  diffieHellman secret other :=
    agreed privateKey ephemeralSecret shared secret (keyPairs.symm other)
  blake2b bytes :=
    if bytes = ephemeral.bytes ++ publicKey.bytes then hash
    else ⟨List.replicate 64 0, List.length_replicate⟩
  box := knowing shared
    ⟨hash.bytes.take 24, by simp [hash.isLength]⟩
    sessionKey.bytes boxed.bytes
  chacha := knowing sessionKey nonce (Utf8.encode "Hello")
    ciphertext.bytes

theorem primitives_lawful : primitives.Lawful where
  agreement first second := by
    change agreed _ _ _ first (keyPairs.symm (keyPairs second)) =
      agreed _ _ _ second (keyPairs.symm (keyPairs first))
    rw [Equiv.symm_apply_apply, Equiv.symm_apply_apply]
    exact agreed_comm _ _ _ first second
  box := knowing_inverts _ _ _ _
  chacha := knowing_inverts _ _ _ _

theorem decryptMessage_hello :
    ∃ encrypted,
      Sender.encryptMessage primitives
          ⟨"1a2b3c4d", "sender_1", "Hello"⟩
          "B6N8vBQgk8i3VdwbEOhstCY3StFqqFPtC9/AsrhtHHw=" "receiver_1"
          "receiver_1_key" ⟨ephemeralSecret, sessionKey, nonce⟩
          "2026-01-01T00:00:00+00:00" = .ok encrypted ∧
        encrypted.ciphertext = "wZ5kbEaPIDMLvtAmZ5ERNYOfYRds" ∧
        Receiver.decryptMessage primitives
            ⟨encrypted.encSessionKey, encrypted.nonce,
              encrypted.ciphertext⟩ privateKey =
          some (.ok "Hello") := by
  obtain ⟨encrypted, encrypts, decrypts⟩ :=
    decryptMessage_encryptMessage primitives_lawful
      ⟨"1a2b3c4d", "sender_1", "Hello"⟩ privateKey "receiver_1"
      "receiver_1_key" ⟨ephemeralSecret, sessionKey, nonce⟩
      "2026-01-01T00:00:00+00:00"
  have published : Base64.encode (primitives.publicKey privateKey).bytes =
      "B6N8vBQgk8i3VdwbEOhstCY3StFqqFPtC9/AsrhtHHw=" := by
    decide +kernel
  rw [published] at encrypts
  refine ⟨encrypted, encrypts, ?_, decrypts⟩
  have evaluated : (Sender.encryptMessage primitives
      ⟨"1a2b3c4d", "sender_1", "Hello"⟩
      "B6N8vBQgk8i3VdwbEOhstCY3StFqqFPtC9/AsrhtHHw=" "receiver_1"
      "receiver_1_key" ⟨ephemeralSecret, sessionKey, nonce⟩
      "2026-01-01T00:00:00+00:00").toOption.map
        Sender.EncryptedMessage.ciphertext =
      some "wZ5kbEaPIDMLvtAmZ5ERNYOfYRds" := by
    decide +kernel
  rw [encrypts] at evaluated
  exact Option.some.inj evaluated

end SampleExchange

end CipherMQ
