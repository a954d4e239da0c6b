import CipherMQ.HybridEncryption
import CipherMQ.MessageLines
import CipherMQ.TransitionSystem

/-!
# Messages that end the receiver

`decrypt_message` turns the session key and the nonce of a message into arrays
of fixed length without looking at their lengths, and a slice of another
length makes that panic.  Both come from the message, so whoever may publish
to a receiver chooses them.

The receive loop runs in the main task of the receiver, and nothing catches a
panic there: it ends the process.  This is the process of `Receiver` with that
one way out.
-/

namespace CipherMQ

namespace Receiver

/-- The session key and the nonce have the lengths the ciphers take, or the
message is turned down before they are used. -/
def WellSized (primitives : Primitives) (envelope : EncryptedEnvelope)
    (privateKey : Octets 32) : Prop :=
  ∀ encSessionKey ∈ Base64.decode envelope.encSessionKey,
    ∀ nonce ∈ Base64.decode envelope.nonce,
      (Base64.decode envelope.ciphertext).isSome →
        ∀ sessionKey ∈
            (sealedBoxDecrypt primitives encSessionKey privateKey).toOption,
          sessionKey.length = 32 ∧ nonce.length = 12

instance (primitives : Primitives) (envelope : EncryptedEnvelope)
    (privateKey : Octets 32) :
    Decidable (WellSized primitives envelope privateKey) :=
  inferInstanceAs (Decidable (∀ encSessionKey ∈ _, ∀ nonce ∈ _, _ →
    ∀ sessionKey ∈ _, _))

theorem isSome_ofList? (length : Nat) (bytes : List UInt8) :
    (Octets.ofList? length bytes).isSome ↔ bytes.length = length := by
  unfold Octets.ofList?
  split
  · simpa
  · simpa

theorem decryptContent_isSome_iff (primitives : Primitives)
    (sessionKey nonce ciphertext : List UInt8) :
    (decryptContent primitives sessionKey nonce ciphertext).isSome ↔
      sessionKey.length = 32 ∧ nonce.length = 12 := by
  rw [← isSome_ofList? 32 sessionKey, ← isSome_ofList? 12 nonce]
  unfold decryptContent
  cases Octets.ofList? 32 sessionKey with
  | none => simp
  | some key =>
      cases Octets.ofList? 12 nonce with
      | none => simp
      | some nonce =>
          simp only [Option.isSome_some, and_self, iff_true]
          cases primitives.chacha.decrypt key nonce ciphertext with
          | error error => rfl
          | ok plaintext =>
              dsimp only
              cases Utf8.decode plaintext <;> rfl

/-- Whatever the primitives answer, `decrypt_message` returns exactly on the
envelopes that are well sized. -/
theorem decryptMessage_isSome_iff (primitives : Primitives)
    (envelope : EncryptedEnvelope) (privateKey : Octets 32) :
    (decryptMessage primitives envelope privateKey).isSome ↔
      WellSized primitives envelope privateKey := by
  unfold decryptMessage WellSized
  cases Base64.decode envelope.encSessionKey with
  | none => simp
  | some encSessionKey =>
      cases Base64.decode envelope.nonce with
      | none => simp
      | some nonce =>
          cases Base64.decode envelope.ciphertext with
          | none => simp
          | some ciphertext =>
              cases opened : sealedBoxDecrypt primitives encSessionKey
                  privateKey with
              | error error => simp [opened, Except.toOption]
              | ok sessionKey =>
                  simp [opened, Except.toOption, decryptContent_isSome_iff]

end Receiver

/-- How a receiver reads and decrypts what it is sent. -/
structure Decryption where
  parseEnvelope : String → Except String EncryptedEnvelope
  primitives : Primitives
  privateKey : Octets 32

namespace Decryption

def decryptMessage (decryption : Decryption) (envelope : EncryptedEnvelope) :
    Option (Except String String) :=
  Receiver.decryptMessage decryption.primitives envelope
    decryption.privateKey

/-- The results of decryption, where there are any. -/
def decoder (decryption : Decryption) : Decoder where
  parseEnvelope := decryption.parseEnvelope
  decryptMessage envelope :=
    (decryption.decryptMessage envelope).getD (.error "panicked")

def envelopeOf (decryption : Decryption) (processed : List String)
    (line : List Char) : Option EncryptedEnvelope :=
  match parseMessageLine line with
  | none => none
  | some (messageId, payload) =>
      if messageId ∈ processed then none
      else (decryption.parseEnvelope payload).toOption

def opens (decryption : Decryption) (receiver : Receiver) :
    Receiver.Event → Option EncryptedEnvelope
  | .main (.readLine (.line text)) =>
      if receiver.main = .reading then
        decryption.envelopeOf receiver.processed text
      else
        none
  | _ => none

end Decryption

inductive ReceiverProcess where
  | running (receiver : Receiver)
  | panicked
  deriving DecidableEq, Repr

namespace ReceiverProcess

open Receiver

variable {decryption : Decryption}

/-- A step of the receiver, unless it decrypts a message on which decryption
panics.  A process that has panicked is gone. -/
def step (decryption : Decryption) :
    ReceiverProcess → Receiver.Event → Option ReceiverProcess
  | .panicked, _ => none
  | .running receiver, event =>
      match decryption.opens receiver event with
      | some envelope =>
          if (decryption.decryptMessage envelope).isSome then
            (receiver.step decryption.decoder event).map .running
          else
            some .panicked
      | none => (receiver.step decryption.decoder event).map .running

def IsRunning : ReceiverProcess → Prop
  | .running _ => True
  | .panicked => False

def OpensWellSized (decryption : Decryption) :
    ReceiverProcess → Receiver.Event → Prop
  | .running receiver, event =>
      ∀ envelope ∈ decryption.opens receiver event,
        WellSized decryption.primitives envelope decryption.privateKey
  | .panicked, _ => True

instance (decryption : Decryption) (process : ReceiverProcess)
    (event : Receiver.Event) :
    Decidable (OpensWellSized decryption process event) :=
  match process with
  | .running receiver =>
      inferInstanceAs (Decidable (∀ envelope ∈
        decryption.opens receiver event,
          WellSized decryption.primitives envelope decryption.privateKey))
  | .panicked => instDecidableTrue

theorem step_of_opens {receiver : Receiver} {event : Receiver.Event}
    {envelope : EncryptedEnvelope}
    (opened : decryption.opens receiver event = some envelope) :
    step decryption (.running receiver) event =
      if (decryption.decryptMessage envelope).isSome then
        (receiver.step decryption.decoder event).map .running
      else
        some .panicked := by
  dsimp only [step]
  rw [opened]

/-- A step goes on as the receiver, or it panics on the message it
decrypts. -/
theorem step_cases {receiver : Receiver} {event : Receiver.Event}
    {after : ReceiverProcess}
    (stepTo : step decryption (.running receiver) event = some after) :
    (OpensWellSized decryption (.running receiver) event ∧
      ∃ next, receiver.step decryption.decoder event = some next ∧
        after = .running next) ∨
    (¬ OpensWellSized decryption (.running receiver) event ∧
      after = .panicked) := by
  dsimp only [step] at stepTo
  dsimp only [OpensWellSized]
  split at stepTo
  · rename_i envelope isOpened
    rw [isOpened]
    have returns := decryptMessage_isSome_iff decryption.primitives envelope
      decryption.privateKey
    split at stepTo
    · rename_i decrypts
      obtain ⟨next, stepped, rfl⟩ := Option.map_eq_some_iff.mp stepTo
      left
      refine ⟨?_, next, stepped, rfl⟩
      rintro other ⟨⟩
      exact returns.mp decrypts
    · rename_i panics
      cases stepTo
      right
      refine ⟨?_, rfl⟩
      intro wellSized
      exact panics (returns.mpr (wellSized envelope rfl))
  · rename_i opensNothing
    obtain ⟨next, stepped, rfl⟩ := Option.map_eq_some_iff.mp stepTo
    left
    refine ⟨?_, next, stepped, rfl⟩
    rw [opensNothing]
    rintro envelope ⟨⟩

/-- Until it panics, the process is the receiver. -/
theorem reachable_receiver {receiver : Receiver}
    (reached : Reachable (step decryption) (.running .new)
      (.running receiver)) :
    Reachable (Receiver.step decryption.decoder) .new receiver := by
  have follows : ∀ process,
      Reachable (step decryption) (.running .new) process →
        ∀ receiver, process = .running receiver →
          Reachable (Receiver.step decryption.decoder) .new receiver := by
    intro process reached
    induction reached with
    | start =>
        rintro receiver ⟨⟩
        exact .start
    | next event reached permitted stepTo ih =>
        rename_i before after
        rintro receiver rfl
        cases before with
        | panicked => cases stepTo
        | running earlier =>
            rcases step_cases stepTo with ⟨-, next, stepped, same⟩ |
              ⟨-, isPanicked⟩
            · cases same
              exact .next event (ih earlier rfl) trivial stepped
            · cases isPanicked
  exact follows _ reached receiver rfl

/-- A running process goes on exactly if what it decrypts is well sized. -/
theorem isRunning_step_iff {before after : ReceiverProcess}
    {event : Receiver.Event} (isRunning : before.IsRunning)
    (stepTo : step decryption before event = some after) :
    after.IsRunning ↔ OpensWellSized decryption before event := by
  cases before with
  | panicked => exact isRunning.elim
  | running receiver =>
      rcases step_cases stepTo with ⟨wellSized, next, -, rfl⟩ |
        ⟨illSized, rfl⟩
      · exact iff_of_true trivial wellSized
      · exact iff_of_false not_false illSized

/-- `decrypt_message` returns on every envelope that is well sized and panics
on every other.  While the messages that reach it are well sized the receiver
keeps running, whatever else happens, and one message that is not ends it. -/
theorem running_of_opensWellSized {process : ReceiverProcess}
    (reached : ReachableWhile (step decryption) (OpensWellSized decryption)
      (.running .new) process) :
    (∀ (primitives : Primitives) envelope privateKey,
      (Receiver.decryptMessage primitives envelope privateKey).isSome ↔
        WellSized primitives envelope privateKey) ∧
    process.IsRunning ∧
    ∀ event after, step decryption process event = some after →
      (after.IsRunning ↔ OpensWellSized decryption process event) := by
  have starts : IsRunning (.running .new) := trivial
  refine ⟨decryptMessage_isSome_iff, ?_⟩
  exact reached.exact_invariant (fun _ => True) starts trivial
    (fun _ _ _ _ _ => trivial)
    (fun _ _ _ _ isRunning stepTo => isRunning_step_iff isRunning stepTo)

end ReceiverProcess

/-! ## Lines that carry one message -/

section Lines

variable (primitives : Primitives) (privateKey : Octets 32) (json : String)
  (message : EncryptedInputData)

def codecOf : Codec where
  parseMessage text :=
    if text = json then .ok message
    else .error "expected value at line 1 column 1"
  parseBatch _ := .error "expected value at line 1 column 1"
  print _ := json

def decryptionOf : Decryption where
  parseEnvelope text :=
    if text = json then .ok message.envelope
    else .error "expected value at line 1 column 1"
  primitives := primitives
  privateKey := privateKey

def lineOf : List Char :=
  "Message: ".toList ++ (message.messageId.toList ++ ' ' :: json.toList)

/-- The receiver has connected and subscribed, and waits for a line. -/
def Receiver.reading : Receiver :=
  { Receiver.new with main := .reading, ackWorker := .testRunning }

/-- Waiting for a line is where every receiver gets that connects and
subscribes. -/
theorem reading_reached (decryption : Decryption) :
    ReachableWhile (ReceiverProcess.step decryption)
      (ReceiverProcess.OpensWellSized decryption) (.running .new)
      (.running .reading) := by
  have ran : executeWhile (ReceiverProcess.step decryption)
      (ReceiverProcess.OpensWellSized decryption) (.running .new)
      [.main .testRunning, .main (.connect true),
        .main (.subscribe .subscribed), .main .testLoop] =
      some (.running .reading) :=
    rfl
  exact reachableWhile_of_executeWhile ran

variable {json message} {members : List Char}
  (isObject : json.toList = '\x7b' :: members ++ ['\x7d'])
  (nonempty : message.messageId ≠ "")
  (noSpace : ' ' ∉ message.messageId.toList)
  (keptStart : Text.trimStart message.messageId.toList =
    message.messageId.toList)

include isObject nonempty noSpace keptStart

theorem parseMessageLine_lineOf :
    parseMessageLine (lineOf json message) =
      some (message.messageId, json) :=
  parseMessageLine_eq_some isObject nonempty noSpace keptStart

theorem opens_lineOf :
    (decryptionOf primitives privateKey json message).opens .reading
        (.main (.readLine (.line (lineOf json message)))) =
      some message.envelope := by
  have parsed :=
    parseMessageLine_lineOf isObject nonempty noSpace keptStart
  simp [Decryption.opens, Decryption.envelopeOf, Receiver.reading,
    Receiver.new, parsed, decryptionOf, Except.toOption]

theorem step_lineOf {content : String}
    (decrypts : Receiver.decryptMessage primitives message.envelope
      privateKey = some (.ok content)) :
    ReceiverProcess.step (decryptionOf primitives privateKey json message)
        (.running .reading)
        (.main (.readLine (.line (lineOf json message)))) =
      some (.running { Receiver.reading with
        main := .storing message.messageId content
        processed := [message.messageId] }) := by
  have parsed :=
    parseMessageLine_lineOf isObject nonempty noSpace keptStart
  have reads : decryptLine
      (decryptionOf primitives privateKey json message).decoder
      Receiver.reading.processed (lineOf json message) =
        some (message.messageId, content) := by
    simp [decryptLine, parsed, decryptionOf, Decryption.decoder,
      Decryption.decryptMessage, decrypts, Receiver.reading, Receiver.new]
  have isDecrypted : (decryptionOf primitives privateKey json
      message).decryptMessage message.envelope = some (.ok content) :=
    decrypts
  rw [ReceiverProcess.step_of_opens (opens_lineOf primitives privateKey
    isObject nonempty noSpace keptStart), isDecrypted]
  simp only [Option.isSome_some, if_true, Receiver.step, Receiver.mainStep,
    Receiver.reading] at reads ⊢
  rw [reads]
  rfl

theorem step_lineOf_panicked
    (panics : Receiver.decryptMessage primitives message.envelope
      privateKey = none) :
    ReceiverProcess.step (decryptionOf primitives privateKey json message)
        (.running .reading)
        (.main (.readLine (.line (lineOf json message)))) =
      some .panicked := by
  have undecrypted : (decryptionOf primitives privateKey json
      message).decryptMessage message.envelope = none :=
    panics
  rw [ReceiverProcess.step_of_opens (opens_lineOf primitives privateKey
    isObject nonempty noSpace keptStart), undecrypted]
  rfl

omit nonempty noSpace keptStart

theorem handleRequest_publish_codecOf (client : Client)
    (permitted : AclManager.checkCommand client.role "publish" = .allowed)
    (exchangeName routingKey : String) (noSpace : ' ' ∉ exchangeName.toList)
    (noLaterSpace : ' ' ∉ routingKey.toList) (now : Nat) :
    client.handleRequest (codecOf json message) false now
        (requestOf (Utf8.encode ("publish" ++ " " ++ (exchangeName ++ " " ++
          routingKey ++ " " ++ json) ++ "\n"))) =
      .call (.publish
          ⟨exchangeName, routingKey, message, client.clientId, now⟩)
        (.confirmPublish message.messageId) := by
  have ends : Text.trimEnd json.toList = json.toList :=
    trimEnd_append_object isObject []
  have nonempty : json ≠ "" := by
    rintro rfl
    cases isObject
  obtain ⟨args, split, handled⟩ := Client.handleRequest_three "publish"
    (by decide) (Text.visible_of_all (by decide)) permitted noSpace
    noLaterSpace nonempty ends now
  rw [handled]
  simp only [Client.runCommand, split, codecOf, if_true]
  rfl

end Lines

/-! ## Two messages -/

namespace SampleExchange

/-- A message with the session key and the content of the exchange, and a
nonce of the sender's choice. -/
def messageWith (nonce : List UInt8) : EncryptedInputData where
  messageId := "m1"
  receiverClientId := "receiver_1"
  encSessionKey := Base64.encode (ephemeral.bytes ++ boxed.bytes)
  nonce := Base64.encode nonce
  ciphertext := Base64.encode ciphertext.bytes

def membersWith (nonce : List UInt8) : String :=
  "\"message_id\":\"m1\",\"receiver_client_id\":\"receiver_1\"," ++
    "\"enc_session_key\":\"" ++ (messageWith nonce).encSessionKey ++
    "\",\"nonce\":\"" ++ (messageWith nonce).nonce ++
    "\",\"ciphertext\":\"" ++ (messageWith nonce).ciphertext ++ "\""

def jsonWith (nonce : List UInt8) : String :=
  SampleLines.object (membersWith nonce)

theorem toList_jsonWith (nonce : List UInt8) :
    (jsonWith nonce).toList =
      '\x7b' :: (membersWith nonce).toList ++ ['\x7d'] :=
  SampleLines.toList_object _

theorem sealedBoxDecrypt_boxed :
    Receiver.sealedBoxDecrypt primitives (ephemeral.bytes ++ boxed.bytes)
      privateKey = .ok sessionKey.bytes := by
  decide +kernel

theorem decryptMessage_messageWith (nonce : List UInt8) :
    Receiver.decryptMessage primitives (messageWith nonce).envelope
        privateKey =
      Receiver.decryptContent primitives sessionKey.bytes nonce
        ciphertext.bytes :=
  decryptMessage_opened sealedBoxDecrypt_boxed nonce ciphertext.bytes

def decryptionWith (nonce : List UInt8) : Decryption :=
  decryptionOf primitives privateKey (jsonWith nonce) (messageWith nonce)

theorem running_of_opensWellSized_hello :
    ∃ receiver,
      ReachableWhile (ReceiverProcess.step (decryptionWith nonce.bytes))
        (ReceiverProcess.OpensWellSized (decryptionWith nonce.bytes))
        (.running .new) (.running receiver) ∧
      receiver.main = .storing "m1" "Hello" ∧
      (ReceiverProcess.running receiver).IsRunning := by
  have decrypts : Receiver.decryptMessage primitives
      (messageWith nonce.bytes).envelope privateKey =
        some (.ok "Hello") := by
    rw [decryptMessage_messageWith]
    simp [Receiver.decryptContent, primitives, knowing]
  have steps : ReceiverProcess.step (decryptionWith nonce.bytes)
      (.running .reading) _ = some _ :=
    step_lineOf primitives privateKey (toList_jsonWith nonce.bytes)
      (by decide) (by decide) (by decide) decrypts
  have isReading : ReceiverProcess.IsRunning (.running .reading) := trivial
  have wellSized :=
    (ReceiverProcess.isRunning_step_iff isReading steps).mp trivial
  have reached := (reading_reached (decryptionWith nonce.bytes)).next _
    wellSized steps
  obtain ⟨-, isRunning, -⟩ :=
    ReceiverProcess.running_of_opensWellSized reached
  exact ⟨_, reached, rfl, isRunning⟩

/-- The line with which `sender_1` publishes a message with a nonce of three
bytes leads to a publish, the server sends the message on as it is, and the
process of the receiver panics on its line. -/
theorem not_running_shortNonce :
    (∀ now, (⟨"sender_1", .sender, 1⟩ : Client).handleRequest
        (codecOf (jsonWith [0, 1, 2]) (messageWith [0, 1, 2])) false now
        (requestOf (Utf8.encode ("publish" ++ " " ++ ("e" ++ " " ++
          "receiver_1_key" ++ " " ++ jsonWith [0, 1, 2]) ++ "\n"))) =
      .call (.publish ⟨"e", "receiver_1_key", messageWith [0, 1, 2],
        "sender_1", now⟩) (.confirmPublish "m1")) ∧
    (Line.text (codecOf (jsonWith [0, 1, 2]) (messageWith [0, 1, 2]))
        (.message ⟨"receiver_1_queue", "m1", messageWith [0, 1, 2]⟩)).toList =
      lineOf (jsonWith [0, 1, 2]) (messageWith [0, 1, 2]) ++ ['\n'] ∧
    Receiver.decryptMessage primitives (messageWith [0, 1, 2]).envelope
      privateKey = none ∧
    Reachable (ReceiverProcess.step (decryptionWith [0, 1, 2]))
      (.running .new) (.running .reading) ∧
    ReceiverProcess.step (decryptionWith [0, 1, 2]) (.running .reading)
        (.main (.readLine (.line
          (lineOf (jsonWith [0, 1, 2]) (messageWith [0, 1, 2]))))) =
      some .panicked := by
  have isObject := toList_jsonWith [0, 1, 2]
  have panics : Receiver.decryptMessage primitives
      (messageWith [0, 1, 2]).envelope privateKey = none := by
    rw [decryptMessage_messageWith, ← Option.not_isSome_iff_eq_none,
      Receiver.decryptContent_isSome_iff]
    rintro ⟨-, isTwelve⟩
    cases isTwelve
  refine ⟨?_, toList_messageLine _, panics, ?_, ?_⟩
  · intro now
    exact handleRequest_publish_codecOf isObject ⟨"sender_1", .sender, 1⟩
      rfl "e" "receiver_1_key" (by decide) (by decide) now
  · exact (reading_reached _).mono fun _ _ _ => trivial
  · exact step_lineOf_panicked primitives privateKey isObject (by decide)
      (by decide) (by decide) panics

end SampleExchange

end CipherMQ
