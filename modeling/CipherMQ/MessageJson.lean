import CipherMQ.FailureReport
import CipherMQ.HybridEncryption
import CipherMQ.Json
import CipherMQ.MessageLines

/-!
# The JSON forms of messages

The sender prints a message as an object of six members, in the order of their
names; the server reads five of them and prints them in the order of its
fields; the receiver reads three of these.  The readers go by the names and
pass over members they do not know.  Each of them also takes an array of the
values in the order of its fields.

What texts the JSON library reads beyond those it prints is left open.
-/

namespace CipherMQ

/-- A JSON library that reads what it prints.  `complaint` is what it says of a
text it cannot make a value of. -/
structure JsonReader where
  parse : List Char → Option Json
  parse_print : ∀ value, parse value.print = some value
  complaint : String → String

/-- A printed object stands in braces. -/
theorem Json.exists_print_object (member : String × Json)
    (members : List (String × Json)) :
    ∃ inside, Json.print (.object (member :: members)) =
      '\x7b' :: inside ++ ['\x7d'] := by
  obtain ⟨name, value⟩ := member
  obtain ⟨inside, ends⟩ :=
    List.getLast?_eq_some_iff.mp (getLast?_printMembers members)
  refine ⟨printText name ++ ':' :: print value ++ inside, ?_⟩
  simp [print, ends]

/-! ## What the three programs print and read -/

namespace EncryptedInputData

def members (message : EncryptedInputData) : List (String × Json) :=
  [("message_id", .string message.messageId),
    ("receiver_client_id", .string message.receiverClientId),
    ("enc_session_key", .string message.encSessionKey),
    ("nonce", .string message.nonce),
    ("ciphertext", .string message.ciphertext)]

def toJson (message : EncryptedInputData) : Json :=
  .object message.members

def ofJson : Json → Option EncryptedInputData
  | .object members => do
      let messageId ← Json.required Json.asString "message_id" members
      let receiverClientId ←
        Json.required Json.asString "receiver_client_id" members
      let encSessionKey ←
        Json.required Json.asString "enc_session_key" members
      let nonce ← Json.required Json.asString "nonce" members
      let ciphertext ← Json.required Json.asString "ciphertext" members
      some ⟨messageId, receiverClientId, encSessionKey, nonce, ciphertext⟩
  | .array [.string messageId, .string receiverClientId,
      .string encSessionKey, .string nonce, .string ciphertext] =>
      some ⟨messageId, receiverClientId, encSessionKey, nonce, ciphertext⟩
  | _ => none

end EncryptedInputData

def EncryptedEnvelope.ofJson : Json → Option EncryptedEnvelope
  | .object members => do
      let encSessionKey ←
        Json.required Json.asString "enc_session_key" members
      let nonce ← Json.required Json.asString "nonce" members
      let ciphertext ← Json.required Json.asString "ciphertext" members
      some ⟨encSessionKey, nonce, ciphertext⟩
  | .array [.string encSessionKey, .string nonce, .string ciphertext] =>
      some ⟨encSessionKey, nonce, ciphertext⟩
  | _ => none

namespace Sender.EncryptedMessage

def members (message : EncryptedMessage) : List (String × Json) :=
  [("message_id", .string message.messageId),
    ("ciphertext", .string message.ciphertext),
    ("receiver_client_id", .string message.receiverClientId),
    ("enc_session_key", .string message.encSessionKey),
    ("nonce", .string message.nonce),
    ("sent_time", .string message.sentTime)]

def payload (message : EncryptedMessage) : String :=
  String.ofList (Json.objectOf message.members).print

def publishCommand (message : EncryptedMessage) (exchangeName : String) :
    String :=
  "publish " ++ exchangeName ++ " " ++ message.routingKey ++ " " ++
    message.payload ++ "\n"

end Sender.EncryptedMessage

namespace JsonReader

def fromStr {Value : Type} (reader : JsonReader)
    (ofJson : Json → Option Value) (text : String) : Except String Value :=
  match (reader.parse text.toList).bind ofJson with
  | some value => .ok value
  | none => .error (reader.complaint text)

def codec (reader : JsonReader) : Codec where
  parseMessage := reader.fromStr EncryptedInputData.ofJson
  parseBatch := reader.fromStr (Json.asList EncryptedInputData.ofJson)
  print message := String.ofList message.toJson.print

/-- What the receiver reads.  `decryptMessage` is how it goes on. -/
def decoder (reader : JsonReader)
    (decryptMessage : EncryptedEnvelope → Except String String) : Decoder where
  parseEnvelope := reader.fromStr EncryptedEnvelope.ofJson
  decryptMessage := decryptMessage

/-! ## Round trips -/

theorem fromStr_print {Value : Type} (reader : JsonReader)
    {ofJson : Json → Option Value} {json : Json} {value : Value}
    (reads : ofJson json = some value) :
    reader.fromStr ofJson (String.ofList json.print) = .ok value := by
  unfold fromStr
  rw [String.toList_ofList, reader.parse_print, Option.bind_some, reads]

theorem ofJson_payload (message : Sender.EncryptedMessage) :
    EncryptedInputData.ofJson (Json.objectOf message.members) =
      some message.input := by
  have distinct : (message.members.map Prod.fst).Nodup := by
    simp [Sender.EncryptedMessage.members]
  simp only [Json.objectOf, EncryptedInputData.ofJson,
    Json.required_sortMembers distinct]
  rfl

theorem envelope_ofJson_toJson (message : EncryptedInputData) :
    EncryptedEnvelope.ofJson message.toJson = some message.envelope := by
  rfl

/-- The server keeps of the payload what belongs to the message. -/
theorem parseMessage_payload (reader : JsonReader)
    (message : Sender.EncryptedMessage) :
    reader.codec.parseMessage message.payload = .ok message.input :=
  reader.fromStr_print (ofJson_payload message)

theorem laws (reader : JsonReader)
    (decryptMessage : EncryptedEnvelope → Except String String) :
    JsonLaws reader.codec (reader.decoder decryptMessage) where
  isObject message := by
    obtain ⟨inside, printed⟩ := Json.exists_print_object
      ("message_id", .string message.messageId) message.members.tail
    refine ⟨inside, ?_⟩
    rw [codec, String.toList_ofList]
    exact printed
  oneLine message := by
    change '\n' ∉ (String.ofList message.toJson.print).toList
    rw [String.toList_ofList]
    exact Json.newline_not_mem_print _
  reads message := reader.fromStr_print (envelope_ofJson_toJson message)

end JsonReader

/-! ## The publish line -/

namespace Sender.EncryptedMessage

variable (message : EncryptedMessage) {exchangeName : String}

theorem trimEnd_payload :
    Text.trimEnd message.payload.toList = message.payload.toList := by
  rw [payload, String.toList_ofList]
  exact ((Text.trim_eq_self_iff _).mp (Json.trim_print _)).2

theorem payload_ne_empty : message.payload ≠ "" := by
  intro isEmpty
  have nothing := congrArg String.toList isEmpty
  rw [payload, String.toList_ofList] at nothing
  exact Json.print_ne_nil _ nothing

/-- The server takes the line apart into what the sender put into it. -/
theorem splitRequest_publishCommand :
    splitRequest (requestOf
        (Utf8.encode (message.publishCommand exchangeName))) =
      ("publish", (exchangeName ++ " " ++ message.routingKey ++ " " ++
        message.payload).toList) := by
  have line : message.publishCommand exchangeName =
      "publish" ++ " " ++ (exchangeName ++ " " ++ message.routingKey ++
        " " ++ message.payload) ++ "\n" := by
    simp [publishCommand, String.append_assoc]
  have ends : Text.trimEnd message.payload.toList ≠ [] := by
    rw [message.trimEnd_payload]
    simpa using message.payload_ne_empty
  rw [line, splitRequest_line "publish" (by decide)
    (Text.visible_of_all (by decide)), String.toList_append,
    Text.trimEnd_append, if_neg ends, message.trimEnd_payload]

theorem splitArguments_publishCommand (noSpace : ' ' ∉ exchangeName.toList)
    (keyNoSpace : ' ' ∉ message.routingKey.toList) :
    splitArguments (exchangeName ++ " " ++ message.routingKey ++ " " ++
        message.payload).toList =
      some (exchangeName, message.routingKey, message.payload) := by
  rw [splitArguments_eq_some_iff]
  refine ⟨noSpace, keyNoSpace, ?_⟩
  simp

end Sender.EncryptedMessage

end CipherMQ
