import CipherMQ.MessageJson
import CipherMQ.PublicKeyStore
import CipherMQ.WrittenOrigins

/-!
# From one end to the other

The receiver makes a key pair and registers the public key; the sender asks
the server for it, keeps it in a file, encrypts what it has to say and
publishes it; the server carries the message to the clients of the queue; the
receiver reads the line, takes the message apart and decrypts it.  On the way
the content passes through Base64, sealed boxes, JSON, the request line and
the message line, and the key through Base64, two request lines, an encrypted
table and a file.  What comes out at the end is what went in.
-/

namespace CipherMQ

open ServerState

/-! ## Keys -/

structure KeyPairFiles where
  privateKey : String
  publicKey : String
  deriving DecidableEq, Repr

def makeKeys (primitives : Primitives) (privateKey : Octets 32) :
    KeyPairFiles where
  privateKey := Base64.encode privateKey.bytes
  publicKey := Base64.encode (primitives.publicKey privateKey).bytes

namespace Receiver

def loadPrivateKey (raw : String) : Except String (Octets 32) :=
  match Base64.decode (String.ofList (Text.trim raw.toList)) with
  | none => .error "Invalid Base64 in private key file"
  | some bytes =>
      match Octets.ofList? 32 bytes with
      | none => .error "Private key must be exactly 32 bytes"
      | some privateKey => .ok privateKey

def loadPublicKeyBytes (raw : String) : Except String (List UInt8) :=
  match Base64.decode (String.ofList (Text.trim raw.toList)) with
  | none => .error "Invalid Base64 in public key file"
  | some bytes => .ok bytes

end Receiver

theorem trim_encode (bytes : List UInt8) :
    String.ofList (Text.trim (Base64.encode bytes).toList) =
      Base64.encode bytes := by
  rw [Base64.toList_encode, Base64.trim_encodeChars]
  rfl

theorem decode_trim_encode (bytes : List UInt8) :
    Base64.decode (String.ofList (Text.trim (Base64.encode bytes).toList)) =
      some bytes := by
  rw [trim_encode, Base64.decode_encode]

theorem loadPrivateKey_makeKeys (primitives : Primitives)
    (privateKey : Octets 32) :
    Receiver.loadPrivateKey (makeKeys primitives privateKey).privateKey =
      .ok privateKey := by
  rw [makeKeys, Receiver.loadPrivateKey, decode_trim_encode]
  simp

theorem loadPublicKeyBytes_makeKeys (primitives : Primitives)
    (privateKey : Octets 32) :
    Receiver.loadPublicKeyBytes (makeKeys primitives privateKey).publicKey =
      .ok (primitives.publicKey privateKey).bytes := by
  rw [makeKeys, Receiver.loadPublicKeyBytes, decode_trim_encode]

/-! ## The sender -/

namespace Sender

/-- Encrypt a message for one receiver, whose key is read from its file.  A
receiver without a key, or with one that is of no use, is left out. -/
def encryptForReceiver (primitives : Primitives)
    (keyFiles routingMap : KeyMap String String) (message : PlainMessage)
    (receiverId : String) (random : Randomness) (sentTime : String) :
    Option EncryptedMessage :=
  match keyFiles ("keys/" ++ receiverId ++ "_public.key") with
  | none => none
  | some publicKey =>
      let routingKey := (routingMap (receiverId ++ "_queue")).getD
        (receiverId ++ "_key")
      (encryptMessage primitives message
        (String.ofList (Text.trim publicKey.toList)) receiverId routingKey
        random sentTime).toOption

/-- Encrypt a message for every receiver there is a key for.  `draw` is what
is drawn at random, and the time, for each of them. -/
def encryptForAllReceivers (primitives : Primitives)
    (receiverIds : List String) (keyFiles routingMap : KeyMap String String)
    (message : PlainMessage) (draw : String → Randomness × String) :
    List EncryptedMessage :=
  receiverIds.filterMap fun receiverId =>
    encryptForReceiver primitives keyFiles routingMap message receiverId
      (draw receiverId).1 (draw receiverId).2

/-- The message is one that the sender has encrypted for the receiver. -/
def Encrypts (primitives : Primitives)
    (keyFiles routingMap : KeyMap String String) (message : PlainMessage)
    (receiverId : String) (encrypted : EncryptedMessage) : Prop :=
  ∃ receiverIds draw, encrypted ∈ encryptForAllReceivers primitives
      receiverIds keyFiles routingMap message draw ∧
    encrypted.receiverClientId = receiverId

/-- An encrypted message names its receiver and its routing key. -/
theorem addressed_of_encryptMessage {primitives : Primitives}
    {message : PlainMessage} {publicKey receiverId routingKey : String}
    {random : Randomness} {sentTime : String} {encrypted : EncryptedMessage}
    (encrypts : encryptMessage primitives message publicKey receiverId
      routingKey random sentTime = .ok encrypted) :
    encrypted.receiverClientId = receiverId ∧
      encrypted.routingKey = routingKey := by
  unfold encryptMessage at encrypts
  repeat' split at encrypts
  all_goals cases encrypts
  exact ⟨rfl, rfl⟩

/-- A message is encrypted with the key in the receiver's file. -/
theorem encryptForReceiver_cases {primitives : Primitives}
    {keyFiles routingMap : KeyMap String String} {message : PlainMessage}
    {receiverId sentTime : String} {random : Randomness}
    {encrypted : EncryptedMessage}
    (encrypts : encryptForReceiver primitives keyFiles routingMap message
      receiverId random sentTime = some encrypted) :
    ∃ publicKey,
      keyFiles ("keys/" ++ receiverId ++ "_public.key") = some publicKey ∧
      encryptMessage primitives message
        (String.ofList (Text.trim publicKey.toList)) receiverId
        ((routingMap (receiverId ++ "_queue")).getD (receiverId ++ "_key"))
        random sentTime = .ok encrypted := by
  unfold encryptForReceiver at encrypts
  split at encrypts
  · cases encrypts
  · rename_i publicKey isKey
    refine ⟨publicKey, isKey, ?_⟩
    dsimp only at encrypts
    cases succeeds : encryptMessage primitives message
        (String.ofList (Text.trim publicKey.toList)) receiverId
        ((routingMap (receiverId ++ "_queue")).getD (receiverId ++ "_key"))
        random sentTime with
    | error text =>
        rw [succeeds] at encrypts
        cases encrypts
    | ok result =>
        rw [succeeds] at encrypts
        cases encrypts
        rfl

theorem encrypts_cases {primitives : Primitives}
    {keyFiles routingMap : KeyMap String String} {message : PlainMessage}
    {receiverId : String} {encrypted : EncryptedMessage}
    (encrypts : Encrypts primitives keyFiles routingMap message receiverId
      encrypted) :
    ∃ publicKey routingKey random sentTime,
      keyFiles ("keys/" ++ receiverId ++ "_public.key") = some publicKey ∧
      encryptMessage primitives message
        (String.ofList (Text.trim publicKey.toList)) receiverId routingKey
        random sentTime = .ok encrypted := by
  obtain ⟨receiverIds, draw, isMember, isFor⟩ := encrypts
  obtain ⟨other, -, isEncrypted⟩ := List.mem_filterMap.mp isMember
  obtain ⟨publicKey, isKey, succeeds⟩ := encryptForReceiver_cases isEncrypted
  have isOther := (addressed_of_encryptMessage succeeds).1
  rw [isFor] at isOther
  subst isOther
  exact ⟨publicKey, _, _, _, isKey, succeeds⟩

end Sender

section Content

variable {primitives : Primitives}

/-- Encrypting under a public key succeeds, and the private key decrypts the
result. -/
theorem exists_encryptMessage (lawful : primitives.Lawful)
    (message : Sender.PlainMessage) (privateKey : Octets 32)
    (receiverId routingKey : String) (random : Sender.Randomness)
    (sentTime : String) :
    ∃ encrypted, Sender.encryptMessage primitives message
        (Base64.encode (primitives.publicKey privateKey).bytes) receiverId
        routingKey random sentTime = .ok encrypted ∧
      Receiver.decryptMessage primitives encrypted.input.envelope privateKey =
        some (.ok message.content) ∧
      encrypted.messageId = Sender.messageIdOf message receiverId ∧
      encrypted.receiverClientId = receiverId := by
  obtain ⟨sealed, seals, unseals⟩ :=
    sealedBoxDecrypt_sealedBoxEncrypt lawful random.sessionKey.bytes privateKey
      random.ephemeralSecret
  obtain ⟨ciphertext, encryptsContent, decrypts⟩ :=
    lawful.chacha random.sessionKey random.nonce
      (Utf8.encode message.content)
  unfold Sender.encryptMessage
  rw [decode_trim_encode]
  simp only [Octets.ofList?_bytes, seals, encryptsContent]
  refine ⟨_, rfl, ?_, rfl, rfl⟩
  have opened := decryptMessage_opened unseals random.nonce.bytes ciphertext
  refine opened.trans ?_
  simp [Receiver.decryptContent, decrypts]

end Content

/-! ## The exchange of keys -/

/-- The text is what the server has answered a sender that asked for the key
of the receiver, after any requests of which the last to register a key for
the receiver was that of its public key file. -/
def KeysExchanged (primitives : Primitives) (cipher : KeyCipher)
    (codec : Codec) (receiverId : String) (privateKey : Octets 32)
    (keyText : String) : Prop :=
  receiverId ≠ "" ∧
  Text.trimEnd receiverId.toList = receiverId.toList ∧
  ∃ messageMetadata requests service question publicKey,
    (KeyService.new messageMetadata).serveAll cipher codec requests =
      some service ∧
    Receiver.loadPublicKeyBytes (makeKeys primitives privateKey).publicKey =
      .ok publicKey ∧
    service.lastRegistered codec receiverId =
      some (Base64.encode publicKey) ∧
    AclManager.checkCommand question.client.role "get_public_key" =
      .allowed ∧
    question.limited = false ∧
    Sender.getPublicKey cipher codec service question receiverId =
      some (some keyText)

theorem KeysExchanged.keyText_eq {primitives : Primitives}
    {cipher : KeyCipher} (lawful : cipher.Lawful) {codec : Codec}
    {receiverId : String} {privateKey : Octets 32} {keyText : String}
    (exchanged : KeysExchanged primitives cipher codec receiverId privateKey
      keyText) :
    keyText = Base64.encode (primitives.publicKey privateKey).bytes := by
  obtain ⟨named, endsVisibly, messageMetadata, requests, service, question,
    publicKey, serves, loads, registered, permitted, unlimited, answered⟩ :=
    exchanged
  rw [loadPublicKeyBytes_makeKeys] at loads
  cases loads
  have begins : KeyService.Faithful cipher codec
      (KeyService.new messageMetadata) :=
    KeyService.faithful_new messageMetadata
  obtain ⟨after, servesAll, -, faithful⟩ := begins.serveAll lawful requests
  rw [serves] at servesAll
  cases servesAll
  have asks :
      (question.withLine (Sender.getPublicKeyCommand receiverId)).action
          codec =
        .query (.getPublicKey receiverId) := by
    rw [Sender.action_getPublicKeyCommand permitted unlimited, endsVisibly,
      String.ofList_toList]
    rw [endsVisibly]
    simpa using named
  have keyNonempty := (faithful.accepted receiverId _ registered).1
  unfold Sender.getPublicKey KeyService.serve at answered
  rw [asks] at answered
  simp only [KeyService.getPublicKey_of_faithful faithful, registered,
    Option.map_some, List.head?_cons, Option.bind_some,
    Sender.parsePublicKey_found keyNonempty, Option.some.injEq] at answered
  exact answered.symm

/-! ## From the content to the content -/

/-- The request is the line of a sender that publishes a message encrypted for
the receiver, with the key that was exchanged. -/
def PublishesFor (primitives : Primitives) (cipher : KeyCipher)
    (codec : Codec) (privateKeys : String → Octets 32)
    (message : Sender.PlainMessage) (receiverId : String)
    (encrypted : Sender.EncryptedMessage) (request : List Char) : Prop :=
  ∃ keyFiles routingMap exchangeName,
    (∀ keyText, keyFiles ("keys/" ++ receiverId ++ "_public.key") =
      some keyText →
        KeysExchanged primitives cipher codec receiverId
          (privateKeys receiverId) keyText) ∧
    Sender.Encrypts primitives keyFiles routingMap message receiverId
      encrypted ∧
    ' ' ∉ exchangeName.toList ∧ ' ' ∉ encrypted.routingKey.toList ∧
    request = requestOf (Utf8.encode (encrypted.publishCommand exchangeName))

section Publishing

variable {primitives : Primitives} {cipher : KeyCipher}
  {privateKeys : String → Octets 32} {message : Sender.PlainMessage}
  {receiverId : String} {encrypted : Sender.EncryptedMessage}
  {request : List Char}

theorem PublishesFor.decrypts {codec : Codec} (lawful : primitives.Lawful)
    (cipherLawful : cipher.Lawful)
    (publishes : PublishesFor primitives cipher codec privateKeys message
      receiverId encrypted request) :
    Receiver.decryptMessage primitives encrypted.input.envelope
        (privateKeys receiverId) = some (.ok message.content) ∧
      encrypted.messageId = Sender.messageIdOf message receiverId ∧
      encrypted.receiverClientId = receiverId := by
  obtain ⟨keyFiles, routingMap, exchangeName, exchanged, encrypts, -, -, -⟩ :=
    publishes
  obtain ⟨keyText, routingKey, random, sentTime, isKey, succeeds⟩ :=
    Sender.encrypts_cases encrypts
  rw [(exchanged keyText isKey).keyText_eq cipherLawful, trim_encode]
    at succeeds
  obtain ⟨other, also, decrypts⟩ := exists_encryptMessage lawful message
    (privateKeys receiverId) receiverId routingKey random sentTime
  rw [succeeds] at also
  cases also
  exact decrypts

/-- The server takes the fields of the encrypted message from the line. -/
theorem PublishesFor.message_eq {reader : JsonReader}
    (publishes : PublishesFor primitives cipher reader.codec privateKeys
      message receiverId encrypted request)
    {exchangeName routingKey : String} {input : EncryptedInputData}
    (reads : Publishes reader.codec request exchangeName routingKey input) :
    input = encrypted.input := by
  obtain ⟨keyFiles, routingMap, sentTo, -, -, noSpace, keyNoSpace, rfl⟩ :=
    publishes
  obtain ⟨text, isSplit, single | batch⟩ := reads
  · rw [encrypted.splitRequest_publishCommand,
      encrypted.splitArguments_publishCommand noSpace keyNoSpace] at isSplit
    cases isSplit
    have parses := single.2
    rw [reader.parseMessage_payload] at parses
    exact (Except.ok.inj parses).symm
  · rw [encrypted.splitRequest_publishCommand] at batch
    have differs : "publish" ≠ "publish_batch" := by decide
    exact absurd batch.1 differs

end Publishing

namespace Server

/-- What a sender has encrypted is what the receiver decrypts: if all that was
published are lines of senders that use the exchanged keys, then the receiver
named in a message, reading the line that the server has written, gets the
content that was published for it. -/
theorem content_returns {primitives : Primitives}
    (lawful : primitives.Lawful) {cipher : KeyCipher}
    (cipherLawful : cipher.Lawful) {privateKeys : String → Octets 32}
    {reader : JsonReader} {config : ServerConfig}
    (usesJson : config.codec = reader.codec) {server : Server}
    (reached : Reachable (step config) (new config) server)
    (honest : ∀ client ∈ server.sessions,
      ∀ request ∈ client.intake.requests, ∀ exchangeName routingKey input,
        Publishes config.codec request exchangeName routingKey input →
          ∃ message receiverId encrypted,
            PublishesFor primitives cipher config.codec privateKeys message
              receiverId encrypted request)
    {index : Nat} {session : Session}
    (found : server.sessions[index]? = some session) {delivery : Delivery}
    (isWritten : .message delivery ∈ session.written)
    (safe : LineSafe delivery.messageId) :
    ∃ message encrypted payload envelope privateKey,
      (∃ client ∈ server.sessions, ∃ request ∈ client.intake.requests,
        PublishesFor primitives cipher config.codec privateKeys message
          delivery.message.receiverClientId encrypted request) ∧
      parseMessageLine (Receiver.readLine
          (Utf8.encode (Line.text config.codec (.message delivery)))) =
        some (Sender.messageIdOf message delivery.message.receiverClientId,
          payload) ∧
      reader.fromStr EncryptedEnvelope.ofJson payload = .ok envelope ∧
      Receiver.loadPrivateKey (makeKeys primitives
          (privateKeys delivery.message.receiverClientId)).privateKey =
        .ok privateKey ∧
      Receiver.decryptMessage primitives envelope privateKey =
        some (.ok message.content) := by
  have isSent := relays_of_reachable reached index session found delivery
    (Or.inl isWritten)
  obtain ⟨-, publication, published, isEntry, -⟩ :=
    (Broker.genuine_of_reachable (reachable_broker reached)).sent index
      delivery isSent
  obtain ⟨isId, isMessage⟩ := Prod.mk.inj isEntry
  obtain ⟨client, isClient, -, request, isRequest, publishes⟩ :=
    (asked_of_reachable reached).publishes publication published
  obtain ⟨message, receiverId, encrypted, publishesFor⟩ :=
    honest client isClient request isRequest _ _ _ publishes
  rw [usesJson] at publishes
  have isInput : delivery.message = encrypted.input := by
    rw [isMessage]
    exact PublishesFor.message_eq (usesJson ▸ publishesFor) publishes
  obtain ⟨decrypts, isMessageId, isReceiver⟩ :=
    publishesFor.decrypts lawful cipherLawful
  have named : delivery.messageId = delivery.message.messageId := by
    rw [isId, isMessage]
  have addressed : delivery.message.receiverClientId = receiverId := by
    rw [isInput]
    exact isReceiver
  have laws := reader.laws fun _ => .error ""
  obtain ⟨payload, parsed, isEnvelope⟩ :=
    (reads_iff laws delivery named).mpr ⟨safe.nonempty, safe.noSpace,
      safe.oneLine, ((Text.trim_eq_self_iff _).mp safe.trimmed).1⟩
  have isParsedId : delivery.message.messageId =
      Sender.messageIdOf message receiverId := by
    rw [isInput]
    exact isMessageId
  rw [addressed]
  refine ⟨message, encrypted, payload, delivery.message.envelope,
    privateKeys receiverId, ⟨client, isClient, request, isRequest,
      publishesFor⟩, ?_, isEnvelope, loadPrivateKey_makeKeys .., ?_⟩
  · rw [usesJson, ← isParsedId]
    exact parsed
  · rw [isInput]
    exact decrypts

end Server

namespace SampleExchange

def jsonReader : JsonReader where
  parse := Json.parse
  parse_print := Json.parse_print
  complaint _ := "expected value at line 1 column 1"

def keyFiles : KeyMap String String :=
  Function.update KeyMap.empty "keys/receiver_1_public.key"
    (some "B6N8vBQgk8i3VdwbEOhstCY3StFqqFPtC9/AsrhtHHw=")

def hello : Sender.PlainMessage :=
  ⟨"1a2b3c4d", "sender_1", "Hello"⟩

def encrypted : Sender.EncryptedMessage where
  messageId := "sender_1-1a2b3c4d-receiver_1"
  receiverClientId := "receiver_1"
  encSessionKey := "3p7bfXt9wbTTW2HC7OQ1Nz+DQ8hbeGdNrfx+FG+IK08N7G4iEgyj" ++
    "StreAtd8aC7m6Jr00WLxxlTdDxZkDrseWEE5eJeT+iJtU+484/v7bK8="
  nonce := "AAECAwQFBgcICQoL"
  ciphertext := "wZ5kbEaPIDMLvtAmZ5ERNYOfYRds"
  sentTime := "2026-01-01T00:00:00+00:00"
  routingKey := "receiver_1_key"

theorem encryptForReceiver_hello {routingMap : KeyMap String String}
    (isKey : (routingMap "receiver_1_queue").getD "receiver_1_key" =
      "receiver_1_key") :
    Sender.encryptForReceiver primitives keyFiles routingMap hello
      "receiver_1" ⟨ephemeralSecret, sessionKey, nonce⟩
      "2026-01-01T00:00:00+00:00" = some encrypted := by
  have evaluated : (Sender.encryptMessage primitives hello
      (String.ofList (Text.trim
        "B6N8vBQgk8i3VdwbEOhstCY3StFqqFPtC9/AsrhtHHw=".toList))
      "receiver_1" "receiver_1_key" ⟨ephemeralSecret, sessionKey, nonce⟩
      "2026-01-01T00:00:00+00:00").toOption = some encrypted := by
    decide +kernel
  unfold Sender.encryptForReceiver
  have isFile : keyFiles ("keys/" ++ "receiver_1" ++ "_public.key") =
      some "B6N8vBQgk8i3VdwbEOhstCY3StFqqFPtC9/AsrhtHHw=" := by
    decide
  rw [isFile]
  exact isKey ▸ evaluated

theorem encrypts_hello :
    Sender.Encrypts primitives keyFiles .empty hello "receiver_1"
      encrypted := by
  refine ⟨["receiver_1"], fun _ =>
    (⟨ephemeralSecret, sessionKey, nonce⟩, "2026-01-01T00:00:00+00:00"),
    ?_, rfl⟩
  exact List.mem_filterMap.mpr ⟨"receiver_1", List.mem_singleton_self _,
    encryptForReceiver_hello rfl⟩

theorem keysExchanged :
    KeysExchanged primitives Sender.sampleCipher jsonReader.codec "receiver_1"
      privateKey "B6N8vBQgk8i3VdwbEOhstCY3StFqqFPtC9/AsrhtHHw=" := by
  have evaluated : ((KeyService.new .empty).serveAll Sender.sampleCipher
      jsonReader.codec [Sender.receiverLine "receiver_1"
        (Receiver.registerPublicKeyCommand publicKey.bytes)]).map
          (fun service =>
            (service.lastRegistered jsonReader.codec "receiver_1",
              Sender.getPublicKey Sender.sampleCipher jsonReader.codec
                service Sender.senderAsking "receiver_1")) =
        some (some "B6N8vBQgk8i3VdwbEOhstCY3StFqqFPtC9/AsrhtHHw=",
          some (some "B6N8vBQgk8i3VdwbEOhstCY3StFqqFPtC9/AsrhtHHw=")) := by
    decide +kernel
  obtain ⟨service, serves, seen⟩ := Option.map_eq_some_iff.mp evaluated
  obtain ⟨registered, answered⟩ := Prod.mk.inj seen
  have isPublic : Base64.encode (primitives.publicKey privateKey).bytes =
      "B6N8vBQgk8i3VdwbEOhstCY3StFqqFPtC9/AsrhtHHw=" := by
    decide +kernel
  exact ⟨by decide, by decide +kernel, .empty, _, service,
    Sender.senderAsking, _, serves, loadPublicKeyBytes_makeKeys ..,
    registered.trans (congrArg some isPublic.symm), by decide, rfl, answered⟩

theorem publishesFor_hello :
    PublishesFor primitives Sender.sampleCipher jsonReader.codec
      (fun _ => privateKey) hello "receiver_1" encrypted
      (requestOf (Utf8.encode (encrypted.publishCommand "e"))) := by
  refine ⟨keyFiles, .empty, "e", ?_, encrypts_hello, by decide, by decide,
    rfl⟩
  intro keyText isKey
  cases isKey
  exact keysExchanged

def serverConfig : ServerConfig :=
  { Server.sampleConfig with codec := jsonReader.codec }

/-- `receiver_1` sets up its queue and consumes from it, `sender_1` publishes
the encrypted message, and its line is written. -/
def deliveringRun : List Server.Event :=
  [.connect "receiver_1" "10.0.0.1" .smooth,
    .connect "sender_1" "10.0.0.2" .smooth] ++
  Server.request 0 "declare_queue receiver_1_queue\n" 0 1 ++
  Server.request 0 "declare_exchange e\n" 1 1 ++
  Server.request 0 "bind receiver_1_queue e receiver_1_key\n" 2 3 ++
  Server.request 0 "consume receiver_1_queue\n" 3 3 ++
  Server.request 1 (encrypted.publishCommand "e") 4 8 ++
  [.handler 0 .receive, .handler 0 (.deliver .smooth),
    .handler 0 (.deliver .smooth), .handler 0 (.deliver .smooth)]

def delivered : Delivery :=
  ⟨"receiver_1_queue", encrypted.messageId, encrypted.input⟩

theorem content_returns_hello :
    ∃ server session message payload envelope loaded,
      Reachable (Server.step serverConfig) (Server.new serverConfig) server ∧
      server.sessions[0]? = some session ∧
      .message delivered ∈ session.written ∧
      parseMessageLine (Receiver.readLine (Utf8.encode
          (Line.text jsonReader.codec (.message delivered)))) =
        some (Sender.messageIdOf message "receiver_1", payload) ∧
      jsonReader.fromStr EncryptedEnvelope.ofJson payload = .ok envelope ∧
      Receiver.loadPrivateKey (makeKeys primitives privateKey).privateKey =
        .ok loaded ∧
      Receiver.decryptMessage primitives envelope loaded =
        some (.ok message.content) := by
  have ran : (executeWhile (Server.step serverConfig) (fun _ _ => True)
      (Server.new serverConfig) deliveringRun).map (fun server =>
        decide ((server.sessions[0]?).map (fun session =>
            decide (.message delivered ∈ session.written)) = some true ∧
          ∀ client ∈ server.sessions, ∀ request ∈ client.intake.requests,
            ((splitRequest request).1 ≠ "publish" ∧
              (splitRequest request).1 ≠ "publish_batch") ∨
            request = requestOf
              (Utf8.encode (encrypted.publishCommand "e")))) =
      some true := by
    decide +kernel
  obtain ⟨server, reached, seen⟩ := exists_reachableWhile_of_map ran
  obtain ⟨isWritten, requests⟩ := of_decide_eq_true seen
  obtain ⟨session, found, holds⟩ := Option.map_eq_some_iff.mp isWritten
  have honest : ∀ client ∈ server.sessions,
      ∀ request ∈ client.intake.requests, ∀ exchangeName routingKey input,
        Publishes serverConfig.codec request exchangeName routingKey input →
          ∃ message receiverId encrypted,
            PublishesFor primitives Sender.sampleCipher serverConfig.codec
              (fun _ => privateKey) message receiverId encrypted
              request := by
    rintro client isClient request isRequest exchangeName routingKey input
      ⟨text, -, publishes⟩
    rcases requests client isClient request isRequest with
      ⟨notSingle, notBatch⟩ | isPublish
    · exact publishes.elim (fun single => absurd single.1 notSingle)
        fun batch => absurd batch.1 notBatch
    · rw [isPublish]
      exact ⟨hello, "receiver_1", encrypted, publishesFor_hello⟩
  have isLine := of_decide_eq_true holds
  have usesJson : serverConfig.codec = jsonReader.codec := rfl
  obtain ⟨message, -, payload, envelope, loaded, -, parsed, isEnvelope,
    loads, decrypts⟩ := Server.content_returns primitives_lawful
      Sender.sampleCipher_lawful usesJson reached honest found
      isLine ⟨by decide, by decide +kernel, by decide +kernel,
        by decide +kernel⟩
  exact ⟨server, session, message, payload, envelope, loaded, reached, found,
    isLine, parsed, isEnvelope, loads, decrypts⟩

end SampleExchange

end CipherMQ
