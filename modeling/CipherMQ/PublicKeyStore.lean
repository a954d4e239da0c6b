import CipherMQ.Server
import CipherMQ.StorageWorker

/-!
# The public key store

Receivers register their public keys with the server, and senders ask for
them by the name of the receiver.  A key crosses a request line, the handler,
the storage worker, which keeps it encrypted, and a response line.  Requests
are served one after the other here, as the single worker does, and every
statement of the database succeeds.
-/

namespace CipherMQ

/-- What is assumed of AES-256-GCM: a ciphertext is longer than its plaintext
by a tag, and decrypts to it under the same nonce. -/
structure KeyCipher.Lawful (cipher : KeyCipher) : Prop where
  tagged : ∀ {nonce plain encrypted : List UInt8}, nonce.length = 12 →
    cipher.encrypt nonce plain = .ok encrypted →
      encrypted.length = plain.length + 16
  inverts : ∀ {nonce plain encrypted : List UInt8}, nonce.length = 12 →
    cipher.encrypt nonce plain = .ok encrypted →
      cipher.decrypt nonce encrypted = .ok plain

/-! ## Saving and decrypting a row -/

namespace StorageWorker

variable {cipher : KeyCipher}

theorem decodeColumn_encode (name : String) (bytes : List UInt8) :
    decodeColumn cipher name (Base64.encode bytes) = .ok bytes := by
  simp [decodeColumn]

theorem decryptRow_publicKeyRow (lawful : cipher.Lawful)
    {nonce plain encrypted : List UInt8} (nonceLength : nonce.length = 12)
    (encrypts : cipher.encrypt nonce plain = .ok encrypted)
    (clientId : String) (count : Nat) :
    decryptRow cipher (publicKeyRow clientId nonce (encrypted.take count)
        (encrypted.drop count)) =
      some (.ok (Base64.encode plain)) := by
  have decrypts := lawful.inverts nonceLength encrypts
  simp [decryptRow, publicKeyRow, decodeColumn_encode, nonceLength, decrypts]

theorem clientId_replace (old row : PublicKeyRow) :
    old.clientId = row.clientId →
      ((fun _ row => row) old row : PublicKeyRow).clientId = row.clientId :=
  fun _ => rfl

def storeRow (worker : StorageWorker) (row : PublicKeyRow) : StorageWorker :=
  { worker with
    publicKeys := worker.publicKeys.upsert (fun _ row => row)
      clientId_replace row }

theorem lookup_storeRow (worker : StorageWorker) (row : PublicKeyRow)
    (clientId : String) :
    (worker.storeRow row).publicKeys.lookup clientId =
      if clientId = row.clientId then some row
      else worker.publicKeys.lookup clientId := by
  unfold storeRow
  rw [Table.lookup_upsert]
  split
  · cases worker.publicKeys.lookup row.clientId <;> rfl
  · rfl

/-- The split of the tag never underflows: a key is either refused or stored
so that it can be decrypted. -/
theorem savePublicKey_cases (lawful : cipher.Lawful) (worker : StorageWorker)
    (keyData : PublicKeyData) {nonce : List UInt8}
    (nonceLength : nonce.length = 12) :
    (∃ error, worker.savePublicKey cipher keyData nonce (.ok ()) =
        some (worker, .error error)) ∨
      ∃ row, row.clientId = keyData.clientId ∧
        decryptRow cipher row = some (.ok keyData.publicKey) ∧
        (Base64.decode keyData.publicKey).isSome ∧
        worker.savePublicKey cipher keyData nonce (.ok ()) =
          some (worker.storeRow row, .ok ()) := by
  unfold savePublicKey
  cases decoded : Base64.decode keyData.publicKey with
  | none =>
      left
      exact ⟨_, by simp [decodeColumn, decoded]; rfl⟩
  | some plain =>
      cases encrypts : cipher.encrypt nonce plain with
      | error error =>
          left
          exact ⟨_, by simp [decodeColumn, decoded, encrypts]; rfl⟩
      | ok encrypted =>
          right
          have long : 16 ≤ encrypted.length := by
            have length := lawful.tagged nonceLength encrypts
            omega
          refine ⟨publicKeyRow keyData.clientId nonce
            (encrypted.take (encrypted.length - 16))
            (encrypted.drop (encrypted.length - 16)), rfl, ?_, rfl, ?_⟩
          · rw [decryptRow_publicKeyRow lawful nonceLength encrypts,
              Base64.encode_of_decode decoded]
          · simp [decodeColumn, decoded, encrypts, splitTag, long, storeRow]

end StorageWorker

/-! ## Serving requests -/

def registerReply : Except StorageError Unit → String
  | .ok () => "Public key registered\n"
  | .error error =>
      "Error: Failed to save public key: " ++ error.display ++ "\n"

def publicKeyReply : Except StorageError (Option String) → String
  | .ok (some publicKey) => "Public key: " ++ publicKey ++ "\n"
  | .ok none => "Public key not found\n"
  | .error error =>
      "Error: Failed to get public key: " ++ error.display ++ "\n"

theorem registerReply_error (error : StorageError) :
    registerReply (.error error) =
      "Error: Failed to save public key: " ++ error.display ++ "\n" :=
  rfl

theorem publicKeyReply_found (publicKey : String) :
    publicKeyReply (.ok (some publicKey)) =
      "Public key: " ++ publicKey ++ "\n" :=
  rfl

/-- A command that reaches the worker is on its way, whatever the answer. -/
theorem Storage.request_of_sent {Answer : Type} (storage : Storage)
    (command : StorageCommand) (unsent : String)
    {reply : Except StorageError Answer}
    (sent : ∀ error, reply ≠ .error (.channelSend error)) :
    storage.request command unsent reply = (storage.send command, reply) := by
  unfold Storage.request
  split
  · rename_i error
    exact (sent error rfl).elim
  · rfl

/-- The handler of a registration writes this reply, whatever the worker
answers. -/
theorem Server.answer_registerPublicKey (server : Server) (index : Nat)
    (session : Session) (outcome : Outcome) (publicKey : String)
    (sent : ∀ error, outcome.saved ≠ .error (.channelSend error)) :
    server.answer index session outcome (.registerPublicKey publicKey) =
      (server.updateShared
        { server.broker.shared with
          storage := server.broker.shared.storage.send
            (.savePublicKey ⟨session.clientId, publicKey⟩) }).reply index
        session outcome (registerReply outcome.saved) := by
  have requested : server.broker.shared.storage.savePublicKey
      ⟨session.clientId, publicKey⟩ outcome.saved =
        (server.broker.shared.storage.send
          (.savePublicKey ⟨session.clientId, publicKey⟩),
          outcome.saved) :=
    Storage.request_of_sent _ _ _ sent
  unfold Server.answer
  dsimp only
  rw [requested]
  rfl

/-- The handler of a question for a key writes this reply, whatever the worker
answers. -/
theorem Server.answer_getPublicKey (server : Server) (index : Nat)
    (session : Session) (outcome : Outcome) (clientId : String)
    (sent : ∀ error, outcome.found ≠ .error (.channelSend error)) :
    server.answer index session outcome (.getPublicKey clientId) =
      (server.updateShared
        { server.broker.shared with
          storage := server.broker.shared.storage.send
            (.getPublicKey clientId) }).reply index
        session outcome (publicKeyReply outcome.found) := by
  have requested : server.broker.shared.storage.getPublicKey clientId
      outcome.found =
        (server.broker.shared.storage.send (.getPublicKey clientId),
          outcome.found) :=
    Storage.request_of_sent _ _ _ sent
  unfold Server.answer
  dsimp only
  rw [requested]
  rfl

theorem registerReply_error_ne (error : StorageError) :
    registerReply (.error error) ≠ "Public key registered\n" := by
  intro same
  have begins : ("Error: Failed to save public key: " ++ error.display ++
      "\n").toList.head? = some 'E' := by
    rw [String.toList_append, String.toList_append]
    rfl
  rw [← registerReply_error, same] at begins
  exact absurd begins (by decide)

/-- A request of a connected client: the bytes of one read, what the rate
limiter says to it, and the nonce drawn should it register a key. -/
structure KeyRequest where
  client : Client
  bytes : List UInt8
  limited : Bool
  now : Nat
  nonce : List UInt8
  nonce_length : nonce.length = 12

def KeyRequest.action (codec : Codec) (request : KeyRequest) : Action :=
  request.client.handleRequest codec request.limited request.now
    (requestOf request.bytes)

/-- The same moment of the same connection, at which a line arrives. -/
def KeyRequest.withLine (request : KeyRequest) (line : String) :
    KeyRequest :=
  { request with bytes := Utf8.encode line }

/-- The worker and the requests served so far with their replies, the latest
one first. -/
structure KeyService where
  worker : StorageWorker
  served : List (KeyRequest × Option String)

namespace KeyService

def new (messageMetadata : Table MessageMetadata.messageId) : KeyService :=
  ⟨.new messageMetadata .empty, []⟩

/-- Serve one request.  Requests for the broker have no part in the keys and
are left unanswered here; no result means that the worker panics. -/
def serve (cipher : KeyCipher) (codec : Codec) (service : KeyService)
    (request : KeyRequest) : Option KeyService :=
  match request.action codec with
  | .query (.registerPublicKey publicKey) =>
      (service.worker.savePublicKey cipher
        ⟨request.client.clientId, publicKey⟩ request.nonce (.ok ())).map
          fun saved =>
            ⟨saved.1, (request, some (registerReply saved.2)) ::
              service.served⟩
  | .query (.getPublicKey clientId) =>
      (service.worker.getPublicKey cipher clientId (.ok ())).map fun found =>
        { service with
          served := (request, some (publicKeyReply found)) ::
            service.served }
  | .refuse text | .write text | .demand text | .heartbeat text =>
      some { service with
        served := (request, some text) :: service.served }
  | .query (.resend _) | .call _ _ =>
      some { service with served := (request, none) :: service.served }

def serveAll (cipher : KeyCipher) (codec : Codec) (service : KeyService) :
    List KeyRequest → Option KeyService
  | [] => some service
  | request :: requests =>
      (service.serve cipher codec request).bind fun service =>
        service.serveAll cipher codec requests

def registered (codec : Codec) (clientId : String)
    (exchange : KeyRequest × Option String) : Option String :=
  match exchange.1.action codec with
  | .query (.registerPublicKey publicKey) =>
      if exchange.1.client.clientId = clientId ∧
          exchange.2 = some "Public key registered\n" then
        some publicKey
      else
        none
  | _ => none

def lastRegistered (codec : Codec) (service : KeyService)
    (clientId : String) : Option String :=
  service.served.findSome? (registered codec clientId)

end KeyService

/-! ## The sender's question -/

namespace Sender

def getPublicKeyCommand (clientId : String) : String :=
  "get_public_key " ++ clientId ++ "\n"

def response (reply : String) : List Char :=
  Text.trim (Text.firstLine reply.toList)

/-- The key in a response; every other response counts as no key. -/
def parsePublicKey (reply : String) : Option String :=
  let response := response reply
  if "Public key: ".toList.isPrefixOf response then
    some (String.ofList (response.drop 12))
  else
    none

/-- Ask the server for the key of a client, at the moment and on the
connection of `question`. -/
def getPublicKey (cipher : KeyCipher) (codec : Codec) (service : KeyService)
    (question : KeyRequest) (clientId : String) : Option (Option String) :=
  (service.serve cipher codec
    (question.withLine (getPublicKeyCommand clientId))).map fun service =>
      (service.served.head?.bind Prod.snd).bind parsePublicKey

theorem parsePublicKey_found {bytes : List UInt8}
    (nonempty : Base64.encode bytes ≠ "") :
    parsePublicKey (publicKeyReply (.ok (some (Base64.encode bytes)))) =
      some (Base64.encode bytes) := by
  have visible : ∀ character ∈ Base64.encodeChars bytes,
      Text.isWhitespace character = false :=
    Base64.not_whitespace_of_mem_encodeChars
  have keyNonempty : Base64.encodeChars bytes ≠ [] := by
    intro isEmpty
    exact nonempty (by rw [Base64.encode, isEmpty])
  have oneLine : '\n' ∉ "Public key: ".toList ++
      Base64.encodeChars bytes := by
    intro member
    rcases List.mem_append.mp member with inLabel | inKey
    · exact absurd inLabel (by decide)
    · exact absurd (visible '\n' inKey) (by decide)
  have characters :
      (publicKeyReply (.ok (some (Base64.encode bytes)))).toList =
        ("Public key: ".toList ++ Base64.encodeChars bytes) ++ ['\n'] := by
    have newline : "\n".toList = ['\n'] := by decide
    rw [publicKeyReply_found, String.toList_append, String.toList_append,
      Base64.toList_encode, newline]
  have trimmed : Text.trim ("Public key: ".toList ++
      Base64.encodeChars bytes) =
        "Public key: ".toList ++ Base64.encodeChars bytes := by
    have keyKept := Text.trimEnd_of_visible visible
    change Text.trim ('P' :: ("ublic key: ".toList ++ _)) = _
    rw [Text.trim_cons_of_visible (by decide), ← List.cons_append,
      Text.trimEnd_append, keyKept, if_neg keyNonempty]
    rfl
  unfold parsePublicKey response
  rw [characters, Text.firstLine_append oneLine, trimmed]
  simp [Base64.encode]

theorem parsePublicKey_missing :
    parsePublicKey (publicKeyReply (.ok none)) = none := by
  decide

end Sender

/-! ## Keys are kept faithfully -/

theorem Client.nonempty_of_registers {codec : Codec} {client : Client}
    {limited : Bool} {now : Nat} {request : List Char} {publicKey : String}
    (registers : client.handleRequest codec limited now request =
      .query (.registerPublicKey publicKey)) : publicKey ≠ "" := by
  rcases handleRequest_cases codec client limited now request with
    ⟨text, refused⟩ | ⟨-, -, runs⟩
  · rw [refused] at registers
    cases registers
  rw [runs] at registers
  unfold runCommand guardQueue at registers
  dsimp only at registers
  split at registers
  case h_5 =>
    -- A batch continues with a call or with a reply.
    split at registers
    · split at registers
      · rename_i messages _
        cases messages <;> cases registers
      · cases registers
    · cases registers
  case h_9 =>
    split at registers
    · rename_i nonempty
      cases registers
      exact nonempty
    · cases registers
  all_goals
    repeat' split at registers
    all_goals cases registers

namespace KeyService

variable {cipher : KeyCipher} {codec : Codec}

structure Faithful (cipher : KeyCipher) (codec : Codec)
    (service : KeyService) : Prop where
  stored : ∀ clientId,
    (service.worker.publicKeys.lookup clientId).map
        (StorageWorker.decryptRow cipher) =
      (service.lastRegistered codec clientId).map fun publicKey =>
        some (.ok publicKey)
  accepted : ∀ clientId publicKey,
    service.lastRegistered codec clientId = some publicKey →
      publicKey ≠ "" ∧ (Base64.decode publicKey).isSome

theorem faithful_new (messageMetadata : Table MessageMetadata.messageId) :
    Faithful cipher codec (new messageMetadata) :=
  ⟨fun _ => rfl, fun _ _ isRegistered => by cases isRegistered⟩

theorem getPublicKey_of_faithful {service : KeyService}
    (faithful : Faithful cipher codec service) (clientId : String) :
    service.worker.getPublicKey cipher clientId (.ok ()) =
      some (.ok (service.lastRegistered codec clientId)) := by
  have stored := faithful.stored clientId
  unfold StorageWorker.getPublicKey
  dsimp only
  split
  · rename_i missing
    rw [missing, Option.map_none] at stored
    rw [Option.map_eq_none_iff.mp stored.symm]
  · rename_i row found
    rw [found, Option.map_some] at stored
    obtain ⟨publicKey, isLast, decrypts⟩ :=
      Option.map_eq_some_iff.mp stored.symm
    rw [← decrypts, isLast]
    rfl

theorem Faithful.idle {service : KeyService}
    (faithful : Faithful cipher codec service)
    {exchange : KeyRequest × Option String}
    (registersNone : ∀ clientId,
      registered codec clientId exchange = none) :
    Faithful cipher codec
      { service with served := exchange :: service.served } := by
  have same : ∀ clientId,
      lastRegistered codec
          { service with served := exchange :: service.served } clientId =
        service.lastRegistered codec clientId := by
    intro clientId
    rw [lastRegistered, List.findSome?_cons, registersNone]
    rfl
  constructor
  · intro clientId
    rw [same]
    exact faithful.stored clientId
  · intro clientId publicKey
    rw [same]
    exact faithful.accepted clientId publicKey

theorem Faithful.register {service : KeyService} {request : KeyRequest}
    {publicKey : String} {row : PublicKeyRow}
    (faithful : Faithful cipher codec service)
    (isRegistration : request.action codec =
      .query (.registerPublicKey publicKey))
    (isRow : row.clientId = request.client.clientId)
    (decrypts : StorageWorker.decryptRow cipher row =
      some (.ok publicKey))
    (isBase64 : (Base64.decode publicKey).isSome) :
    Faithful cipher codec
      ⟨service.worker.storeRow row,
        (request, some "Public key registered\n") :: service.served⟩ := by
  have last : ∀ clientId,
      lastRegistered codec
          ⟨service.worker.storeRow row,
            (request, some "Public key registered\n") :: service.served⟩
          clientId =
        if clientId = row.clientId then some publicKey
        else service.lastRegistered codec clientId := by
    intro clientId
    rw [lastRegistered, List.findSome?_cons, registered, isRegistration,
      isRow]
    by_cases same : clientId = request.client.clientId
    · simp [same]
    · have different : request.client.clientId ≠ clientId :=
        fun equal => same equal.symm
      simp [same, different, lastRegistered]
  constructor
  · intro clientId
    rw [last, StorageWorker.lookup_storeRow]
    split
    · simp [decrypts]
    · exact faithful.stored clientId
  · intro clientId key
    rw [last]
    split
    · intro isKey
      cases isKey
      exact ⟨Client.nonempty_of_registers isRegistration, isBase64⟩
    · exact faithful.accepted clientId key

theorem Faithful.serve (lawful : cipher.Lawful) {service : KeyService}
    (faithful : Faithful cipher codec service) (request : KeyRequest) :
    ∃ reply worker,
      service.serve cipher codec request =
          some ⟨worker, (request, reply) :: service.served⟩ ∧
        Faithful cipher codec
          ⟨worker, (request, reply) :: service.served⟩ := by
  have idle : ∀ reply, (∀ publicKey, request.action codec ≠
      .query (.registerPublicKey publicKey)) →
        Faithful cipher codec
          ⟨service.worker, (request, reply) :: service.served⟩ := by
    intro reply noRegistration
    apply faithful.idle
    intro clientId
    unfold registered
    split
    · rename_i publicKey isRegistration
      exact (noRegistration publicKey isRegistration).elim
    · rfl
  unfold KeyService.serve
  cases isAction : request.action codec with
  | query query =>
      cases query with
      | registerPublicKey publicKey =>
          rcases StorageWorker.savePublicKey_cases lawful service.worker
              ⟨request.client.clientId, publicKey⟩ request.nonce_length with
            ⟨error, refused⟩ | ⟨row, isRow, decrypts, isBase64, saved⟩
          · refine ⟨some (registerReply (.error error)), service.worker, ?_,
              ?_⟩
            · simp [refused]
            · apply faithful.idle
              intro clientId
              unfold registered
              simp [isAction, registerReply_error_ne]
          · refine ⟨some (registerReply (.ok ())),
              service.worker.storeRow row, ?_, ?_⟩
            · simp [saved]
            · exact faithful.register isAction isRow decrypts isBase64
      | getPublicKey clientId =>
          refine ⟨some (publicKeyReply
            (.ok (service.lastRegistered codec clientId))),
            service.worker, ?_, idle _ (by simp [isAction])⟩
          simp [getPublicKey_of_faithful faithful]
      | resend messageId =>
          exact ⟨none, service.worker, rfl, idle _ (by simp [isAction])⟩
  | refuse text | write text | demand text | heartbeat text =>
      exact ⟨some text, service.worker, rfl, idle _ (by simp [isAction])⟩
  | call invocation next =>
      exact ⟨none, service.worker, rfl, idle _ (by simp [isAction])⟩

/-- Any sequence of requests is served without a panic, and afterwards the
last successful registrations are what is stored. -/
theorem Faithful.serveAll (lawful : cipher.Lawful) {service : KeyService}
    (faithful : Faithful cipher codec service)
    (requests : List KeyRequest) :
    ∃ after, service.serveAll cipher codec requests = some after ∧
      after.served.map Prod.fst =
        requests.reverse ++ service.served.map Prod.fst ∧
      Faithful cipher codec after := by
  induction requests generalizing service with
  | nil => exact ⟨service, rfl, rfl, faithful⟩
  | cons request requests ih =>
      obtain ⟨reply, worker, serves, staysFaithful⟩ :=
        faithful.serve lawful request
      obtain ⟨after, servesRest, served, afterFaithful⟩ := ih staysFaithful
      refine ⟨after, ?_, ?_, afterFaithful⟩
      · rw [KeyService.serveAll, serves, Option.bind_some, servesRest]
      · rw [served]
        simp

end KeyService

/-- A permitted line of a command word and an argument reaches the branch of
the command, without white space at the end of the argument. -/
theorem KeyRequest.action_line {codec : Codec} {request : KeyRequest}
    (command : String) (nonempty : command ≠ "")
    (visible : ∀ character ∈ command.toList,
      Text.isWhitespace character = false)
    (permitted : AclManager.checkCommand request.client.role command =
      .allowed)
    (unlimited : request.limited = false) (argument : String) :
    (request.withLine (command ++ " " ++ argument ++ "\n")).action codec =
      request.client.runCommand codec request.now command
        (Text.trimEnd argument.toList) := by
  unfold KeyRequest.action KeyRequest.withLine
  dsimp only
  rw [unlimited]
  exact Client.handleRequest_line command nonempty visible permitted argument

def Receiver.registerPublicKeyCommand (publicKey : List UInt8) : String :=
  "register_public_key " ++ Base64.encode publicKey ++ "\n"

namespace Sender

variable {cipher : KeyCipher} {codec : Codec}

theorem action_getPublicKeyCommand {question : KeyRequest}
    (permitted : AclManager.checkCommand question.client.role
      "get_public_key" = .allowed)
    (unlimited : question.limited = false) {clientId : String}
    (nonempty : Text.trimEnd clientId.toList ≠ []) :
    (question.withLine (getPublicKeyCommand clientId)).action codec =
      .query (.getPublicKey
        (String.ofList (Text.trimEnd clientId.toList))) := by
  have line : getPublicKeyCommand clientId =
      "get_public_key" ++ " " ++ clientId ++ "\n" := rfl
  have named : String.ofList (Text.trimEnd clientId.toList) ≠ "" := by
    simpa using nonempty
  rw [line, KeyRequest.action_line "get_public_key" (by decide)
    (Text.visible_of_all (by decide)) permitted unlimited]
  exact if_pos named

/-- Once any requests have been served, asking for the key of a client gives
the key it registered last with success, or none if there was none. -/
theorem getPublicKey_eq_lastRegistered (lawful : cipher.Lawful)
    (codec : Codec) (messageMetadata : Table MessageMetadata.messageId)
    (requests : List KeyRequest) (question : KeyRequest)
    (permitted : AclManager.checkCommand question.client.role
      "get_public_key" = .allowed)
    (unlimited : question.limited = false) (clientId : String)
    (nonempty : clientId ≠ "")
    (endsVisibly : Text.trimEnd clientId.toList = clientId.toList) :
    ∃ service,
      (KeyService.new messageMetadata).serveAll cipher codec requests =
        some service ∧
      service.served.map Prod.fst = requests.reverse ∧
      getPublicKey cipher codec service question clientId =
        some (service.lastRegistered codec clientId) := by
  have begins : KeyService.Faithful cipher codec
      (KeyService.new messageMetadata) :=
    KeyService.faithful_new messageMetadata
  obtain ⟨service, serves, served, faithful⟩ :=
    begins.serveAll lawful requests
  have asks :
      (question.withLine (getPublicKeyCommand clientId)).action codec =
        .query (.getPublicKey clientId) := by
    rw [action_getPublicKeyCommand permitted unlimited, endsVisibly,
      String.ofList_toList]
    rw [endsVisibly]
    simpa using nonempty
  have parsed : parsePublicKey
      (publicKeyReply (.ok (service.lastRegistered codec clientId))) =
        service.lastRegistered codec clientId := by
    cases isLast : service.lastRegistered codec clientId with
    | none => exact parsePublicKey_missing
    | some publicKey =>
        obtain ⟨keyNonempty, isBase64⟩ :=
          faithful.accepted clientId publicKey isLast
        obtain ⟨bytes, decoded⟩ := Option.isSome_iff_exists.mp isBase64
        have encoded := Base64.encode_of_decode decoded
        rw [← encoded] at keyNonempty ⊢
        exact parsePublicKey_found keyNonempty
  refine ⟨service, serves, by simpa [KeyService.new] using served, ?_⟩
  unfold getPublicKey KeyService.serve
  rw [asks]
  simp [KeyService.getPublicKey_of_faithful faithful, parsed]

/-- A public key; its AES-256-GCM ciphertext below is under the nonce below and
the key of the bytes 0 to 31. -/
def samplePublicKey : List UInt8 :=
  (Base64.decode "hSDwCYkwp1R0i33ctD73Wg2/Og0mOBr066SpjqqbTmo=").getD []

def sampleNonce : List UInt8 :=
  (Base64.decode "AAECAwQFBgcICQoL").getD []

def sampleEncrypted : List UInt8 :=
  (Base64.decode ("wiImEkzVZU/5yupXBdePN45pvTnWQ0WI" ++
    "08NMC7fyTti7sfzDVloHDxGNDBfq4wH0")).getD []

/-- A cipher that knows this one ciphertext and elsewhere appends zeros. -/
def sampleCipher : KeyCipher where
  encrypt nonce plain :=
    if nonce = sampleNonce ∧ plain = samplePublicKey then
      .ok sampleEncrypted
    else
      .ok (plain ++ List.replicate 16 0)
  decrypt nonce encrypted :=
    if nonce = sampleNonce ∧ encrypted = sampleEncrypted then
      .ok samplePublicKey
    else if encrypted.drop (encrypted.length - 16) =
        List.replicate 16 0 then
      .ok (encrypted.take (encrypted.length - 16))
    else
      .error "aead::Error"
  decodeError _ := "Invalid symbol 45, offset 3."

theorem sampleCipher_lawful : sampleCipher.Lawful := by
  obtain ⟨sampleTag, sampleLength⟩ :
      sampleEncrypted.drop 32 ≠ List.replicate 16 0 ∧
        sampleEncrypted.length = 48 := by
    decide +kernel
  have plainLength : samplePublicKey.length = 32 := by decide +kernel
  constructor
  · intro nonce plain encrypted _ encrypts
    dsimp only [sampleCipher] at encrypts
    split at encrypts
    · rename_i isSample
      cases encrypts
      rw [isSample.2, sampleLength, plainLength]
    · cases encrypts
      simp
  · intro nonce plain encrypted _ encrypts
    dsimp only [sampleCipher] at encrypts ⊢
    split at encrypts
    · rename_i isSample
      cases encrypts
      simp [isSample]
    · cases encrypts
      have length : (plain ++ List.replicate 16 (0 : UInt8)).length - 16 =
          plain.length := by
        simp
      rw [if_neg, if_pos]
      · rw [length, List.take_left']
        rfl
      · rw [length, List.drop_left']
        rfl
      · rintro ⟨-, isSample⟩
        have plainShort : plain.length = 32 := by
          have lengths := congrArg List.length isSample
          rw [sampleLength] at lengths
          simp at lengths
          omega
        apply sampleTag
        rw [← isSample, List.drop_left' plainShort]

def noJson : Codec where
  parseMessage _ := .error "expected value at line 1 column 1"
  parseBatch _ := .error "expected value at line 1 column 1"
  print _ := "null"

def receiverLine (clientId line : String) : KeyRequest where
  client := ⟨clientId, .receiver, 0⟩
  bytes := Utf8.encode line
  limited := false
  now := 0
  nonce := sampleNonce
  nonce_length := by decide +kernel

def senderAsking : KeyRequest where
  client := ⟨"sender_1", .sender, 1⟩
  bytes := []
  limited := false
  now := 0
  nonce := sampleNonce
  nonce_length := by decide +kernel

def registrations (clientId : String) : List KeyRequest :=
  [receiverLine clientId
      (Receiver.registerPublicKeyCommand samplePublicKey),
    receiverLine clientId "register_public_key not-keys\n"]

theorem getPublicKey_eq_lastRegistered_receiver :
    ∃ service,
      (KeyService.new .empty).serveAll sampleCipher noJson
        (registrations "receiver_1") = some service ∧
      getPublicKey sampleCipher noJson service senderAsking "receiver_1" =
        some (some "hSDwCYkwp1R0i33ctD73Wg2/Og0mOBr066SpjqqbTmo=") := by
  obtain ⟨service, serves, -, asks⟩ :=
    getPublicKey_eq_lastRegistered sampleCipher_lawful noJson .empty
      (registrations "receiver_1") senderAsking (by decide) rfl
      "receiver_1" (by decide) (by decide +kernel)
  have evaluated : ((KeyService.new .empty).serveAll sampleCipher noJson
      (registrations "receiver_1")).map
          (fun service => service.lastRegistered noJson "receiver_1") =
        some (some "hSDwCYkwp1R0i33ctD73Wg2/Og0mOBr066SpjqqbTmo=") := by
    decide +kernel
  rw [serves, Option.map_some] at evaluated
  rw [Option.some.inj evaluated] at asks
  exact ⟨service, serves, asks⟩

/-- A receiver whose name ends in a space registers its key, but the request
line is trimmed and asks for another name.  A question the rate limiter
refuses has no key in its answer either. -/
theorem registered_key_not_returned :
    (∃ service,
      (KeyService.new .empty).serveAll sampleCipher noJson
        (registrations "receiver_1 ") = some service ∧
      service.lastRegistered noJson "receiver_1 " =
        some "hSDwCYkwp1R0i33ctD73Wg2/Og0mOBr066SpjqqbTmo=" ∧
      getPublicKey sampleCipher noJson service senderAsking "receiver_1 " =
        some none) ∧
    ∃ service,
      (KeyService.new .empty).serveAll sampleCipher noJson
        (registrations "receiver_1") = some service ∧
      service.lastRegistered noJson "receiver_1" =
        some "hSDwCYkwp1R0i33ctD73Wg2/Og0mOBr066SpjqqbTmo=" ∧
      getPublicKey sampleCipher noJson service
        { senderAsking with limited := true } "receiver_1" = some none := by
  have blankEnd : ((KeyService.new .empty).serveAll sampleCipher noJson
      (registrations "receiver_1 ")).map (fun service =>
        (service.lastRegistered noJson "receiver_1 ",
          getPublicKey sampleCipher noJson service senderAsking
            "receiver_1 ")) =
      some (some "hSDwCYkwp1R0i33ctD73Wg2/Og0mOBr066SpjqqbTmo=",
        some none) := by
    decide +kernel
  have limited : ((KeyService.new .empty).serveAll sampleCipher noJson
      (registrations "receiver_1")).map (fun service =>
        (service.lastRegistered noJson "receiver_1",
          getPublicKey sampleCipher noJson service
            { senderAsking with limited := true } "receiver_1")) =
      some (some "hSDwCYkwp1R0i33ctD73Wg2/Og0mOBr066SpjqqbTmo=",
        some none) := by
    decide +kernel
  obtain ⟨first, servesFirst, seenFirst⟩ :=
    Option.map_eq_some_iff.mp blankEnd
  obtain ⟨second, servesSecond, seenSecond⟩ :=
    Option.map_eq_some_iff.mp limited
  rw [Prod.mk.injEq] at seenFirst seenSecond
  exact ⟨⟨first, servesFirst, seenFirst.1, seenFirst.2⟩,
    second, servesSecond, seenSecond.1, seenSecond.2⟩

end Sender

end CipherMQ
