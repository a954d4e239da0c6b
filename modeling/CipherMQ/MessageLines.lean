import CipherMQ.Base64
import CipherMQ.ReceiverClient
import CipherMQ.ReceiverIsolation

/-!
# Message and acknowledgement lines

A message travels to a receiver in a line `Message: <id> <json>`, and its
identifier comes back in a line `ack <id>`.  Neither line quotes the
identifier, which is whatever string the sender's JSON held.  JSON texts are
printed and read by a library, whose functions are parameters.
-/

namespace CipherMQ

def EncryptedInputData.envelope (message : EncryptedInputData) :
    EncryptedEnvelope :=
  ⟨message.encSessionKey, message.nonce, message.ciphertext⟩

/-- What is assumed of the JSON library: a message is printed as an object, on
one line, and the receiver reads its envelope back from it. -/
structure JsonLaws (codec : Codec) (decoder : Decoder) : Prop where
  isObject : ∀ message, ∃ members,
    (codec.print message).toList = '\x7b' :: members ++ ['\x7d']
  oneLine : ∀ message, '\n' ∉ (codec.print message).toList
  reads : ∀ message,
    decoder.parseEnvelope (codec.print message) = .ok message.envelope

namespace Receiver

def readLine (bytes : List UInt8) : List Char :=
  Text.firstLine (Utf8.decodeLossy bytes)

def ackCommand (messageId : String) : String :=
  "ack " ++ messageId ++ "\n"

/-- The receiver takes the identifier and the envelope of a message from a
line written to it. -/
def Reads (codec : Codec) (decoder : Decoder) (line : Line)
    (message : EncryptedInputData) : Prop :=
  ∃ payload,
    parseMessageLine (readLine (Utf8.encode (line.text codec))) =
        some (message.messageId, payload) ∧
      decoder.parseEnvelope payload = .ok message.envelope

end Receiver

/-- The handler of a receiver takes an acknowledgement for one of the message
it names. -/
def Acknowledges (codec : Codec) (messageId : String) : Prop :=
  ∀ client : Client, client.role = .receiver → ∀ now,
    client.handleRequest codec false now
        (requestOf (Utf8.encode (Receiver.ackCommand messageId))) =
      .call (.acknowledge messageId) (.confirmAck messageId)

/-- An identifier that survives both lines. -/
structure LineSafe (messageId : String) : Prop where
  nonempty : messageId ≠ ""
  noSpace : ' ' ∉ messageId.toList
  oneLine : '\n' ∉ messageId.toList
  trimmed : Text.trim messageId.toList = messageId.toList

/-! ## The message line -/

section Lines

variable {codec : Codec} {decoder : Decoder}

theorem toList_messageLine (delivery : Delivery) :
    (Line.text codec (.message delivery)).toList =
      "Message: ".toList ++ (delivery.messageId.toList ++
        ' ' :: (codec.print delivery.message).toList) ++ ['\n'] := by
  have space : " ".toList = [' '] := by decide
  have newline : "\n".toList = ['\n'] := by decide
  unfold Line.text
  simp only [String.toList_append, space, newline, List.append_assoc,
    List.cons_append, List.nil_append]

theorem trimEnd_append_object {json members : List Char}
    (isObject : json = '\x7b' :: members ++ ['\x7d']) (text : List Char) :
    Text.trimEnd (text ++ json) = text ++ json := by
  have lastKept : Text.trimEnd ['\x7d'] = ['\x7d'] := by decide
  rw [isObject, ← List.append_assoc, Text.trimEnd_append, lastKept]
  simp

/-- The parser looks at the identifier and the JSON text, from the first
visible character on. -/
theorem parseMessageLine_eq {json members : List Char}
    (isObject : json = '\x7b' :: members ++ ['\x7d'])
    (messageId : List Char) :
    parseMessageLine ("Message: ".toList ++ (messageId ++ ' ' :: json)) =
      (Text.splitOnce ' ' (Text.trimStart (messageId ++ ' ' :: json))).bind
        fun parts =>
          if parts.1.isEmpty then none
          else some (String.ofList parts.1, String.ofList parts.2) := by
  have keepsEnd : ∀ text, Text.trimEnd (text ++ (messageId ++ ' ' :: json)) =
      text ++ (messageId ++ ' ' :: json) := by
    intro text
    have kept := trimEnd_append_object isObject
      (text ++ (messageId ++ [' ']))
    simpa using kept
  have whole : Text.trim ("Message: ".toList ++
      (messageId ++ ' ' :: json)) =
        "Message: ".toList ++ (messageId ++ ' ' :: json) := by
    rw [Text.trim_eq_trimStart (keepsEnd _)]
    rfl
  have body : Text.trim (("Message: ".toList ++
      (messageId ++ ' ' :: json)).drop 8) =
        Text.trimStart (messageId ++ ' ' :: json) := by
    change Text.trim ([' '] ++ (messageId ++ ' ' :: json)) = _
    rw [Text.trim_append_left (by decide), Text.trim_eq_trimStart]
    exact keepsEnd []
  have isMessage : "Message:".toList.isPrefixOf
      ("Message: ".toList ++ (messageId ++ ' ' :: json)) = true := by
    rfl
  unfold parseMessageLine
  dsimp only
  rw [whole, body, if_pos isMessage, Text.splitn]
  cases Text.splitOnce ' ' (Text.trimStart (messageId ++ ' ' :: json)) with
  | none => rfl
  | some parts => rfl

/-- An identifier with a visible beginning and without spaces is found. -/
theorem parseMessageLine_eq_some {messageId json : String}
    {members : List Char}
    (isObject : json.toList = '\x7b' :: members ++ ['\x7d'])
    (nonempty : messageId ≠ "") (noSpace : ' ' ∉ messageId.toList)
    (keptStart : Text.trimStart messageId.toList = messageId.toList) :
    parseMessageLine ("Message: ".toList ++
        (messageId.toList ++ ' ' :: json.toList)) =
      some (messageId, json) := by
  have charsNonempty : messageId.toList ≠ [] := by
    simpa using nonempty
  rw [parseMessageLine_eq isObject,
    Text.trimStart_append_of_self charsNonempty keptStart,
    Text.splitOnce_word noSpace]
  simp [nonempty]

theorem splitn_two (separator : Char) (text : List Char) :
    Text.splitn separator 2 text =
      match Text.splitOnce separator text with
      | some (first, rest) => [first, rest]
      | none => [text] := by
  rfl

/-- The identifier the parser finds is made of characters of the line. -/
theorem mem_of_parseMessageLine {line : List Char}
    {messageId payload : String}
    (parsed : parseMessageLine line = some (messageId, payload))
    {character : Char} (member : character ∈ messageId.toList) :
    character ∈ line := by
  unfold parseMessageLine at parsed
  dsimp only at parsed
  rw [splitn_two] at parsed
  split at parsed
  · cases cut : Text.splitOnce ' '
        (Text.trim ((Text.trim line).drop 8)) with
    | none => simp [cut] at parsed
    | some parts =>
        obtain ⟨first, rest⟩ := parts
        rw [cut] at parsed
        dsimp only at parsed
        split at parsed
        · cases parsed
        · cases parsed
          rw [String.toList_ofList] at member
          have inBody : character ∈
              Text.trim ((Text.trim line).drop 8) := by
            rw [(Text.splitOnce_eq_some cut).1]
            exact List.mem_append_left _ member
          have inMessage : character ∈ Text.trim line :=
            List.mem_of_mem_drop ((Text.trim_sublist _).subset inBody)
          exact (Text.trim_sublist line).subset inMessage
  · cases parsed

/-- The receiver reads a message line right exactly if the identifier has a
visible beginning and neither a space nor a line break. -/
theorem reads_iff (laws : JsonLaws codec decoder) (delivery : Delivery)
    (named : delivery.messageId = delivery.message.messageId) :
    Receiver.Reads codec decoder (.message delivery) delivery.message ↔
      delivery.messageId ≠ "" ∧ ' ' ∉ delivery.messageId.toList ∧
        '\n' ∉ delivery.messageId.toList ∧
        Text.trimStart delivery.messageId.toList =
          delivery.messageId.toList := by
  obtain ⟨members, isObject⟩ := laws.isObject delivery.message
  have line : '\n' ∉ delivery.messageId.toList →
      Receiver.readLine (Utf8.encode
          (Line.text codec (.message delivery))) =
        "Message: ".toList ++ (delivery.messageId.toList ++
          ' ' :: (codec.print delivery.message).toList) := by
    intro oneLine
    unfold Receiver.readLine
    rw [Utf8.decodeLossy_encode, toList_messageLine]
    apply Text.firstLine_append
    simp [oneLine, laws.oneLine delivery.message]
  constructor
  · rintro ⟨payload, parsed, -⟩
    rw [← named] at parsed
    have oneLine : '\n' ∉ delivery.messageId.toList := by
      intro member
      exact Text.newline_not_mem_firstLine _
        (mem_of_parseMessageLine parsed member)
    rw [line oneLine, parseMessageLine_eq isObject] at parsed
    obtain ⟨⟨first, rest⟩, cut, chosen⟩ := Option.bind_eq_some_iff.mp parsed
    dsimp only at chosen
    split at chosen
    · cases chosen
    · rename_i nonempty
      obtain ⟨isFirst, -⟩ := Prod.mk.inj (Option.some.inj chosen)
      obtain ⟨joined, noSpace⟩ := Text.splitOnce_eq_some cut
      have firstNonempty : first ≠ [] := by simpa using nonempty
      rw [← isFirst, String.toList_ofList] at oneLine ⊢
      refine ⟨by simpa using firstNonempty, noSpace, oneLine, ?_⟩
      exact Text.trimStart_eq_self_of_append firstNonempty joined
  · rintro ⟨nonempty, noSpace, oneLine, keptStart⟩
    refine ⟨codec.print delivery.message, ?_, laws.reads delivery.message⟩
    rw [line oneLine, ← named]
    exact parseMessageLine_eq_some isObject nonempty noSpace keptStart

/-! ## The acknowledgement line -/

/-- An acknowledgement reaches the message it names exactly if the identifier
has a visible end. -/
theorem acknowledges_iff (codec : Codec) (messageId : String) :
    Acknowledges codec messageId ↔
      messageId ≠ "" ∧
        Text.trimEnd messageId.toList = messageId.toList := by
  have line : Receiver.ackCommand messageId =
      "ack" ++ " " ++ messageId ++ "\n" := rfl
  have handled : ∀ client : Client, client.role = .receiver → ∀ now,
      client.handleRequest codec false now
          (requestOf (Utf8.encode (Receiver.ackCommand messageId))) =
        if String.ofList (Text.trimEnd messageId.toList) ≠ "" then
          .call (.acknowledge
              (String.ofList (Text.trimEnd messageId.toList)))
            (.confirmAck (String.ofList (Text.trimEnd messageId.toList)))
        else
          .demand "Missing message ID\n" := by
    intro client isReceiver now
    have permitted :
        AclManager.checkCommand client.role "ack" = .allowed := by
      rw [isReceiver]
      decide
    rw [line]
    exact Client.handleRequest_line "ack" (by decide)
      (Text.visible_of_all (by decide)) permitted messageId
  constructor
  · intro acknowledges
    have asked := acknowledges ⟨"", .receiver, 0⟩ rfl 0
    rw [handled _ rfl] at asked
    split at asked
    · rename_i nonempty
      have same : String.ofList (Text.trimEnd messageId.toList) =
          messageId := by
        simp only [Action.call.injEq, Invocation.acknowledge.injEq] at asked
        exact asked.1
      refine ⟨same ▸ nonempty, ?_⟩
      have characters := congrArg String.toList same
      rwa [String.toList_ofList] at characters
    · cases asked
  · rintro ⟨nonempty, keptEnd⟩ client isReceiver now
    rw [handled client isReceiver, keptEnd, String.ofList_toList]
    exact if_pos nonempty

end Lines

/-! ## What lines the server writes -/

open ServerState

def IsNamed (entry : QueueEntry) : Prop :=
  entry.1 = entry.2.messageId

namespace Broker

/-- Every entry on its way from a publish to a channel is kept under the
identifier of its message. -/
structure Named (broker : Broker) : Prop where
  queues : ∀ queueName queue, broker.shared.queues queueName = some queue →
    ∀ entry ∈ queue, IsNamed entry
  sent : ∀ channel, ∀ delivery ∈ (broker.shared.channels channel).sent,
    IsNamed (delivery.messageId, delivery.message)
  tasks : ∀ task ∈ broker.shared.deliveryTasks,
    ∀ entry ∈ task.remaining, IsNamed entry
  calls : ∀ queueName sender captured unread,
    .registerConsumer queueName sender (.readStatus captured unread) ∈
      broker.calls → ∀ entry ∈ captured ++ unread, IsNamed entry

theorem captured_of_advance {reading : Reading} {state : ServerState}
    {call : Call} {queueName : String} {sender : ChannelId}
    {captured unread : List QueueEntry}
    (advanced : (call.advance reading state).2 =
      .registerConsumer queueName sender (.readStatus captured unread))
    {entry : QueueEntry} (member : entry ∈ captured ++ unread) :
    (∃ queue, state.queues queueName = some queue ∧ entry ∈ queue) ∨
      ∃ earlier later,
        call = .registerConsumer queueName sender
          (.readStatus earlier later) ∧ entry ∈ earlier ++ later := by
  obtain ⟨point, rfl⟩ := registerConsumer_of_advance advanced
  have stepped : (registerConsumerStep state queueName sender point).2 =
      .readStatus captured unread := by
    injection advanced
  cases point with
  | readQueue =>
      simp only [registerConsumerStep] at stepped
      split at stepped
      · rename_i queue found
        split at stepped
        · cases stepped
          exact Or.inl ⟨_, found, member⟩
        · cases stepped
      · cases stepped
  | readStatus earlier later =>
      refine Or.inr ⟨earlier, later, rfl, ?_⟩
      cases later with
      | nil => cases stepped
      | cons first later =>
          simp only [registerConsumerStep] at stepped
          split at stepped
          · cases stepped
            simpa using member
          · cases stepped
            rcases List.mem_append.mp member with old | waiting
            · exact List.mem_append_left _ old
            · exact List.mem_append_right _ (List.mem_cons_of_mem _ waiting)
  | declareQueue => cases stepped
  | addConsumer => cases stepped
  | returned task => cases stepped

theorem Named.advance {broker : Broker} {index : Nat} {call : Call}
    (named : broker.Named) (found : broker.calls[index]? = some call)
    (reading : Reading) :
    Named ⟨(call.advance reading broker.shared).1,
      broker.calls.set index (call.advance reading broker.shared).2⟩ := by
  have isCall := List.mem_of_getElem? found
  have calls : ∀ queueName sender captured unread,
      .registerConsumer queueName sender (.readStatus captured unread) ∈
          broker.calls.set index (call.advance reading broker.shared).2 →
        ∀ entry ∈ captured ++ unread, IsNamed entry := by
    intro queueName sender captured unread member entry inCall
    rcases List.mem_or_eq_of_mem_set member with old | advanced
    · exact named.calls queueName sender captured unread old entry inCall
    · rcases captured_of_advance advanced.symm inCall with
        ⟨queue, isQueue, inQueue⟩ | ⟨earlier, later, rfl, before⟩
      · exact named.queues queueName queue isQueue entry inQueue
      · exact named.calls _ _ earlier later isCall entry before
  have access := access_advance reading broker.shared call
  generalize (call.advance reading broker.shared).1 = shared at access ⊢
  cases access with
  | declareQueue _ other =>
      refine ⟨?_, named.sent, named.tasks, calls⟩
      intro queueName queue isQueue
      by_cases same : queueName = other
      · subst same
        cases declared : broker.shared.queues queueName with
        | none =>
            simp [ServerState.declareQueue, declared] at isQueue
            simp [isQueue]
        | some old =>
            simp [ServerState.declareQueue, declared] at isQueue
            exact isQueue ▸ named.queues queueName old declared
      · apply named.queues queueName queue
        simpa [ServerState.declareQueue, same] using isQueue
  | append request targets queueSet other remaining old isOld =>
      refine ⟨?_, named.sent, named.tasks, calls⟩
      intro queueName queue isQueue entry member
      by_cases same : queueName = other
      · subst same
        simp only [KeyMap.insert_apply, if_true, Option.some.injEq] at isQueue
        subst isQueue
        rcases List.mem_append.mp member with kept | isNew
        · apply named.queues queueName old isOld
          rw [popOldest_snd] at kept
          split at kept
          · exact List.mem_of_mem_tail kept
          · exact kept
        · rw [List.mem_singleton] at isNew
          subst isNew
          rfl
      · apply named.queues queueName queue _ entry member
        simpa [same] using isQueue
  | notify request queueName remaining =>
      refine ⟨named.queues, ?_, named.tasks, calls⟩
      intro channel delivery member
      rcases mem_push_sent member with old | copied
      · exact named.sent channel delivery old
      · obtain ⟨_, -, isCopy⟩ := List.mem_flatMap.mp copied
        obtain ⟨-, rfl⟩ := List.mem_replicate.mp isCopy
        rfl
  | spawn queueName sender captured =>
      refine ⟨named.queues, named.sent, ?_, calls⟩
      intro task member entry inTask
      rcases List.mem_append.mp member with old | spawned
      · exact named.tasks task old entry inTask
      · rw [List.mem_singleton] at spawned
        subst spawned
        exact named.calls queueName sender captured [] isCall entry
          (List.mem_append_left _ inTask)
  | removeFrom messageId other remaining =>
      refine ⟨?_, named.sent, named.tasks, calls⟩
      intro queueName queue isQueue entry member
      by_cases same : queueName = other
      · subst same
        simp [removeFromQueue] at isQueue
        obtain ⟨old, isOld, rfl⟩ := isQueue
        exact named.queues queueName old isOld entry
          (List.mem_of_mem_filter member)
      · apply named.queues queueName queue _ entry member
        simpa [removeFromQueue, same] using isQueue
  | _ => exact ⟨named.queues, named.sent, named.tasks, calls⟩

theorem Named.runDeliveryTask {broker : Broker} (named : broker.Named)
    (index : Nat) :
    Named { broker with shared := broker.shared.runDeliveryTask index } := by
  rcases runDeliveryTask_cases broker.shared index with
    unchanged | ⟨task, entry, rest, found, remaining, ran⟩
  · rw [unchanged]
    exact named
  · have fromTask := named.tasks task (List.mem_of_getElem? found)
    rw [remaining] at fromTask
    rw [ran]
    refine ⟨named.queues, ?_, ?_, named.calls⟩
    · intro channel delivery member
      rcases mem_sent_update member with old | ⟨-, rfl⟩
      · exact named.sent channel delivery old
      · exact fromTask entry List.mem_cons_self
    · intro other member waiting inTask
      rcases List.mem_or_eq_of_mem_set member with old | rfl
      · exact named.tasks other old waiting inTask
      · apply fromTask waiting
        dsimp only at inTask
        split at inTask
        · cases inTask
        · exact List.mem_cons_of_mem _ inTask

theorem Named.step {before after : Broker} {event : Event}
    (named : before.Named) (stepTo : before.step event = some after) :
    after.Named := by
  rcases step_cases stepTo with
    ⟨invocation, rfl, rfl⟩ | ⟨index, reading, call, -, found, -, rfl⟩ |
    ⟨messageId, reading, -, rfl⟩ | ⟨channel, -, rfl⟩ | ⟨index, -, rfl⟩ |
    ⟨_, _, -, rfl⟩
  · refine ⟨named.queues, named.sent, named.tasks, ?_⟩
    intro queueName sender captured unread member
    rcases List.mem_append.mp member with old | started
    · exact named.calls queueName sender captured unread old
    · rw [List.mem_singleton] at started
      cases invocation <;> cases started
  · exact named.advance found reading
  · obtain ⟨messageStatus, storage, marked, -⟩ :=
      markDelivered_frame before.shared messageId reading.now reading.time
    rw [marked]
    exact ⟨named.queues, named.sent, named.tasks, named.calls⟩
  · refine ⟨named.queues, ?_, named.tasks, named.calls⟩
    intro other delivery member
    rw [sent_dropReceiver] at member
    exact named.sent other delivery member
  · exact named.runDeliveryTask index
  · exact ⟨named.queues, named.sent, named.tasks, named.calls⟩

theorem Named.run {allowed : Invocation → Prop} {before after : Broker}
    (named : before.Named)
    (reached : ReachableWhile Broker.step (Invokes allowed) before after) :
    after.Named :=
  reached.invariant Named named
    fun _ _ _ named _ stepTo => named.step stepTo

end Broker

namespace Server

/-- Every message written to a connection, or about to be, goes under its own
identifier. -/
structure WritesNamed (server : Server) : Prop where
  broker : server.broker.Named
  delivering : ∀ session ∈ server.sessions, ∀ delivery point,
    session.activity = .delivering delivery point →
      IsNamed (delivery.messageId, delivery.message)
  written : ∀ session ∈ server.sessions, ∀ delivery,
    .message delivery ∈ session.written →
      IsNamed (delivery.messageId, delivery.message)

theorem WritesNamed.step {config : ServerConfig} {before after : Server}
    {event : Event} (names : WritesNamed before)
    (stepTo : before.step config event = some after) :
    WritesNamed after := by
  have broker : after.broker.Named := by
    rcases step_cases stepTo with ⟨session, connected⟩ |
      ⟨index, handlerEvent, session, next, -, -, handled⟩ | ⟨-, -, broker⟩
    · exact names.broker.run connected.broker
    · exact names.broker.run handled.broker
    · exact names.broker.run broker
  have conveys : Conveys
      (fun _ delivery => IsNamed (delivery.messageId, delivery.message))
      before.sessions :=
    ⟨names.delivering, names.written⟩
  obtain ⟨delivering, written⟩ := conveys.step
    (fun _ _ _ _ _ isNamed => isNamed)
    (fun index _ _ => names.broker.sent index) stepTo
  exact ⟨broker, delivering, written⟩

end Server

/-! ## Two identifiers -/

namespace SampleLines

def object (members : String) : String :=
  "\x7b" ++ members ++ "\x7d"

def members (messageId : String) : String :=
  "\"message_id\":\"" ++ messageId ++
    ("\",\"receiver_client_id\":\"receiver_1\"," ++
      "\"enc_session_key\":\"key\",\"nonce\":\"nonce\"," ++
      "\"ciphertext\":\"text\"")

theorem toList_append_three (first second third : String) :
    (first ++ second ++ third).toList =
      first.toList ++ second.toList ++ third.toList := by
  rw [String.toList_append, String.toList_append]

theorem toList_members (messageId : String) :
    ∃ later, (members messageId).toList =
        "\"message_id\":\"".toList ++ messageId.toList ++ later ∧
      '\n' ∉ later :=
  ⟨_, toList_append_three _ messageId _, by decide +kernel⟩

/-- Another way to write the fields of an envelope. -/
def encodedFields (message : EncryptedInputData) : String :=
  " " ++ Base64.encode (Utf8.encode message.encSessionKey) ++ " " ++
    Base64.encode (Utf8.encode message.nonce) ++ " " ++
    Base64.encode (Utf8.encode message.ciphertext)

def codec (messageId : String) : Codec where
  parseMessage text :=
    if text = object (members messageId) then .ok (sampleMessage messageId)
    else .error "expected value at line 1 column 1"
  parseBatch _ := .error "expected value at line 1 column 1"
  print message :=
    if message = sampleMessage messageId then object (members messageId)
    else object (encodedFields message)

def field (text : List Char) : String :=
  ((Base64.decodeChars text).bind Utf8.decode).getD ""

def decoder (messageId : String) : Decoder where
  parseEnvelope text :=
    if text = object (members messageId) then
      .ok (sampleMessage messageId).envelope
    else
      match Text.splitn ' ' 4 text.toList.dropLast with
      | [_, key, nonce, ciphertext] =>
          .ok ⟨field key, field nonce, field ciphertext⟩
      | _ => .error "expected value at line 1 column 1"
  decryptMessage _ := .ok "Hello"

theorem toList_object (text : String) :
    (object text).toList = '\x7b' :: text.toList ++ ['\x7d'] := by
  have opening : "\x7b".toList = ['\x7b'] := by decide
  have closing : "\x7d".toList = ['\x7d'] := by decide
  rw [object, String.toList_append, String.toList_append, opening, closing]
  rfl

theorem toList_encodedFields (message : EncryptedInputData) :
    (encodedFields message).toList =
      ' ' :: Base64.encodeChars (Utf8.encode message.encSessionKey) ++
        ' ' :: (Base64.encodeChars (Utf8.encode message.nonce) ++
          ' ' :: Base64.encodeChars (Utf8.encode message.ciphertext)) := by
  have space : " ".toList = [' '] := by decide
  simp only [encodedFields, String.toList_append, space,
    Base64.toList_encode, List.append_assoc, List.cons_append,
    List.nil_append]

theorem not_mem_encodeChars (character : Char)
    (isBlank : Text.isWhitespace character = true) (bytes : List UInt8) :
    character ∉ Base64.encodeChars bytes := by
  intro member
  have visible :=
    Base64.not_whitespace_of_mem_encodeChars character member
  rw [isBlank] at visible
  cases visible

theorem field_encodeChars (text : String) :
    field (Base64.encodeChars (Utf8.encode text)) = text := by
  simp [field, Base64.decodeChars_encodeChars]

/-- The two forms of a message differ in the character after the brace. -/
theorem encodedFields_ne_members (messageId : String)
    (message : EncryptedInputData) :
    object (encodedFields message) ≠ object (members messageId) := by
  obtain ⟨rest, begins⟩ : ∃ rest, (members messageId).toList =
      '"' :: rest := by
    have label : "\"message_id\":\"".toList =
        '"' :: "message_id\":\"".toList := by decide
    obtain ⟨later, isText, -⟩ := toList_members messageId
    rw [isText, label, List.cons_append, List.cons_append]
    exact ⟨_, rfl⟩
  intro same
  have characters := congrArg String.toList same
  rw [toList_object, toList_object, toList_encodedFields, begins]
    at characters
  simp at characters

theorem laws {messageId : String} (oneLine : '\n' ∉ messageId.toList) :
    JsonLaws (codec messageId) (decoder messageId) where
  isObject message := by
    dsimp only [codec]
    split
    · exact ⟨_, toList_object _⟩
    · exact ⟨_, toList_object _⟩
  oneLine message := by
    dsimp only [codec]
    split
    · obtain ⟨later, isText, laterOneLine⟩ := toList_members messageId
      rw [toList_object, isText]
      intro member
      simp only [List.cons_append, List.mem_cons, List.mem_append] at member
      rcases member with isBrace | ((inLabel | inId) | inRest) | isBrace
      · exact absurd isBrace (by decide)
      · exact absurd inLabel (by decide)
      · exact oneLine inId
      · exact laterOneLine inRest
      · exact absurd isBrace (by decide)
    · rw [toList_object, toList_encodedFields]
      have absent := not_mem_encodeChars '\n' (by decide)
      simp [absent]
  reads message := by
    dsimp only [codec, decoder]
    split
    · rename_i isSample
      rw [isSample]
      exact if_pos rfl
    · have noSpace := not_mem_encodeChars ' ' (by decide)
      have brace : ' ' ∉ ['\x7b'] := by decide
      have opens : ∀ text, Text.splitOnce ' ' ('\x7b' :: ' ' :: text) =
          some (['\x7b'], text) :=
        fun text => Text.splitOnce_word brace text
      rw [if_neg (encodedFields_ne_members messageId message),
        toList_object, toList_encodedFields, List.dropLast_concat]
      simp only [Text.splitn, opens, List.cons_append,
        Text.splitOnce_word (noSpace _), field_encodeChars]
      rfl

def config (messageId : String) : ServerConfig :=
  { Server.sampleConfig with codec := codec messageId }

/-- `receiver_1` sets up and consumes its queue, and `sender_1` publishes the
message with this identifier, which the receiver is sent. -/
def deliveringRun (messageId : String) : List Server.Event :=
  [.connect "receiver_1" "10.0.0.1" .smooth,
    .connect "sender_1" "10.0.0.2" .smooth] ++
  Server.request 0 "declare_queue receiver_1_queue\n" 0 1 ++
  Server.request 0 "declare_exchange e\n" 1 1 ++
  Server.request 0 "bind receiver_1_queue e receiver_1_key\n" 2 3 ++
  Server.request 0 "consume receiver_1_queue\n" 3 3 ++
  Server.request 1
    ("publish e receiver_1_key " ++ object (members messageId) ++ "\n")
    4 8 ++
  [.handler 0 .receive, .handler 0 (.deliver .smooth),
    .handler 0 (.deliver .smooth), .handler 0 (.deliver .smooth)]

def delivered (messageId : String) : Delivery :=
  ⟨"receiver_1_queue", messageId, sampleMessage messageId⟩

def lastLines (messageId : String) : Option (Option Line × Option Line) :=
  (executeWhile (Server.step (config messageId)) (fun _ _ => True)
    (Server.new (config messageId)) (deliveringRun messageId)).bind
      fun server =>
        (server.sessions[0]?).bind fun receiver =>
          (server.sessions[1]?).map fun sender =>
            (receiver.written.getLast?, sender.written.getLast?)

theorem reachable_of_lastLines {messageId : String} {reply : Line}
    (ran : lastLines messageId =
      some (some (.message (delivered messageId)), some reply)) :
    ∃ server receiver sender,
      Reachable (Server.step (config messageId))
        (Server.new (config messageId)) server ∧
      receiver ∈ server.sessions ∧ sender ∈ server.sessions ∧
      .message (delivered messageId) ∈ receiver.written ∧
      reply ∈ sender.written := by
  obtain ⟨server, executed, found⟩ := Option.bind_eq_some_iff.mp ran
  obtain ⟨receiver, atZero, rest⟩ := Option.bind_eq_some_iff.mp found
  obtain ⟨sender, atOne, lines⟩ := Option.map_eq_some_iff.mp rest
  obtain ⟨lastReceived, lastReplied⟩ := Prod.mk.inj lines
  exact ⟨server, receiver, sender,
    reachableWhile_of_executeWhile executed, List.mem_of_getElem? atZero,
    List.mem_of_getElem? atOne, List.mem_of_getLast? lastReceived,
    List.mem_of_getLast? lastReplied⟩

end SampleLines

end CipherMQ
