import CipherMQ.AccessControl
import CipherMQ.CallSteps
import CipherMQ.Utf8

/-!
# Requests of clients

What `handle_client` makes of the bytes one read returns.  The bytes in the
buffer are one request; the request is split into a command and its arguments,
checked, and turned into what the handler does next.  JSON texts are read and
printed by a codec, which is a parameter.
-/

namespace CipherMQ

structure Codec where
  parseMessage : String → Except String EncryptedInputData
  parseBatch : String → Except String (List EncryptedInputData)
  print : EncryptedInputData → String

def requestOf (buffer : List UInt8) : List Char :=
  Text.trim (Utf8.decodeLossy buffer)

/-- The capacity of the read buffer.  It is empty before every read, which
returns no more than fits. -/
def readLimit : Nat := 8196

/-- The read buffer of a connection and the requests taken from it so far. -/
structure Intake where
  buffer : List UInt8
  requests : List (List Char)
  deriving DecidableEq, Repr

namespace Intake

def new : Intake :=
  ⟨[], []⟩

def readBuf (intake : Intake) (bytes : List UInt8) : Intake :=
  { intake with buffer := intake.buffer ++ bytes }

def takeRequest (intake : Intake) : Intake :=
  ⟨[], intake.requests ++ [requestOf intake.buffer]⟩

def receive (intake : Intake) (bytes : List UInt8) : Intake :=
  (intake.readBuf bytes).takeRequest

end Intake

def splitRequest (request : List Char) : String × List Char :=
  let parts := Text.splitn ' ' 2 request
  (String.ofList (parts[0]?.getD []), parts[1]?.getD [])

theorem splitRequest_of_args (request : List Char)
    (nonempty : (splitRequest request).2 ≠ []) :
    request = (splitRequest request).1.toList ++
      ' ' :: (splitRequest request).2 := by
  unfold splitRequest at nonempty ⊢
  cases cut : Text.splitOnce ' ' request with
  | none => simp [Text.splitn, cut] at nonempty
  | some parts =>
      obtain ⟨command, args⟩ := parts
      simpa [Text.splitn, cut] using (Text.splitOnce_eq_some cut).1

theorem requestOf_encodeShort (line : String) :
    requestOf (Utf8.encodeShort line.toList) =
      requestOf (Utf8.encode (line ++ "\n")) := by
  have blank : Text.Blank ['\n'] := by decide
  rw [requestOf, requestOf, Utf8.decodeLossy_encodeShort,
    Utf8.decodeLossy_encode, String.toList_append]
  exact (Text.trim_append_right blank _).symm

/-- A line of a command word and an argument is split into the two, but white
space at the end of the argument is lost. -/
theorem splitRequest_line (command : String) (nonempty : command ≠ "")
    (visible : ∀ character ∈ command.toList,
      Text.isWhitespace character = false) (argument : String) :
    splitRequest
        (requestOf (Utf8.encode (command ++ " " ++ argument ++ "\n"))) =
      (command, Text.trimEnd argument.toList) := by
  have noSpace : ' ' ∉ command.toList := by
    intro member
    exact absurd (visible ' ' member) (by decide)
  have wordNonempty : command.toList ≠ [] := by
    simpa using nonempty
  have characters : (command ++ " " ++ argument ++ "\n").toList =
      command.toList ++ ' ' :: argument.toList ++ ['\n'] := by
    simp
  have request : requestOf
      (Utf8.encode (command ++ " " ++ argument ++ "\n")) =
        if Text.trimEnd argument.toList = [] then command.toList
        else command.toList ++ ' ' :: Text.trimEnd argument.toList := by
    rw [requestOf, Utf8.decodeLossy_encode, characters]
    exact Text.trim_word_append wordNonempty visible argument.toList
  rw [request, splitRequest]
  split
  · rename_i isBlank
    simp [Text.splitn, Text.splitOnce_eq_none noSpace, isBlank]
  · simp [Text.splitn, Text.splitOnce_word noSpace]

/-- Exactly three arguments, the last of which may contain spaces. -/
def splitArguments (args : List Char) : Option (String × String × String) :=
  match Text.splitn ' ' 3 args with
  | [first, second, third] =>
      some (String.ofList first, String.ofList second, String.ofList third)
  | _ => none

theorem splitArguments_eq_some_iff {args : List Char}
    {first second third : String} :
    splitArguments args = some (first, second, third) ↔
      ' ' ∉ first.toList ∧ ' ' ∉ second.toList ∧
        args =
          first.toList ++ ' ' :: (second.toList ++ ' ' :: third.toList) := by
  unfold splitArguments
  constructor
  · intro split
    cases cut : Text.splitOnce ' ' args with
    | none => simp [Text.splitn, cut] at split
    | some parts =>
        obtain ⟨word, rest⟩ := parts
        cases cutRest : Text.splitOnce ' ' rest with
        | none => simp [Text.splitn, cut, cutRest] at split
        | some later =>
            obtain ⟨other, last⟩ := later
            simp only [Text.splitn, cut, cutRest, Option.some.injEq,
              Prod.mk.injEq] at split
            obtain ⟨rfl, rfl, rfl⟩ := split
            obtain ⟨joined, noSpace⟩ := Text.splitOnce_eq_some cut
            obtain ⟨joinedRest, noLaterSpace⟩ :=
              Text.splitOnce_eq_some cutRest
            simp only [String.toList_ofList]
            exact ⟨noSpace, noLaterSpace, by rw [joined, joinedRest]⟩
  · rintro ⟨noSpace, noLaterSpace, rfl⟩
    simp [Text.splitn, Text.splitOnce_word noSpace,
      Text.splitOnce_word noLaterSpace]

/-- A line of a command and three arguments can be read at once. -/
def FitsRead (command first second third : String) : Prop :=
  Utf8.size
    (command ++ " " ++ (first ++ " " ++ second ++ " " ++ third)).toList ≤
      readLimit

instance (command first second third : String) :
    Decidable (FitsRead command first second third) :=
  inferInstanceAs (Decidable (_ ≤ _))

theorem size_requestOf_le (buffer : List UInt8) :
    Utf8.size (requestOf buffer) ≤ buffer.length :=
  (Utf8.size_le_of_sublist (Text.trim_sublist _)).trans
    (Utf8.size_decodeFrom_le buffer).1

/-- Three arguments that come from one read fit into it, and the last one does
not end in white space. -/
theorem fitsRead_of_splitArguments {buffer : List UInt8}
    (short : buffer.length ≤ readLimit) {command : String} {args : List Char}
    (isRequest : splitRequest (requestOf buffer) = (command, args))
    {first second third : String}
    (split : splitArguments args = some (first, second, third)) :
    third ≠ "" ∧ Text.trimEnd third.toList = third.toList ∧
      FitsRead command first second third := by
  obtain ⟨-, -, isArgs⟩ := splitArguments_eq_some_iff.mp split
  have whole := splitRequest_of_args (requestOf buffer)
    (by simp [isRequest, isArgs])
  rw [isRequest] at whole
  have ends : Text.trimEnd (requestOf buffer) = requestOf buffer :=
    List.rdropWhile_idempotent _ _
  have joined : requestOf buffer =
      (command.toList ++ ' ' :: (first.toList ++ ' ' :: second.toList)) ++
        ' ' :: third.toList := by
    simp [whole, isArgs]
  rw [joined] at ends
  obtain ⟨nonempty, visible⟩ := Text.trimEnd_after_space ends
  refine ⟨by simpa using nonempty, visible, ?_⟩
  have isLine : (command ++ " " ++
      (first ++ " " ++ second ++ " " ++ third)).toList =
        requestOf buffer := by
    simp [joined]
  rw [FitsRead, isLine]
  exact (size_requestOf_le buffer).trans short

/-- A batch publish under way: the message being published, those to come and
the lines of the reply so far. -/
structure Batch where
  exchangeName : String
  routingKey : String
  current : EncryptedInputData
  remaining : List EncryptedInputData
  acks : List String
  deriving DecidableEq, Repr

/-- What a handler does when a call on the broker returns to it. -/
inductive Continuation where
  | reply (text : String)
  | proceed
  | confirmAck (messageId : String)
  | confirmPublish (messageId : String)
  | confirmBatch (batch : Batch)
  deriving DecidableEq, Repr

inductive Query where
  | resend (messageId : String)
  | registerPublicKey (publicKey : String)
  | getPublicKey (clientId : String)
  deriving DecidableEq, Repr

/-- What a handler does with a request.  A refusal is counted, a reply is
written whether or not the write succeeds, and a demand ends the connection if
it cannot be written. -/
inductive Action where
  | refuse (text : String)
  | write (text : String)
  | demand (text : String)
  | heartbeat (text : String)
  | call (invocation : Invocation) (next : Continuation)
  | query (query : Query)
  deriving DecidableEq, Repr

/-- The client a handler serves.  `sender` is the channel on which messages
reach the handler. -/
structure Client where
  clientId : String
  role : Role
  sender : ChannelId
  deriving DecidableEq, Repr

namespace Client

def guardQueue (client : Client) (queueName : String) (action : Action) :
    Action :=
  match AclManager.checkResource client.role client.clientId "queue"
      queueName with
  | .denied reason => .write ("Access denied: " ++ reason ++ "\n")
  | .allowed => action

def publishRequest (client : Client) (exchangeName routingKey : String)
    (message : EncryptedInputData) (now : Nat) : PublishRequest :=
  ⟨exchangeName, routingKey, message, client.clientId, now⟩

/-- The publish of the next message of a batch, or the reply once there is
none. -/
def nextOfBatch (client : Client) (exchangeName routingKey : String)
    (acks : List String) (now : Nat) : List EncryptedInputData → Action
  | [] => .write (String.join (acks.intersperse "\n") ++ "\n")
  | message :: remaining =>
      .call
        (.publish (client.publishRequest exchangeName routingKey message now))
        (.confirmBatch ⟨exchangeName, routingKey, message, remaining, acks⟩)

/-- The branch of the dispatch for one command.  Most commands take their
arguments as one name. -/
def runCommand (codec : Codec) (client : Client) (now : Nat)
    (command : String) (args : List Char) : Action :=
  let name := String.ofList args
  match command with
  | "declare_queue" =>
      if name ≠ "" then
        client.guardQueue name
          (.call (.declareQueue name) (.reply "Queue declared\n"))
      else
        .write "Missing queue name\n"
  | "declare_exchange" =>
      if name ≠ "" then
        .call (.declareExchange name) (.reply "Exchange declared\n")
      else
        .write "Missing exchange name\n"
  | "bind" =>
      match splitArguments args with
      | some (queueName, exchangeName, routingKey) =>
          client.guardQueue queueName
            (.call (.bindQueue queueName exchangeName routingKey)
              (.reply "Queue bound\n"))
      | none => .write "Missing parameters\n"
  | "publish" =>
      match splitArguments args with
      | some (exchangeName, routingKey, text) =>
          match codec.parseMessage text with
          | .ok message =>
              .call
                (.publish
                  (client.publishRequest exchangeName routingKey message now))
                (.confirmPublish message.messageId)
          | .error error =>
              .write ("Invalid message format: " ++ error ++ "\n")
      | none => .write "Missing parameters\n"
  | "publish_batch" =>
      match splitArguments args with
      | some (exchangeName, routingKey, text) =>
          match codec.parseBatch text with
          | .ok messages =>
              client.nextOfBatch exchangeName routingKey [] now messages
          | .error error =>
              .write ("Invalid batch format: " ++ error ++ "\n")
      | none => .write "Missing parameters\n"
  | "consume" =>
      if name ≠ "" then
        .call (.registerConsumer name client.sender) .proceed
      else
        .write "Missing queue name\n"
  | "ack" =>
      if name ≠ "" then
        .call (.acknowledge name) (.confirmAck name)
      else
        .demand "Missing message ID\n"
  | "resend" =>
      if name ≠ "" then .query (.resend name)
      else .write "Missing message ID\n"
  | "register_public_key" =>
      if name ≠ "" then .query (.registerPublicKey name)
      else .write "Missing public key\n"
  | "get_public_key" =>
      if name ≠ "" then .query (.getPublicKey name)
      else .write "Missing client ID\n"
  | "heartbeat" => .heartbeat "Heartbeat received\n"
  | _ => .write "Unknown command\n"

/-- The calls that the branches of the dispatch make, by the command. -/
inductive Calls (codec : Codec) (client : Client) (now : Nat)
    (args : List Char) : String → Invocation → Continuation → Prop where
  | declareQueue
      (owns : AclManager.checkResource client.role client.clientId "queue"
        (String.ofList args) = .allowed) :
      Calls codec client now args "declare_queue"
        (.declareQueue (String.ofList args)) (.reply "Queue declared\n")
  | declareExchange :
      Calls codec client now args "declare_exchange"
        (.declareExchange (String.ofList args)) (.reply "Exchange declared\n")
  | bindQueue {queueName exchangeName routingKey : String}
      (split : splitArguments args =
        some (queueName, exchangeName, routingKey))
      (owns : AclManager.checkResource client.role client.clientId "queue"
        queueName = .allowed) :
      Calls codec client now args "bind"
        (.bindQueue queueName exchangeName routingKey)
        (.reply "Queue bound\n")
  | publish {exchangeName routingKey text : String}
      {message : EncryptedInputData}
      (split : splitArguments args = some (exchangeName, routingKey, text))
      (parsed : codec.parseMessage text = .ok message) :
      Calls codec client now args "publish"
        (.publish (client.publishRequest exchangeName routingKey message now))
        (.confirmPublish message.messageId)
  | publishBatch {exchangeName routingKey text : String}
      {message : EncryptedInputData} {remaining : List EncryptedInputData}
      (split : splitArguments args = some (exchangeName, routingKey, text))
      (parsed : codec.parseBatch text = .ok (message :: remaining)) :
      Calls codec client now args "publish_batch"
        (.publish (client.publishRequest exchangeName routingKey message now))
        (.confirmBatch ⟨exchangeName, routingKey, message, remaining, []⟩)
  | consume :
      Calls codec client now args "consume"
        (.registerConsumer (String.ofList args) client.sender) .proceed
  | ack :
      Calls codec client now args "ack"
        (.acknowledge (String.ofList args))
        (.confirmAck (String.ofList args))

section Calls

variable {codec : Codec} {client : Client} {now : Nat}
  {invocation : Invocation} {next : Continuation}

theorem guardQueue_eq_call {queueName : String} {action : Action}
    (guarded : client.guardQueue queueName action = .call invocation next) :
    AclManager.checkResource client.role client.clientId "queue"
        queueName = .allowed ∧
      action = .call invocation next := by
  unfold guardQueue at guarded
  split at guarded
  · cases guarded
  · rename_i allowed
    exact ⟨allowed, guarded⟩

theorem calls_of_runCommand {command : String} {args : List Char}
    (isCall : client.runCommand codec now command args =
      .call invocation next) :
    Calls codec client now args command invocation next := by
  unfold runCommand at isCall
  dsimp only at isCall
  split at isCall
  · split at isCall
    · obtain ⟨owns, isCall⟩ := guardQueue_eq_call isCall
      cases isCall
      exact .declareQueue owns
    · cases isCall
  · split at isCall
    · cases isCall
      exact .declareExchange
    · cases isCall
  · split at isCall
    · rename_i split
      obtain ⟨owns, isCall⟩ := guardQueue_eq_call isCall
      cases isCall
      exact .bindQueue split owns
    · cases isCall
  · split at isCall
    · rename_i split
      split at isCall
      · rename_i parsed
        cases isCall
        exact .publish split parsed
      · cases isCall
    · cases isCall
  · split at isCall
    · rename_i split
      split at isCall
      · rename_i messages parsed
        cases messages with
        | nil => cases isCall
        | cons message remaining =>
            cases isCall
            exact .publishBatch split parsed
      · cases isCall
    · cases isCall
  · split at isCall
    · cases isCall
      exact .consume
    · cases isCall
  · split at isCall
    · cases isCall
      exact .ack
    · cases isCall
  all_goals first | cases isCall | (split at isCall <;> cases isCall)

end Calls

/-- What the handler does with a request.  `limited` is the answer of the rate
limiter, which is asked only about permitted commands. -/
def handleRequest (codec : Codec) (client : Client) (limited : Bool)
    (now : Nat) (request : List Char) : Action :=
  let command := (splitRequest request).1
  let args := (splitRequest request).2
  match AclManager.checkCommand client.role command with
  | .denied reason =>
      .refuse ("Access denied: " ++ reason ++ " (role=" ++
        client.role.asStr ++ ")\n")
  | .allowed =>
      if limited then
        .refuse "Rate limited\n"
      else
        client.runCommand codec now command args

theorem handleRequest_cases (codec : Codec) (client : Client)
    (limited : Bool) (now : Nat) (request : List Char) :
    (∃ text, client.handleRequest codec limited now request =
        .refuse text) ∨
      (AclManager.checkCommand client.role (splitRequest request).1 =
          .allowed ∧
        limited = false ∧
        client.handleRequest codec limited now request =
          client.runCommand codec now (splitRequest request).1
            (splitRequest request).2) := by
  unfold handleRequest
  dsimp only
  split
  · exact Or.inl ⟨_, rfl⟩
  · rename_i permitted
    cases limited with
    | true => exact Or.inl ⟨_, rfl⟩
    | false => exact Or.inr ⟨permitted, rfl, rfl⟩

theorem calls_of_handleRequest {codec : Codec} {client : Client}
    {limited : Bool} {now : Nat} {request : List Char}
    {invocation : Invocation} {next : Continuation}
    (isCall : client.handleRequest codec limited now request =
      .call invocation next) :
    AclManager.checkCommand client.role (splitRequest request).1 = .allowed ∧
      Calls codec client now (splitRequest request).2 (splitRequest request).1
        invocation next := by
  rcases handleRequest_cases codec client limited now request with
    ⟨text, refused⟩ | ⟨permitted, -, runs⟩
  · rw [refused] at isCall
    cases isCall
  · rw [runs] at isCall
    exact ⟨permitted, calls_of_runCommand isCall⟩

/-- A permitted line of a command word and an argument reaches the branch of
the command, without white space at the end of the argument. -/
theorem handleRequest_line {codec : Codec} {client : Client} {now : Nat}
    (command : String) (nonempty : command ≠ "")
    (visible : ∀ character ∈ command.toList,
      Text.isWhitespace character = false)
    (permitted : AclManager.checkCommand client.role command = .allowed)
    (argument : String) :
    client.handleRequest codec false now
        (requestOf (Utf8.encode (command ++ " " ++ argument ++ "\n"))) =
      client.runCommand codec now command
        (Text.trimEnd argument.toList) := by
  have parsed := splitRequest_line command nonempty visible argument
  unfold handleRequest
  dsimp only
  rw [parsed, permitted]
  rfl

/-- A line of two words and a text that does not end in white space reaches
the branch of its command in three parts. -/
theorem handleRequest_three {codec : Codec} {client : Client}
    (command : String) (nonempty : command ≠ "")
    (visible : ∀ character ∈ command.toList,
      Text.isWhitespace character = false)
    (permitted : AclManager.checkCommand client.role command = .allowed)
    {first second third : String} (noSpace : ' ' ∉ first.toList)
    (noLaterSpace : ' ' ∉ second.toList) (thirdNonempty : third ≠ "")
    (thirdEnds : Text.trimEnd third.toList = third.toList) (now : Nat) :
    ∃ args, splitArguments args = some (first, second, third) ∧
      client.handleRequest codec false now (requestOf (Utf8.encode
        (command ++ " " ++ (first ++ " " ++ second ++ " " ++ third) ++
          "\n"))) =
        client.runCommand codec now command args := by
  refine ⟨_, ?_, handleRequest_line command nonempty visible permitted _⟩
  have ends : Text.trimEnd third.toList ≠ [] := by
    rw [thirdEnds]
    simpa using thirdNonempty
  have joined : (first ++ " " ++ second ++ " " ++ third).toList =
      (first.toList ++ ' ' :: (second.toList ++ [' '])) ++ third.toList := by
    simp
  apply splitArguments_eq_some_iff.mpr
  refine ⟨noSpace, noLaterSpace, ?_⟩
  rw [joined, Text.trimEnd_append, if_neg ends, thirdEnds]
  simp

end Client

end CipherMQ
