import CipherMQ.Text

/-!
# The receiver process

The receiver connects to the server, subscribes to its queue and decrypts the
messages it is sent.  A decrypted message goes to a writer task, which appends
it to a file, and its identifier goes to a second task, which acknowledges it.
The receive loop, the two tasks and the signal handler share one flag that
says whether the process is to go on.

Each task is a program point with its local values, and a step advances one
task from one await to the next.  What the network and the file system answer
is part of the event.  A read that times out only sends the loop around, and
the writer's channel is never closed, because the main task keeps a sender.
Writing to the output file is taken to succeed.
-/

namespace CipherMQ

structure EncryptedEnvelope where
  encSessionKey : String
  nonce : String
  ciphertext : String
  deriving DecidableEq, Repr

structure Decoder where
  parseEnvelope : String → Except String EncryptedEnvelope
  decryptMessage : EncryptedEnvelope → Except String String

structure StoredRecord where
  messageId : String
  message : String
  timestamp : Nat
  deriving DecidableEq, Repr

/-- The identifier and the payload in a line `Message: <id> <json>`. -/
def parseMessageLine (line : List Char) : Option (String × String) :=
  let message := Text.trim line
  if "Message:".toList.isPrefixOf message then
    match Text.splitn ' ' 2 (Text.trim (message.drop 8)) with
    | [messageId, payload] =>
        if messageId.isEmpty then none
        else some (String.ofList messageId, String.ofList payload)
    | _ => none
  else
    none

/-- The identifier and the content of a line that carries a message not yet
processed; every other line is skipped. -/
def decryptLine (decoder : Decoder) (processed : List String)
    (line : List Char) : Option (String × String) :=
  match parseMessageLine line with
  | none => none
  | some (messageId, payload) =>
      if messageId ∈ processed then
        none
      else
        match decoder.parseEnvelope payload with
        | .error _ => none
        | .ok envelope =>
            match decoder.decryptMessage envelope with
            | .ok content => some (messageId, content)
            | .error _ => none

namespace Receiver

/-- The main task: connecting, then the receive loop on a connection. -/
inductive MainPoint where
  | testRunning
  | connecting
  | subscribing
  | testLoop
  | reading
  | storing (messageId content : String)
  | acknowledging (messageId : String)
  | cleaning
  | finished
  deriving DecidableEq, Repr

inductive WriterPoint where
  | creatingDirectory
  | openingFile
  | receiving
  | timedOut
  | closing
  | ended
  deriving DecidableEq, Repr

inductive AckPoint where
  | testRunning
  | receiving
  | writing (messageId : String)
  | ended
  deriving DecidableEq, Repr

end Receiver

/-- The receiver process.  `acked` lists everything ever put on an
acknowledgement channel. -/
structure Receiver where
  running : Bool
  main : Receiver.MainPoint
  processed : List String
  messages : List (String × String)
  writer : Receiver.WriterPoint
  batch : List StoredRecord
  file : List StoredRecord
  ackChannel : List String
  ackWorker : Receiver.AckPoint
  acked : List String
  deriving DecidableEq, Repr

namespace Receiver

def capacity : Nat := 4096

def batchSize : Nat := 100

def new : Receiver where
  running := true
  main := .testRunning
  processed := []
  messages := []
  writer := .creatingDirectory
  batch := []
  file := []
  ackChannel := []
  ackWorker := .ended
  acked := []

inductive ReadResult where
  | timeout
  | error
  | eof
  | line (text : List Char)
  deriving DecidableEq, Repr

inductive SubscribeResult where
  | subscribed
  | refused
  | failed
  deriving DecidableEq, Repr

inductive MainEvent where
  | testRunning
  | connect (succeeds : Bool)
  | subscribe (result : SubscribeResult)
  | testLoop
  | readLine (result : ReadResult)
  | store
  | acknowledge
  | cleanUp
  deriving DecidableEq, Repr

inductive WriterEvent where
  | createDirectory (succeeds : Bool)
  | openFile (succeeds : Bool)
  | receive (timestamp : Nat)
  | timeOut
  | testRunning
  | close
  deriving DecidableEq, Repr

inductive AckEvent where
  | testRunning
  | receive
  | write (succeeds : Bool)
  deriving DecidableEq, Repr

/-- One step of the main task.  A send on a channel waits while the channel is
full and fails once its receiving task has ended; either failure is logged and
the loop goes on as if the send had succeeded. -/
def mainStep (decoder : Decoder) (receiver : Receiver) (event : MainEvent) :
    Option Receiver :=
  match receiver.main, event with
  | .testRunning, .testRunning =>
      some { receiver with
        main := if receiver.running then .connecting else .finished }
  | .connecting, .connect succeeds =>
      if succeeds then
        some { receiver with
          main := .subscribing
          ackChannel := []
          ackWorker := .testRunning }
      else
        some { receiver with main := .testRunning }
  | .subscribing, .subscribe result =>
      match result with
      | .subscribed =>
          some { receiver with main := .testLoop, processed := [] }
      | .refused =>
          some { receiver with
            running := false
            main := .testRunning
            ackWorker := .ended }
      | .failed =>
          some { receiver with main := .testRunning, ackWorker := .ended }
  | .testLoop, .testLoop =>
      some { receiver with
        main := if receiver.running then .reading else .cleaning }
  | .reading, .readLine result =>
      match result with
      | .timeout => some { receiver with main := .testLoop }
      | .error => some { receiver with main := .cleaning }
      | .eof => some { receiver with main := .cleaning }
      | .line text =>
          match decryptLine decoder receiver.processed text with
          | none => some { receiver with main := .testLoop }
          | some (messageId, content) =>
              some { receiver with
                main := .storing messageId content
                processed := messageId :: receiver.processed }
  | .storing messageId content, .store =>
      if receiver.writer = .ended then
        some { receiver with main := .acknowledging messageId }
      else if receiver.messages.length < capacity then
        some { receiver with
          main := .acknowledging messageId
          messages := receiver.messages ++ [(messageId, content)] }
      else
        none
  | .acknowledging messageId, .acknowledge =>
      if receiver.ackWorker = .ended then
        some { receiver with main := .testLoop }
      else if receiver.ackChannel.length < capacity then
        some { receiver with
          main := .testLoop
          ackChannel := receiver.ackChannel ++ [messageId]
          acked := receiver.acked ++ [messageId] }
      else
        none
  | .cleaning, .cleanUp =>
      some { receiver with
        running := false
        main := .testRunning
        ackWorker := .ended }
  | _, _ => none

def flushBatch (receiver : Receiver) : Receiver :=
  { receiver with file := receiver.file ++ receiver.batch, batch := [] }

def writerStep (receiver : Receiver) (event : WriterEvent) :
    Option Receiver :=
  match receiver.writer, event with
  | .creatingDirectory, .createDirectory succeeds =>
      some { receiver with
        writer := if succeeds then .openingFile else .ended }
  | .openingFile, .openFile succeeds =>
      some { receiver with
        writer := if succeeds then .receiving else .ended }
  | .receiving, .receive timestamp =>
      match receiver.messages with
      | [] => none
      | (messageId, message) :: messages =>
          let receiver :=
            { receiver with
              messages := messages
              batch := receiver.batch ++ [⟨messageId, message, timestamp⟩] }
          if batchSize ≤ receiver.batch.length then
            some receiver.flushBatch
          else
            some receiver
  | .receiving, .timeOut =>
      if receiver.messages.isEmpty then
        some { receiver.flushBatch with writer := .timedOut }
      else
        none
  | .timedOut, .testRunning =>
      some { receiver with
        writer := if receiver.running then .receiving else .closing }
  | .closing, .close => some { receiver with writer := .ended }
  | _, _ => none

def ackStep (receiver : Receiver) (event : AckEvent) : Option Receiver :=
  match receiver.ackWorker, event with
  | .testRunning, .testRunning =>
      some { receiver with
        ackWorker := if receiver.running then .receiving else .ended }
  | .receiving, .receive =>
      match receiver.ackChannel with
      | [] => some { receiver with ackWorker := .testRunning }
      | messageId :: rest =>
          some { receiver with
            ackChannel := rest
            ackWorker := .writing messageId }
  | .writing _, .write succeeds =>
      some { receiver with
        ackWorker := if succeeds then .testRunning else .ended }
  | _, _ => none

inductive Event where
  | main (event : MainEvent)
  | writer (event : WriterEvent)
  | acks (event : AckEvent)
  | interrupt
  deriving DecidableEq, Repr

def step (decoder : Decoder) (receiver : Receiver) : Event → Option Receiver
  | .main event => receiver.mainStep decoder event
  | .writer event => receiver.writerStep event
  | .acks event => receiver.ackStep event
  | .interrupt => some { receiver with running := false }

/-! ## The steps of the main task -/

inductive Turn (decoder : Decoder) (before : Receiver) :
    MainEvent → Receiver → Prop
  | connectAgain :
      before.main = .testRunning → before.running = true →
        Turn decoder before .testRunning
          { before with main := .connecting }
  | finish :
      before.main = .testRunning → before.running = false →
        Turn decoder before .testRunning { before with main := .finished }
  | connected :
      before.main = .connecting →
        Turn decoder before (.connect true)
          { before with
            main := .subscribing
            ackChannel := []
            ackWorker := .testRunning }
  | unconnected :
      before.main = .connecting →
        Turn decoder before (.connect false)
          { before with main := .testRunning }
  | subscribed :
      before.main = .subscribing →
        Turn decoder before (.subscribe .subscribed)
          { before with main := .testLoop, processed := [] }
  | refused :
      before.main = .subscribing →
        Turn decoder before (.subscribe .refused)
          { before with
            running := false
            main := .testRunning
            ackWorker := .ended }
  | unsubscribed :
      before.main = .subscribing →
        Turn decoder before (.subscribe .failed)
          { before with main := .testRunning, ackWorker := .ended }
  | readOn :
      before.main = .testLoop → before.running = true →
        Turn decoder before .testLoop { before with main := .reading }
  | stopReading :
      before.main = .testLoop → before.running = false →
        Turn decoder before .testLoop { before with main := .cleaning }
  | timedOut :
      before.main = .reading →
        Turn decoder before (.readLine .timeout)
          { before with main := .testLoop }
  | failed :
      before.main = .reading →
        Turn decoder before (.readLine .error)
          { before with main := .cleaning }
  | closed :
      before.main = .reading →
        Turn decoder before (.readLine .eof)
          { before with main := .cleaning }
  | skipped (text : List Char) :
      before.main = .reading →
        decryptLine decoder before.processed text = none →
          Turn decoder before (.readLine (.line text))
            { before with main := .testLoop }
  | decrypted (text : List Char) (messageId content : String) :
      before.main = .reading →
        decryptLine decoder before.processed text =
            some (messageId, content) →
          Turn decoder before (.readLine (.line text))
            { before with
              main := .storing messageId content
              processed := messageId :: before.processed }
  | unstored (messageId content : String) :
      before.main = .storing messageId content → before.writer = .ended →
        Turn decoder before .store
          { before with main := .acknowledging messageId }
  | stored (messageId content : String) :
      before.main = .storing messageId content → before.writer ≠ .ended →
        before.messages.length < capacity →
          Turn decoder before .store
            { before with
              main := .acknowledging messageId
              messages := before.messages ++ [(messageId, content)] }
  | unacknowledged (messageId : String) :
      before.main = .acknowledging messageId → before.ackWorker = .ended →
        Turn decoder before .acknowledge { before with main := .testLoop }
  | acknowledged (messageId : String) :
      before.main = .acknowledging messageId → before.ackWorker ≠ .ended →
        before.ackChannel.length < capacity →
          Turn decoder before .acknowledge
            { before with
              main := .testLoop
              ackChannel := before.ackChannel ++ [messageId]
              acked := before.acked ++ [messageId] }
  | cleanedUp :
      before.main = .cleaning →
        Turn decoder before .cleanUp
          { before with
            running := false
            main := .testRunning
            ackWorker := .ended }

theorem turn_of_mainStep {decoder : Decoder} {before after : Receiver}
    {event : MainEvent}
    (stepTo : before.mainStep decoder event = some after) :
    Turn decoder before event after := by
  unfold mainStep at stepTo
  split at stepTo
  · rename_i isMain
    cases stepTo
    by_cases isRunning : before.running = true
    · rw [if_pos isRunning]
      exact .connectAgain isMain isRunning
    · rw [if_neg isRunning]
      exact .finish isMain (eq_false_of_ne_true isRunning)
  · rename_i succeeds isMain
    cases succeeds <;> cases stepTo
    · exact .unconnected isMain
    · exact .connected isMain
  · rename_i result isMain
    cases result <;> cases stepTo
    · exact .subscribed isMain
    · exact .refused isMain
    · exact .unsubscribed isMain
  · rename_i isMain
    cases stepTo
    by_cases isRunning : before.running = true
    · rw [if_pos isRunning]
      exact .readOn isMain isRunning
    · rw [if_neg isRunning]
      exact .stopReading isMain (eq_false_of_ne_true isRunning)
  · rename_i result isMain
    cases result with
    | timeout =>
        cases stepTo
        exact .timedOut isMain
    | error =>
        cases stepTo
        exact .failed isMain
    | eof =>
        cases stepTo
        exact .closed isMain
    | line text =>
        dsimp only at stepTo
        split at stepTo
        · rename_i skips
          cases stepTo
          exact .skipped text isMain skips
        · rename_i messageId content decrypts
          cases stepTo
          exact .decrypted text messageId content isMain decrypts
  · rename_i messageId content isMain
    split at stepTo
    · rename_i hasEnded
      cases stepTo
      exact .unstored messageId content isMain hasEnded
    · rename_i hasNotEnded
      split at stepTo
      · rename_i hasRoom
        cases stepTo
        exact .stored messageId content isMain hasNotEnded hasRoom
      · cases stepTo
  · rename_i messageId isMain
    split at stepTo
    · rename_i hasEnded
      cases stepTo
      exact .unacknowledged messageId isMain hasEnded
    · rename_i hasNotEnded
      split at stepTo
      · rename_i hasRoom
        cases stepTo
        exact .acknowledged messageId isMain hasNotEnded hasRoom
      · cases stepTo
  · rename_i isMain
    cases stepTo
    exact .cleanedUp isMain
  · cases stepTo

end Receiver

end CipherMQ
