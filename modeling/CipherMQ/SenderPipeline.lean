import CipherMQ.HybridEncryption
import CipherMQ.TransitionSystem

/-!
# The sender's pipeline

The sending loop of the sender writes publish requests without waiting for
their replies, and a second task reads the replies.  A semaphore bounds the
messages in flight: the loop acquires a permit for each message and forgets
it, and the reader gives a permit back for each acknowledgement.  The reader
also reports every reply on a channel of bounded capacity, which the loop
empties between batches.

Each of the two tasks is a program point with its local values, and a step
takes one of them from one await to the next.  The connection is the requests
the server has still to answer and the lines on their way back.
-/

namespace CipherMQ

namespace Sender

inductive AckResult where
  | ok (messageId : String)
  | serverError (response : String)
  | unknown (response : String)
  | ioError (error : String)
  deriving DecidableEq, Repr

inductive PublishReply where
  | ack
  | error (text : String)
  | rateLimited
  | accessDenied (reason : String)
  deriving DecidableEq, Repr

def PublishReply.line (messageId : String) : PublishReply → String
  | .ack => "ACK " ++ messageId ++ "\n"
  | .error text => "Error: " ++ text ++ "\n"
  | .rateLimited => "Rate limited\n"
  | .accessDenied reason => "Access denied: " ++ reason ++ "\n"

/-- What stays fixed while the pipeline runs.  `encrypted` gives the messages
made for the receivers from the plain message with a number. -/
structure PipelineConfig where
  maxInflight : Nat
  maxInflight_pos : 0 < maxInflight
  batchSize : Nat
  numMessages : Nat
  encrypted : Nat → List EncryptedMessage
  named : ∀ index, ∀ message ∈ encrypted index, ∃ plain receiver,
    message.messageId = messageIdOf plain receiver

/-- The sending loop.  `i` and `batchEnd` are its counters, and `rest` lists
the messages for the receivers still to come. -/
inductive SendPoint where
  | nextBatch (i : Nat)
  | nextMessage (i batchEnd : Nat)
  | acquiring (i batchEnd : Nat) (rest : List EncryptedMessage)
  | storing (i batchEnd : Nat) (message : EncryptedMessage)
      (rest : List EncryptedMessage)
  | writing (i batchEnd : Nat) (message : EncryptedMessage)
      (rest : List EncryptedMessage)
  | flushing (i batchEnd : Nat) (message : EncryptedMessage)
      (rest : List EncryptedMessage)
  | draining (i batchEnd : Nat)
  | sleeping (i : Nat)
  | waiting
  | finished
  deriving DecidableEq, Repr

inductive ReadPoint where
  | reading
  | removing (messageId : String)
  | releasing (messageId : String)
  | forwarding (result : AckResult)
  | reporting (error : String)
  | stopped
  deriving DecidableEq, Repr

/-- What has happened so far; the program keeps none of these counts.
`batchStart` is the number of messages written before the current batch. -/
structure Tally where
  written : Nat
  acked : Nat
  refused : Nat
  failedWrites : Nat
  failedFlushes : Nat
  drained : Nat
  batchStart : Nat
  deriving DecidableEq, Repr

structure Pipeline where
  permits : Nat
  pending : List EncryptedMessage
  results : List AckResult
  sender : SendPoint
  reader : ReadPoint
  failedIds : List String
  sentCount : Nat
  unanswered : List String
  replies : List String
  tally : Tally
  deriving DecidableEq, Repr

namespace Pipeline

def new (config : PipelineConfig) : Pipeline where
  permits := config.maxInflight
  pending := []
  results := []
  sender := .nextBatch 0
  reader := .reading
  failedIds := []
  sentCount := 0
  unanswered := []
  replies := []
  tally := ⟨0, 0, 0, 0, 0, 0, 0⟩

def insertPending (pipeline : Pipeline) (message : EncryptedMessage) :
    List EncryptedMessage :=
  pipeline.pending.filter (fun other =>
    other.messageId ≠ message.messageId) ++ [message]

def removePending (pipeline : Pipeline) (messageId : String) :
    List EncryptedMessage :=
  pipeline.pending.filter fun other => other.messageId ≠ messageId

/-- The message could not be sent.  The permit is added to the semaphore, and
once more when its guard is dropped. -/
def failMessage (pipeline : Pipeline) (i batchEnd : Nat)
    (message : EncryptedMessage) (rest : List EncryptedMessage)
    (tally : Tally) : Pipeline :=
  { pipeline with
    pending := pipeline.removePending message.messageId
    failedIds := pipeline.failedIds ++ [message.messageId]
    permits := pipeline.permits + 2
    sender := .acquiring i batchEnd rest
    tally := tally }

/-- A step of the sending loop.  `succeeds` is the outcome of a write or a
flush. -/
def sendStep (config : PipelineConfig) (pipeline : Pipeline)
    (succeeds : Bool) : Option Pipeline :=
  let tally := pipeline.tally
  match pipeline.sender with
  | .nextBatch i =>
      if i < config.numMessages then
        some { pipeline with
          sender := .nextMessage i
            (min (i + config.batchSize) config.numMessages)
          tally := { tally with batchStart := tally.written } }
      else
        some { pipeline with sender := .waiting }
  | .nextMessage i batchEnd =>
      if i < batchEnd then
        some { pipeline with
          sender := .acquiring i batchEnd (config.encrypted i) }
      else
        some { pipeline with sender := .draining i batchEnd }
  | .acquiring i batchEnd [] =>
      some { pipeline with sender := .nextMessage (i + 1) batchEnd }
  | .acquiring i batchEnd (message :: rest) =>
      if 0 < pipeline.permits then
        some { pipeline with
          permits := pipeline.permits - 1
          sender := .storing i batchEnd message rest }
      else
        none
  | .storing i batchEnd message rest =>
      some { pipeline with
        pending := pipeline.insertPending message
        sender := .writing i batchEnd message rest }
  | .writing i batchEnd message rest =>
      if succeeds then
        some { pipeline with
          unanswered := pipeline.unanswered ++ [message.messageId]
          sender := .flushing i batchEnd message rest
          tally := { tally with written := tally.written + 1 } }
      else
        some (pipeline.failMessage i batchEnd message rest
          { tally with failedWrites := tally.failedWrites + 1 })
  | .flushing i batchEnd message rest =>
      if succeeds then
        some { pipeline with
          sentCount := pipeline.sentCount + 1
          sender := .acquiring i batchEnd rest }
      else
        some (pipeline.failMessage i batchEnd message rest
          { tally with failedFlushes := tally.failedFlushes + 1 })
  | .draining i batchEnd =>
      match pipeline.results with
      | _ :: results =>
          some { pipeline with
            results := results
            tally := { tally with drained := tally.drained + 1 } }
      | [] =>
          some { pipeline with
            sender :=
              if batchEnd < config.numMessages then .sleeping i
              else .nextBatch i }
  | .sleeping i => some { pipeline with sender := .nextBatch i }
  | .waiting =>
      if pipeline.pending = [] then
        some { pipeline with sender := .finished }
      else
        match pipeline.results with
        | .ioError _ :: results =>
            some { pipeline with
              results := results
              sender := .finished
              tally := { tally with drained := tally.drained + 1 } }
        | _ :: results =>
            some { pipeline with
              results := results
              tally := { tally with drained := tally.drained + 1 } }
        | [] => some pipeline
  | .finished => none

def classify (line : String) : ReadPoint :=
  let response := Text.trim line.toList
  if "ACK ".toList.isPrefixOf response then
    .removing (String.ofList (response.drop 4))
  else if "Error:".toList.isPrefixOf response then
    .forwarding (.serverError (String.ofList response))
  else
    .forwarding (.unknown (String.ofList response))

def forward (config : PipelineConfig) (pipeline : Pipeline)
    (result : AckResult) (next : ReadPoint) : Option Pipeline :=
  if pipeline.results.length < config.maxInflight * 2 then
    some { pipeline with
      results := pipeline.results ++ [result]
      reader := next }
  else
    none

def readStep (config : PipelineConfig) (pipeline : Pipeline) :
    Option Pipeline :=
  match pipeline.reader with
  | .reading =>
      match pipeline.replies with
      | line :: replies =>
          some { pipeline with replies := replies, reader := classify line }
      | [] => none
  | .removing messageId =>
      some { pipeline with
        pending := pipeline.removePending messageId
        reader := .releasing messageId }
  | .releasing messageId =>
      some { pipeline with
        permits := pipeline.permits + 1
        reader := .forwarding (.ok messageId) }
  | .forwarding result => pipeline.forward config result .reading
  | .reporting error => pipeline.forward config (.ioError error) .stopped
  | .stopped => none

def answerStep (pipeline : Pipeline) (reply : PublishReply) :
    Option Pipeline :=
  match pipeline.unanswered with
  | messageId :: unanswered =>
      some { pipeline with
        unanswered := unanswered
        replies := pipeline.replies ++ [reply.line messageId]
        tally :=
          if reply = .ack then
            { pipeline.tally with acked := pipeline.tally.acked + 1 }
          else
            { pipeline.tally with refused := pipeline.tally.refused + 1 } }
  | [] => none

inductive Event where
  | send (succeeds : Bool)
  | giveUp
  | read
  | readTimeout
  | readEof
  | readError (error : String)
  | answer (reply : PublishReply)
  deriving DecidableEq, Repr

/-- One step of the pipeline or of its server.  A read ends the reader when it
times out or the connection is closed. -/
def step (config : PipelineConfig) (pipeline : Pipeline) :
    Event → Option Pipeline
  | .send succeeds => pipeline.sendStep config succeeds
  | .giveUp =>
      if pipeline.sender = .waiting then
        some { pipeline with sender := .finished }
      else
        none
  | .read => pipeline.readStep config
  | .readTimeout | .readEof =>
      if pipeline.reader = .reading then
        some { pipeline with reader := .stopped }
      else
        none
  | .readError error =>
      if pipeline.reader = .reading then
        some { pipeline with reader := .reporting error }
      else
        none
  | .answer reply => pipeline.answerStep reply

/-! ## What a step can do -/

/-- The moves of the sending loop that change nothing but its program
point. -/
inductive Turn (config : PipelineConfig) (pipeline : Pipeline) :
    SendPoint → SendPoint → Prop
  | endSending (i : Nat) : config.numMessages ≤ i →
      Turn config pipeline (.nextBatch i) .waiting
  | beginMessage (i batchEnd : Nat) : i < batchEnd →
      Turn config pipeline (.nextMessage i batchEnd)
        (.acquiring i batchEnd (config.encrypted i))
  | endBatch (i batchEnd : Nat) : batchEnd ≤ i →
      Turn config pipeline (.nextMessage i batchEnd) (.draining i batchEnd)
  | endMessage (i batchEnd : Nat) :
      Turn config pipeline (.acquiring i batchEnd [])
        (.nextMessage (i + 1) batchEnd)
  | pause (i batchEnd : Nat) : pipeline.results = [] →
      batchEnd < config.numMessages →
        Turn config pipeline (.draining i batchEnd) (.sleeping i)
  | endDrain (i batchEnd : Nat) : pipeline.results = [] →
      config.numMessages ≤ batchEnd →
        Turn config pipeline (.draining i batchEnd) (.nextBatch i)
  | wake (i : Nat) : Turn config pipeline (.sleeping i) (.nextBatch i)
  | stopWaiting : Turn config pipeline .waiting .finished
  | keepWaiting : Turn config pipeline .waiting .waiting

inductive Sends (config : PipelineConfig) (before : Pipeline) :
    Bool → Pipeline → Prop
  | turn (succeeds : Bool) (next : SendPoint) :
      Turn config before before.sender next →
        Sends config before succeeds { before with sender := next }
  | beginBatch (succeeds : Bool) (i : Nat) : before.sender = .nextBatch i →
      i < config.numMessages →
        Sends config before succeeds { before with
          sender := .nextMessage i
            (min (i + config.batchSize) config.numMessages)
          tally :=
            { before.tally with batchStart := before.tally.written } }
  | acquire (succeeds : Bool) (i batchEnd : Nat)
      (message : EncryptedMessage) (rest : List EncryptedMessage) :
      before.sender = .acquiring i batchEnd (message :: rest) →
        0 < before.permits →
          Sends config before succeeds { before with
            permits := before.permits - 1
            sender := .storing i batchEnd message rest }
  | store (succeeds : Bool) (i batchEnd : Nat) (message : EncryptedMessage)
      (rest : List EncryptedMessage) :
      before.sender = .storing i batchEnd message rest →
        Sends config before succeeds { before with
          pending := before.insertPending message
          sender := .writing i batchEnd message rest }
  | write (i batchEnd : Nat) (message : EncryptedMessage)
      (rest : List EncryptedMessage) :
      before.sender = .writing i batchEnd message rest →
        Sends config before true { before with
          unanswered := before.unanswered ++ [message.messageId]
          sender := .flushing i batchEnd message rest
          tally :=
            { before.tally with written := before.tally.written + 1 } }
  | failWrite (i batchEnd : Nat) (message : EncryptedMessage)
      (rest : List EncryptedMessage) :
      before.sender = .writing i batchEnd message rest →
        Sends config before false
          (before.failMessage i batchEnd message rest
            { before.tally with
              failedWrites := before.tally.failedWrites + 1 })
  | flush (i batchEnd : Nat) (message : EncryptedMessage)
      (rest : List EncryptedMessage) :
      before.sender = .flushing i batchEnd message rest →
        Sends config before true { before with
          sentCount := before.sentCount + 1
          sender := .acquiring i batchEnd rest }
  | failFlush (i batchEnd : Nat) (message : EncryptedMessage)
      (rest : List EncryptedMessage) :
      before.sender = .flushing i batchEnd message rest →
        Sends config before false
          (before.failMessage i batchEnd message rest
            { before.tally with
              failedFlushes := before.tally.failedFlushes + 1 })
  | take (succeeds : Bool) (result : AckResult) (results : List AckResult)
      (next : SendPoint) : before.results = result :: results →
        ((∃ i batchEnd, before.sender = .draining i batchEnd ∧
            next = .draining i batchEnd) ∨
          (before.sender = .waiting ∧
            (next = .waiting ∨ next = .finished))) →
          Sends config before succeeds { before with
            results := results
            sender := next
            tally :=
              { before.tally with drained := before.tally.drained + 1 } }

theorem sends_of_sendStep {config : PipelineConfig}
    {before after : Pipeline} {succeeds : Bool}
    (stepTo : before.sendStep config succeeds = some after) :
    Sends config before succeeds after := by
  have turned : ∀ next, Turn config before before.sender next →
      after = { before with sender := next } →
        Sends config before succeeds after := by
    rintro next turn rfl
    exact .turn succeeds next turn
  unfold sendStep at stepTo
  dsimp only at stepTo
  split at stepTo
  case h_1 i isPoint =>
    split at stepTo
    · cases stepTo
      exact .beginBatch succeeds i isPoint ‹_›
    · rename_i done
      exact turned _ (isPoint ▸ .endSending i (by omega))
        (Option.some.inj stepTo).symm
  case h_2 i batchEnd isPoint =>
    split at stepTo
    · rename_i more
      exact turned _ (isPoint ▸ .beginMessage i batchEnd more)
        (Option.some.inj stepTo).symm
    · rename_i done
      exact turned _ (isPoint ▸ .endBatch i batchEnd (by omega))
        (Option.some.inj stepTo).symm
  case h_3 i batchEnd isPoint =>
    exact turned _ (isPoint ▸ .endMessage i batchEnd)
      (Option.some.inj stepTo).symm
  case h_4 i batchEnd message rest isPoint =>
    split at stepTo
    · rename_i available
      cases stepTo
      exact .acquire succeeds i batchEnd message rest isPoint available
    · cases stepTo
  case h_5 i batchEnd message rest isPoint =>
    cases stepTo
    exact .store succeeds i batchEnd message rest isPoint
  case h_6 i batchEnd message rest isPoint =>
    cases succeeds with
    | true =>
        cases stepTo
        exact .write i batchEnd message rest isPoint
    | false =>
        cases stepTo
        exact .failWrite i batchEnd message rest isPoint
  case h_7 i batchEnd message rest isPoint =>
    cases succeeds with
    | true =>
        cases stepTo
        exact .flush i batchEnd message rest isPoint
    | false =>
        cases stepTo
        exact .failFlush i batchEnd message rest isPoint
  case h_8 i batchEnd isPoint =>
    split at stepTo
    · rename_i result results held
      cases stepTo
      exact .take succeeds result results before.sender held
        (Or.inl ⟨i, batchEnd, isPoint, isPoint⟩)
    · rename_i isEmpty
      split at stepTo
      · rename_i more
        exact turned _ (isPoint ▸ .pause i batchEnd isEmpty more)
          (Option.some.inj stepTo).symm
      · rename_i last
        exact turned _ (isPoint ▸ .endDrain i batchEnd isEmpty (by omega))
          (Option.some.inj stepTo).symm
  case h_9 i isPoint =>
    exact turned _ (isPoint ▸ .wake i) (Option.some.inj stepTo).symm
  case h_10 isPoint =>
    split at stepTo
    · exact turned _ (isPoint ▸ .stopWaiting) (Option.some.inj stepTo).symm
    · split at stepTo
      · rename_i error results held
        cases stepTo
        exact .take succeeds _ results _ held
          (Or.inr ⟨isPoint, Or.inr rfl⟩)
      · rename_i result results _ held
        cases stepTo
        exact .take succeeds result results before.sender held
          (Or.inr ⟨isPoint, Or.inl isPoint⟩)
      · have turn : Turn config before before.sender .waiting := by
          rw [isPoint]
          exact .keepWaiting
        refine turned .waiting turn ?_
        rw [← isPoint]
        exact (Option.some.inj stepTo).symm
  case h_11 isPoint => cases stepTo

inductive Move (config : PipelineConfig) (before : Pipeline) :
    Event → Pipeline → Prop
  | send {succeeds : Bool} {after : Pipeline} :
      Sends config before succeeds after →
        Move config before (.send succeeds) after
  | giveUp : before.sender = .waiting →
      Move config before .giveUp { before with sender := .finished }
  | readLine (line : String) (replies : List String) :
      before.reader = .reading → before.replies = line :: replies →
        Move config before .read
          { before with replies := replies, reader := classify line }
  | remove (messageId : String) : before.reader = .removing messageId →
      Move config before .read { before with
        pending := before.removePending messageId
        reader := .releasing messageId }
  | release (messageId : String) : before.reader = .releasing messageId →
      Move config before .read { before with
        permits := before.permits + 1
        reader := .forwarding (.ok messageId) }
  | forward (result : AckResult) (next : ReadPoint) :
      (before.reader = .forwarding result ∧ next = .reading) ∨
        (∃ error, before.reader = .reporting error ∧
          result = .ioError error ∧ next = .stopped) →
        before.results.length < config.maxInflight * 2 →
          Move config before .read { before with
            results := before.results ++ [result]
            reader := next }
  | stop (event : Event) (next : ReadPoint) :
      (event = .readTimeout ∧ next = .stopped) ∨
        (event = .readEof ∧ next = .stopped) ∨
        (∃ error, event = .readError error ∧ next = .reporting error) →
        before.reader = .reading →
          Move config before event { before with reader := next }
  | ack (messageId : String) (unanswered : List String) :
      before.unanswered = messageId :: unanswered →
        Move config before (.answer .ack) { before with
          unanswered := unanswered
          replies := before.replies ++ [PublishReply.line messageId .ack]
          tally := { before.tally with acked := before.tally.acked + 1 } }
  | refuse (reply : PublishReply) (messageId : String)
      (unanswered : List String) : reply ≠ .ack →
        before.unanswered = messageId :: unanswered →
          Move config before (.answer reply) { before with
            unanswered := unanswered
            replies := before.replies ++ [reply.line messageId]
            tally :=
              { before.tally with refused := before.tally.refused + 1 } }

theorem move_of_forward {config : PipelineConfig} {before after : Pipeline}
    {result : AckResult} {next : ReadPoint}
    (origin : (before.reader = .forwarding result ∧ next = .reading) ∨
      (∃ error, before.reader = .reporting error ∧
        result = .ioError error ∧ next = .stopped))
    (forwards : before.forward config result next = some after) :
    Move config before .read after := by
  unfold forward at forwards
  split at forwards
  · rename_i hasRoom
    cases forwards
    exact .forward result next origin hasRoom
  · cases forwards

theorem move_of_readStep {config : PipelineConfig}
    {before after : Pipeline}
    (stepTo : before.readStep config = some after) :
    Move config before .read after := by
  unfold readStep at stepTo
  split at stepTo
  case h_1 isPoint =>
    split at stepTo
    · rename_i line replies arrived
      cases stepTo
      exact .readLine line replies isPoint arrived
    · cases stepTo
  case h_2 messageId isPoint =>
    cases stepTo
    exact .remove messageId isPoint
  case h_3 messageId isPoint =>
    cases stepTo
    exact .release messageId isPoint
  case h_4 result isPoint =>
    exact move_of_forward (Or.inl ⟨isPoint, rfl⟩) stepTo
  case h_5 error isPoint =>
    exact move_of_forward (Or.inr ⟨error, isPoint, rfl, rfl⟩) stepTo
  case h_6 isPoint => cases stepTo

theorem move_of_answerStep {config : PipelineConfig}
    {before after : Pipeline} {reply : PublishReply}
    (stepTo : before.answerStep reply = some after) :
    Move config before (.answer reply) after := by
  unfold answerStep at stepTo
  split at stepTo
  · rename_i messageId unanswered isOldest
    split at stepTo
    · rename_i isAck
      subst isAck
      cases stepTo
      exact .ack messageId unanswered isOldest
    · rename_i isRefusal
      cases stepTo
      exact .refuse reply messageId unanswered isRefusal isOldest
  · cases stepTo

theorem move_of_step {config : PipelineConfig} {before after : Pipeline}
    {event : Event} (stepTo : before.step config event = some after) :
    Move config before event after := by
  cases event with
  | send succeeds => exact .send (sends_of_sendStep stepTo)
  | giveUp =>
      unfold step at stepTo
      dsimp only at stepTo
      split at stepTo
      · rename_i isWaiting
        cases stepTo
        exact .giveUp isWaiting
      · cases stepTo
  | read => exact move_of_readStep stepTo
  | readTimeout =>
      unfold step at stepTo
      dsimp only at stepTo
      split at stepTo
      · rename_i isReading
        cases stepTo
        exact .stop _ _ (Or.inl ⟨rfl, rfl⟩) isReading
      · cases stepTo
  | readEof =>
      unfold step at stepTo
      dsimp only at stepTo
      split at stepTo
      · rename_i isReading
        cases stepTo
        exact .stop _ _ (Or.inr (Or.inl ⟨rfl, rfl⟩)) isReading
      · cases stepTo
  | readError error =>
      unfold step at stepTo
      dsimp only at stepTo
      split at stepTo
      · rename_i isReading
        cases stepTo
        exact .stop _ _ (Or.inr (Or.inr ⟨error, rfl, rfl⟩)) isReading
      · cases stepTo
  | answer reply => exact move_of_answerStep stepTo

end Pipeline

end Sender

end CipherMQ
