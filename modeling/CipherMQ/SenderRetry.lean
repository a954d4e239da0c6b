import CipherMQ.InflightWindow
import Mathlib.Data.List.Perm.Basic

/-!
# The sender's retry phase

When the sending loop and the wait for acknowledgements are over, the sender
collects the messages that are still pending and publishes each of them again,
up to `maxRetries` times.  An attempt writes the request and takes the next
result of the reader, whichever request it answers; only an acknowledgement of
the message itself ends its retries.  A message without one is counted as
permanently failed.  The reader runs on through all of this, and the pipeline
returns when it has stopped.
-/

namespace CipherMQ

namespace Sender

structure SenderConfig extends PipelineConfig where
  maxRetries : Nat

/-- Where an attempt stands.  An attempt that fails is followed by a pause. -/
inductive AttemptStage where
  | writing
  | flushing
  | awaiting
  | pausing
  deriving DecidableEq, Repr

/-- The main task after its sending loop.  `rest` lists the messages still to
be retried after the current one. -/
inductive RetryPoint where
  | sending
  | nextMessage (rest : List EncryptedMessage)
  | attempt (stage : AttemptStage) (message : EncryptedMessage)
      (number : Nat) (rest : List EncryptedMessage)
  | closing
  | returned
  deriving DecidableEq, Repr

/-- What has happened to messages so far, by their ids: which ones the loop
has tried to send, which ones an acknowledgement was read for, every attempt
to publish one again, and which ones were counted as failed.  The program
keeps none of these lists. -/
structure Journal where
  attempted : List String
  confirmed : List String
  retried : List String
  counted : List String
  deriving DecidableEq, Repr

structure SenderRun where
  pipeline : Pipeline
  retry : RetryPoint
  finalFailed : Nat
  journal : Journal
  deriving DecidableEq, Repr

def Journal.note (journal : Journal) (pipeline : Pipeline) :
    Pipeline.Event → Journal
  | .send _ =>
      match pipeline.sender with
      | .storing _ _ message _ =>
          { journal with
            attempted := journal.attempted ++ [message.messageId] }
      | _ => journal
  | .read =>
      match pipeline.reader, pipeline.replies with
      | .reading, line :: _ =>
          match Pipeline.classify line with
          | .removing messageId =>
              { journal with
                confirmed := journal.confirmed ++ [messageId] }
          | _ => journal
      | _, _ => journal
  | _ => journal

namespace SenderRun

def new (config : SenderConfig) : SenderRun where
  pipeline := .new config.toPipelineConfig
  retry := .sending
  finalFailed := 0
  journal := ⟨[], [], [], []⟩

/-- `unacked` lists the pending messages in the order of the map's values,
which is any order. -/
inductive Event where
  | pipeline (event : Pipeline.Event)
  | collect (unacked : List EncryptedMessage)
  | retry (succeeds : Bool)
  | timeout
  deriving DecidableEq, Repr

def writeAttempt (config : SenderConfig) (run : SenderRun)
    (message : EncryptedMessage) (number : Nat)
    (rest : List EncryptedMessage) (succeeds : Bool) : SenderRun :=
  let journal := run.journal
  if number < config.maxRetries then
    if succeeds then
      { run with
        pipeline := { run.pipeline with
          unanswered := run.pipeline.unanswered ++ [message.messageId] }
        retry := .attempt .flushing message number rest
        journal :=
          { journal with retried := journal.retried ++ [message.messageId] } }
    else
      { run with
        retry := .attempt .pausing message number rest
        journal :=
          { journal with retried := journal.retried ++ [message.messageId] } }
  else
    { run with
      finalFailed := run.finalFailed + 1
      retry := .nextMessage rest
      journal :=
        { journal with counted := journal.counted ++ [message.messageId] } }

def takeResult (run : SenderRun) (message : EncryptedMessage)
    (number : Nat) (rest : List EncryptedMessage) : Option SenderRun :=
  match run.pipeline.results with
  | [] => none
  | result :: results =>
      some { run with
        pipeline := { run.pipeline with results := results }
        retry :=
          if result = .ok message.messageId then .nextMessage rest
          else .attempt .pausing message number rest }

/-- A step of the retry loop.  `succeeds` is the outcome of a write or a
flush. -/
def retryStep (config : SenderConfig) (run : SenderRun) (succeeds : Bool) :
    Option SenderRun :=
  match run.retry with
  | .sending => none
  | .nextMessage [] => some { run with retry := .closing }
  | .nextMessage (message :: rest) =>
      some { run with retry := .attempt .writing message 0 rest }
  | .attempt .writing message number rest =>
      some (run.writeAttempt config message number rest succeeds)
  | .attempt .flushing message number rest =>
      some { run with
        retry := .attempt (if succeeds then .awaiting else .pausing) message
          number rest }
  | .attempt .awaiting message number rest =>
      run.takeResult message number rest
  | .attempt .pausing message number rest =>
      some { run with retry := .attempt .writing message (number + 1) rest }
  | .closing =>
      if run.pipeline.reader = .stopped then
        some { run with retry := .returned }
      else
        none
  | .returned => none

def collectStep (run : SenderRun) (unacked : List EncryptedMessage) :
    Option SenderRun :=
  if run.retry = .sending ∧ run.pipeline.sender = .finished ∧
      unacked.Perm run.pipeline.pending then
    some { run with
      pipeline := { run.pipeline with
        failedIds := run.pipeline.failedIds ++
          unacked.map EncryptedMessage.messageId }
      retry := .nextMessage unacked }
  else
    none

def timeoutStep (run : SenderRun) : Option SenderRun :=
  match run.retry with
  | .attempt .awaiting message number rest =>
      if run.pipeline.results = [] then
        some { run with retry := .attempt .pausing message number rest }
      else
        none
  | _ => none

def step (config : SenderConfig) (run : SenderRun) :
    Event → Option SenderRun
  | .pipeline event =>
      (run.pipeline.step config.toPipelineConfig event).map fun after =>
        { run with
          pipeline := after
          journal := run.journal.note run.pipeline event }
  | .collect unacked => run.collectStep unacked
  | .retry succeeds => run.retryStep config succeeds
  | .timeout => run.timeoutStep

/-! ## What a step can do -/

inductive Retries (config : SenderConfig) (before : SenderRun) :
    Event → SenderRun → Prop
  | collect (unacked : List EncryptedMessage) : before.retry = .sending →
      before.pipeline.sender = .finished →
        unacked.Perm before.pipeline.pending →
          Retries config before (.collect unacked) { before with
            pipeline := { before.pipeline with
              failedIds := before.pipeline.failedIds ++
                unacked.map EncryptedMessage.messageId }
            retry := .nextMessage unacked }
  | finish (succeeds : Bool) : before.retry = .nextMessage [] →
      Retries config before (.retry succeeds)
        { before with retry := .closing }
  | begin (succeeds : Bool) (message : EncryptedMessage)
      (rest : List EncryptedMessage) :
      before.retry = .nextMessage (message :: rest) →
        Retries config before (.retry succeeds)
          { before with retry := .attempt .writing message 0 rest }
  | write (message : EncryptedMessage) (number : Nat)
      (rest : List EncryptedMessage) :
      before.retry = .attempt .writing message number rest →
        number < config.maxRetries →
          Retries config before (.retry true) { before with
            pipeline := { before.pipeline with
              unanswered :=
                before.pipeline.unanswered ++ [message.messageId] }
            retry := .attempt .flushing message number rest
            journal := { before.journal with
              retried := before.journal.retried ++ [message.messageId] } }
  | failWrite (message : EncryptedMessage) (number : Nat)
      (rest : List EncryptedMessage) :
      before.retry = .attempt .writing message number rest →
        number < config.maxRetries →
          Retries config before (.retry false) { before with
            retry := .attempt .pausing message number rest
            journal := { before.journal with
              retried := before.journal.retried ++ [message.messageId] } }
  | count (succeeds : Bool) (message : EncryptedMessage) (number : Nat)
      (rest : List EncryptedMessage) :
      before.retry = .attempt .writing message number rest →
        config.maxRetries ≤ number →
          Retries config before (.retry succeeds) { before with
            finalFailed := before.finalFailed + 1
            retry := .nextMessage rest
            journal := { before.journal with
              counted := before.journal.counted ++ [message.messageId] } }
  | flush (succeeds : Bool) (stage : AttemptStage)
      (message : EncryptedMessage) (number : Nat)
      (rest : List EncryptedMessage) :
      before.retry = .attempt .flushing message number rest →
        stage = .awaiting ∨ stage = .pausing →
          Retries config before (.retry succeeds)
            { before with retry := .attempt stage message number rest }
  | succeed (succeeds : Bool) (message : EncryptedMessage) (number : Nat)
      (rest : List EncryptedMessage) (results : List AckResult) :
      before.retry = .attempt .awaiting message number rest →
        before.pipeline.results = .ok message.messageId :: results →
          Retries config before (.retry succeeds) { before with
            pipeline := { before.pipeline with results := results }
            retry := .nextMessage rest }
  | miss (succeeds : Bool) (message : EncryptedMessage) (number : Nat)
      (rest : List EncryptedMessage) (result : AckResult)
      (results : List AckResult) :
      before.retry = .attempt .awaiting message number rest →
        before.pipeline.results = result :: results →
          result ≠ .ok message.messageId →
            Retries config before (.retry succeeds) { before with
              pipeline := { before.pipeline with results := results }
              retry := .attempt .pausing message number rest }
  | timeout (message : EncryptedMessage) (number : Nat)
      (rest : List EncryptedMessage) :
      before.retry = .attempt .awaiting message number rest →
        before.pipeline.results = [] →
          Retries config before .timeout
            { before with retry := .attempt .pausing message number rest }
  | wake (succeeds : Bool) (message : EncryptedMessage) (number : Nat)
      (rest : List EncryptedMessage) :
      before.retry = .attempt .pausing message number rest →
        Retries config before (.retry succeeds)
          { before with retry := .attempt .writing message (number + 1) rest }
  | close (succeeds : Bool) : before.retry = .closing →
      before.pipeline.reader = .stopped →
        Retries config before (.retry succeeds)
          { before with retry := .returned }

theorem retries_of_retryStep {config : SenderConfig}
    {before after : SenderRun} {succeeds : Bool}
    (stepTo : before.retryStep config succeeds = some after) :
    Retries config before (.retry succeeds) after := by
  unfold retryStep at stepTo
  split at stepTo
  case h_1 => cases stepTo
  case h_2 isPoint =>
    cases stepTo
    exact .finish succeeds isPoint
  case h_3 message rest isPoint =>
    cases stepTo
    exact .begin succeeds message rest isPoint
  case h_4 message number rest isPoint =>
    obtain rfl := Option.some.inj stepTo
    unfold writeAttempt
    dsimp only
    split
    · rename_i left
      cases succeeds with
      | true => exact .write message number rest isPoint left
      | false => exact .failWrite message number rest isPoint left
    · rename_i none_left
      exact .count succeeds message number rest isPoint (by omega)
  case h_5 message number rest isPoint =>
    cases stepTo
    refine .flush succeeds _ message number rest isPoint ?_
    cases succeeds with
    | true => exact .inl rfl
    | false => exact .inr rfl
  case h_6 message number rest isPoint =>
    unfold takeResult at stepTo
    split at stepTo
    · cases stepTo
    · rename_i result results held
      obtain rfl := Option.some.inj stepTo
      split
      · rename_i isOwn
        subst isOwn
        exact .succeed succeeds message number rest results isPoint held
      · rename_i isOther
        exact .miss succeeds message number rest result results isPoint held
          isOther
  case h_7 message number rest isPoint =>
    cases stepTo
    exact .wake succeeds message number rest isPoint
  case h_8 isPoint =>
    split at stepTo
    · rename_i isStopped
      cases stepTo
      exact .close succeeds isPoint isStopped
    · cases stepTo
  case h_9 => cases stepTo

/-- A step is one of the pipeline or one of the retry loop. -/
theorem step_cases {config : SenderConfig} {before after : SenderRun}
    {event : Event} (stepTo : before.step config event = some after) :
    (∃ pipelineEvent pipeline, event = .pipeline pipelineEvent ∧
      before.pipeline.step config.toPipelineConfig pipelineEvent =
        some pipeline ∧
      after = { before with
        pipeline := pipeline
        journal := before.journal.note before.pipeline pipelineEvent }) ∨
    Retries config before event after := by
  cases event with
  | pipeline pipelineEvent =>
      obtain ⟨pipeline, stepped, rfl⟩ := Option.map_eq_some_iff.mp stepTo
      exact .inl ⟨pipelineEvent, pipeline, rfl, stepped, rfl⟩
  | collect unacked =>
      right
      simp only [step, collectStep] at stepTo
      split at stepTo
      · rename_i ready
        cases stepTo
        exact .collect unacked ready.1 ready.2.1 ready.2.2
      · cases stepTo
  | retry succeeds => exact .inr (retries_of_retryStep stepTo)
  | timeout =>
      right
      simp only [step, timeoutStep] at stepTo
      split at stepTo
      · rename_i message number rest isPoint
        split at stepTo
        · rename_i noResult
          cases stepTo
          exact .timeout message number rest isPoint noResult
        · cases stepTo
      · cases stepTo

end SenderRun

end Sender

end CipherMQ
