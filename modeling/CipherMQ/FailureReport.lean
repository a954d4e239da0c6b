import CipherMQ.SenderAccounting
import CipherMQ.ServerState

/-!
# The sender's failure report and the server

The sender counts a message as permanently failed when none of its attempts
has been followed by an acknowledgement of the message.  An attempt takes the
next result there is, so the acknowledgement may have gone to the attempt of
another message, or it may come too late, and a message that the server has
accepted is not accepted again.

The sender and the server make up a conversation: the server handles the
requests of the connection in their order, and other clients may change its
state in between.
-/

namespace CipherMQ

namespace Sender

def EncryptedMessage.input (message : EncryptedMessage) :
    EncryptedInputData where
  messageId := message.messageId
  receiverClientId := message.receiverClientId
  encSessionKey := message.encSessionKey
  nonce := message.nonce
  ciphertext := message.ciphertext

structure Deployment where
  sender : SenderConfig
  clientId : String
  exchangeName : String

/-- The sender, the requests on their way to the server, the server, and the
ids it has accepted: their messages were enqueued and answered with `ACK`. -/
structure Conversation where
  run : SenderRun
  requests : List EncryptedMessage
  server : ServerState
  accepted : List String

def publishReply : Except String Unit → PublishReply
  | .ok () => .ack
  | .error error => .error error

/-- The answers given before a request is looked at. -/
def PublishReply.turnsAway : PublishReply → Bool
  | .rateLimited | .accessDenied _ => true
  | _ => false

def SenderRun.written (config : SenderConfig) (run : SenderRun) :
    SenderRun.Event → List EncryptedMessage
  | .pipeline (.send true) =>
      match run.pipeline.sender with
      | .writing _ _ message _ => [message]
      | _ => []
  | .retry true =>
      match run.retry with
      | .attempt .writing message number _ =>
          if number < config.maxRetries then [message] else []
      | _ => []
  | _ => []

/-- The answers are the server's. -/
def SenderRun.Event.isAnswer : SenderRun.Event → Bool
  | .pipeline (.answer _) => true
  | _ => false

open Pipeline in
theorem written_send {config : SenderConfig} {run : SenderRun}
    {after : Pipeline} {succeeds : Bool}
    (sends : Sends config.toPipelineConfig run.pipeline succeeds after) :
    after.unanswered = run.pipeline.unanswered ++
      (run.written config (.pipeline (.send succeeds))).map
        EncryptedMessage.messageId := by
  have nothing : (∀ i batchEnd message rest,
      run.pipeline.sender ≠ .writing i batchEnd message rest) →
      run.written config (.pipeline (.send succeeds)) = [] := by
    intro notWriting
    cases succeeds with
    | false => rfl
    | true =>
        cases isPoint : run.pipeline.sender with
        | writing i batchEnd message rest =>
            exact absurd isPoint (notWriting i batchEnd message rest)
        | _ => simp only [SenderRun.written, isPoint]
  cases sends with
  | turn _ next turn =>
      rw [nothing, List.map_nil, List.append_nil]
      intro i batchEnd message rest isPoint
      rw [isPoint] at turn
      cases turn
  | write i batchEnd message rest isPoint =>
      simp [SenderRun.written, isPoint]
  | failWrite | failFlush => simp [SenderRun.written, failMessage]
  | beginBatch _ _ isPoint | acquire _ _ _ _ _ isPoint
  | store _ _ _ _ _ isPoint | flush _ _ _ _ isPoint =>
      rw [nothing (by simp [isPoint]), List.map_nil, List.append_nil]
  | take _ result results next held points =>
      rw [nothing, List.map_nil, List.append_nil]
      intro i batchEnd message rest isPoint
      simp [isPoint] at points

theorem written_step {config : SenderConfig} {before after : SenderRun}
    {event : SenderRun.Event} (notAnswer : event.isAnswer = false)
    (stepTo : before.step config event = some after) :
    after.pipeline.unanswered = before.pipeline.unanswered ++
      (before.written config event).map EncryptedMessage.messageId := by
  rcases SenderRun.step_cases stepTo with
    ⟨pipelineEvent, pipeline, rfl, stepped, rfl⟩ | retries
  · cases Pipeline.move_of_step stepped with
    | send sends => exact written_send sends
    | ack | refuse => cases notAnswer
    | stop _ next stops =>
        rcases stops with ⟨rfl, -⟩ | ⟨rfl, -⟩ | ⟨error, rfl, -⟩ <;>
          simp [SenderRun.written]
    | giveUp | readLine | remove | release | forward =>
        simp [SenderRun.written]
  · cases retries with
    | write message number rest isPoint left =>
        simp [SenderRun.written, isPoint, left]
    | count succeeds message number rest isPoint noneLeft =>
        cases succeeds <;>
          simp [SenderRun.written, isPoint, Nat.not_lt.mpr noneLeft]
    | finish succeeds isPoint | begin succeeds _ _ isPoint
    | flush succeeds _ _ _ _ isPoint | succeed succeeds _ _ _ _ isPoint
    | miss succeeds _ _ _ _ _ isPoint | wake succeeds _ _ _ isPoint
    | close succeeds isPoint =>
        cases succeeds <;> simp [SenderRun.written, isPoint]
    | collect | failWrite | timeout => simp [SenderRun.written]

namespace Conversation

def new (deployment : Deployment) (server : ServerState) :
    Conversation where
  run := .new deployment.sender
  requests := []
  server := server
  accepted := []

/-- Other clients may change the state of the server in any way. -/
inductive Event where
  | sender (event : SenderRun.Event)
  | publish (receivedTime : Nat) (sentTime : String)
      (reply : Except StorageError Unit)
  | turnAway (reply : PublishReply)
  | elsewhere (server : ServerState)

def handle (deployment : Deployment) (server : ServerState)
    (message : EncryptedMessage) (receivedTime : Nat) (sentTime : String)
    (reply : Except StorageError Unit) : ServerState × PublishReply :=
  let published := server.publish deployment.exchangeName
    message.routingKey message.input deployment.clientId receivedTime
    sentTime reply
  (published.1, publishReply published.2)

def answer (deployment : Deployment) (conversation : Conversation)
    (rest : List EncryptedMessage) (reply : PublishReply) :
    Option Conversation :=
  (conversation.run.step deployment.sender (.pipeline (.answer reply))).map
    fun run => { conversation with run := run, requests := rest }

def step (deployment : Deployment) (conversation : Conversation) :
    Event → Option Conversation
  | .sender event =>
      if event.isAnswer then
        none
      else
        (conversation.run.step deployment.sender event).map fun run =>
          { conversation with
            run := run
            requests := conversation.requests ++
              conversation.run.written deployment.sender event }
  | .publish receivedTime sentTime reply =>
      match conversation.requests with
      | [] => none
      | message :: rest =>
          let handled := handle deployment conversation.server message
            receivedTime sentTime reply
          (conversation.answer deployment rest handled.2).map fun answered =>
            { answered with
              server := handled.1
              accepted :=
                if handled.2 = .ack then
                  conversation.accepted ++ [message.messageId]
                else
                  conversation.accepted }
  | .turnAway reply =>
      match conversation.requests with
      | [] => none
      | _ :: rest =>
          if reply.turnsAway then
            conversation.answer deployment rest reply
          else
            none
  | .elsewhere server => some { conversation with server := server }

/-! ## What a step can do -/

/-- The shapes of a step: the sender moves, a request is answered, or other
clients are served. -/
theorem step_cases {deployment : Deployment} {before after : Conversation}
    {event : Event} (stepTo : before.step deployment event = some after) :
    (∃ senderEvent run, event = .sender senderEvent ∧
      senderEvent.isAnswer = false ∧
      before.run.step deployment.sender senderEvent = some run ∧
      after = { before with
        run := run
        requests := before.requests ++
          before.run.written deployment.sender senderEvent }) ∨
    (∃ message rest reply server pipeline,
      before.requests = message :: rest ∧
      before.run.pipeline.step deployment.sender.toPipelineConfig
        (.answer reply) = some pipeline ∧
      ((reply ≠ .ack ∧ after.accepted = before.accepted) ∨
        (reply = .ack ∧
          after.accepted = before.accepted ++ [message.messageId] ∧
          ∃ receivedTime sentTime saved,
            event = .publish receivedTime sentTime saved ∧
              (handle deployment before.server message receivedTime sentTime
                saved).2 = .ack)) ∧
      after = { before with
        run := { before.run with pipeline := pipeline }
        requests := rest
        server := server
        accepted := after.accepted }) ∨
    ∃ server, after = { before with server := server } := by
  have answered : ∀ rest reply final,
      before.answer deployment rest reply = some final →
        ∃ pipeline, before.run.pipeline.step
            deployment.sender.toPipelineConfig (.answer reply) =
              some pipeline ∧
          final = { before with
            run := { before.run with pipeline := pipeline }
            requests := rest } := by
    intro rest reply final isAnswered
    obtain ⟨run, stepped, rfl⟩ := Option.map_eq_some_iff.mp isAnswered
    obtain ⟨pipeline, moved, rfl⟩ := Option.map_eq_some_iff.mp stepped
    exact ⟨pipeline, moved, rfl⟩
  cases event with
  | sender senderEvent =>
      left
      simp only [step] at stepTo
      split at stepTo
      · cases stepTo
      · rename_i notAnswer
        obtain ⟨run, stepped, rfl⟩ := Option.map_eq_some_iff.mp stepTo
        exact ⟨senderEvent, run, rfl, by simpa using notAnswer, stepped, rfl⟩
  | publish receivedTime sentTime saved =>
      right
      left
      simp only [step] at stepTo
      split at stepTo
      · cases stepTo
      · rename_i message rest isOldest
        obtain ⟨final, isAnswered, rfl⟩ := Option.map_eq_some_iff.mp stepTo
        obtain ⟨pipeline, moved, rfl⟩ := answered _ _ _ isAnswered
        refine ⟨message, rest, _, _, pipeline, isOldest, moved, ?_, rfl⟩
        by_cases isAck : (handle deployment before.server message
            receivedTime sentTime saved).2 = .ack
        · exact .inr ⟨isAck, if_pos isAck, receivedTime, sentTime, saved,
            rfl, isAck⟩
        · exact .inl ⟨isAck, if_neg isAck⟩
  | turnAway reply =>
      right
      left
      simp only [step] at stepTo
      split at stepTo
      · cases stepTo
      · rename_i message rest isOldest
        split at stepTo
        · rename_i turnsAway
          obtain ⟨pipeline, moved, rfl⟩ := answered _ _ _ stepTo
          refine ⟨message, rest, reply, before.server, pipeline, isOldest,
            moved, .inl ⟨?_, rfl⟩, rfl⟩
          rintro rfl
          cases turnsAway
        · cases stepTo
  | elsewhere server =>
      right
      right
      exact ⟨server, (Option.some.inj stepTo).symm⟩

end Conversation

/-! ## An acknowledgement on its way -/

def RetryPoint.awaited : RetryPoint → Option EncryptedMessage
  | .attempt .awaiting message _ _ => some message
  | _ => none

/-- The acknowledgement of the id is read as one of this id.  An id that ends
in white space is not read back. -/
def ReadsBack (messageId : String) : Prop :=
  Pipeline.classify (PublishReply.line messageId .ack) = .removing messageId

instance (messageId : String) : Decidable (ReadsBack messageId) :=
  inferInstanceAs (Decidable (_ = _))

namespace Pipeline

/-- The acknowledgement of the id is the only answer underway: it is on the
connection, with the reader, or on the reader's channel. -/
structure AckUnderway (pipeline : Pipeline) (messageId : String) :
    Prop where
  answered : pipeline.unanswered = []
  place :
    (pipeline.replies = [PublishReply.line messageId .ack] ∧
      pipeline.results = [] ∧
      (pipeline.reader = .reading ∨ pipeline.reader = .stopped)) ∨
    (pipeline.replies = [] ∧ pipeline.results = [] ∧
      pipeline.reader.acks = some messageId) ∨
    (pipeline.replies = [] ∧ pipeline.results = [.ok messageId] ∧
      (pipeline.reader = .reading ∨ pipeline.reader = .stopped))

/-- In the retry phase the acknowledgement moves on towards the sender, unless
the connection breaks. -/
theorem AckUnderway.step {config : PipelineConfig}
    {before after : Pipeline} {event : Event} {messageId : String}
    (underway : before.AckUnderway messageId)
    (isFinished : before.sender = .finished)
    (readsBack : ReadsBack messageId)
    (noError : ∀ error, event ≠ .readError error)
    (stepTo : before.step config event = some after) :
    after.AckUnderway messageId := by
  obtain ⟨answered, place⟩ := underway
  cases move_of_step stepTo with
  | send sends => exact absurd sends (not_sends_of_finished isFinished)
  | giveUp isWaiting => simp [isFinished] at isWaiting
  | readLine line replies isReading arrived =>
      rw [arrived, List.cons.injEq] at place
      rcases place with
        ⟨⟨isLine, noReply⟩, noResult, -⟩ | ⟨noReply, -⟩ | ⟨noReply, -⟩
      · rw [ReadsBack, ← isLine] at readsBack
        rw [readsBack]
        exact ⟨answered, .inr (.inl ⟨noReply, noResult, rfl⟩)⟩
      · cases noReply
      · cases noReply
  | remove other isPoint =>
      simp only [isPoint, ReadPoint.acks, Option.some.injEq, reduceCtorEq,
        or_self, and_false, or_false, false_or] at place
      exact ⟨answered, .inr (.inl ⟨place.1, place.2.1,
        congrArg some place.2.2⟩)⟩
  | release other isPoint =>
      simp only [isPoint, ReadPoint.acks, Option.some.injEq, reduceCtorEq,
        or_self, and_false, or_false, false_or] at place
      exact ⟨answered, .inr (.inl ⟨place.1, place.2.1,
        congrArg some place.2.2⟩)⟩
  | forward result next points hasRoom =>
      have atReader : before.replies = [] ∧ before.results = [] ∧
          before.reader.acks = some messageId := by
        rcases points with ⟨isPoint, -⟩ | ⟨error, isPoint, -⟩ <;>
          simpa [isPoint] using place
      obtain ⟨noReply, noResult, isAck⟩ := atReader
      rcases points with ⟨isPoint, rfl⟩ | ⟨error, isPoint, -⟩
      · rw [isPoint] at isAck
        cases result with
        | ok other =>
            cases isAck
            refine ⟨answered, .inr (.inr ⟨noReply, ?_, .inl rfl⟩)⟩
            change before.results ++ _ = _
            rw [noResult, List.nil_append]
        | serverError | unknown | ioError => cases isAck
      · rw [isPoint] at isAck
        cases isAck
  | stop _ next stops isReading =>
      rcases stops with ⟨rfl, rfl⟩ | ⟨rfl, rfl⟩ | ⟨error, rfl, -⟩
      · refine ⟨answered, ?_⟩
        simpa [isReading, ReadPoint.acks] using place
      · refine ⟨answered, ?_⟩
        simpa [isReading, ReadPoint.acks] using place
      · exact absurd rfl (noError error)
  | ack other unanswered isOldest => simp [answered] at isOldest
  | refuse reply other unanswered _ isOldest => simp [answered] at isOldest

end Pipeline

namespace Conversation

/-! ## The report -/

/-- The sender waits for the answer to the one request there is, and no other
answer is underway. -/
def Undisturbed (conversation : Conversation) : Prop :=
  conversation.requests.map EncryptedMessage.messageId =
      (conversation.run.retry.awaited.map
        EncryptedMessage.messageId).toList ∧
    conversation.run.pipeline.replies = [] ∧
    conversation.run.pipeline.results = [] ∧
    conversation.run.pipeline.reader = .reading ∧
    ∀ message ∈ conversation.run.retry.awaited, ReadsBack message.messageId

instance (conversation : Conversation) :
    Decidable conversation.Undisturbed :=
  inferInstanceAs (Decidable (_ ∧ _ ∧ _ ∧ _ ∧ _))

def AwaitsUnaccepted (conversation : Conversation) : Prop :=
  ∀ message ∈ conversation.run.retry.awaited,
    message.messageId ∉ conversation.accepted

instance (conversation : Conversation) :
    Decidable conversation.AwaitsUnaccepted :=
  inferInstanceAs (Decidable (∀ message ∈ _, _))

def Accepts (deployment : Deployment) (conversation : Conversation)
    (receivedTime : Nat) (sentTime : String)
    (reply : Except StorageError Unit) : Prop :=
  ∀ message ∈ conversation.requests.head?,
    (handle deployment conversation.server message receivedTime sentTime
      reply).2 = .ack

instance (deployment : Deployment) (conversation : Conversation)
    (receivedTime : Nat) (sentTime : String)
    (reply : Except StorageError Unit) :
    Decidable (conversation.Accepts deployment receivedTime sentTime
      reply) :=
  inferInstanceAs (Decidable (∀ message ∈ _, _))

/-- No accepted message is pending when the retry phase begins, in the retry
phase the server accepts a request only while the sender waits for its answer
and no other answer is underway, and the wait for the answer to an accepted
request neither times out nor ends in a read error. -/
def AnswersInTime (deployment : Deployment) (conversation : Conversation) :
    Event → Prop
  | .sender (.collect _) =>
      ∀ message ∈ conversation.run.pipeline.pending,
        message.messageId ∉ conversation.accepted
  | .sender .timeout => conversation.AwaitsUnaccepted
  | .sender (.pipeline (.readError _)) => conversation.AwaitsUnaccepted
  | .publish receivedTime sentTime reply =>
      conversation.Accepts deployment receivedTime sentTime reply →
        conversation.run.retry = .sending ∨ conversation.Undisturbed
  | _ => True

instance (deployment : Deployment) (conversation : Conversation)
    (event : Event) :
    Decidable (conversation.AnswersInTime deployment event) :=
  match event with
  | .sender (.collect _) =>
      inferInstanceAs (Decidable (∀ message ∈ _, _))
  | .sender .timeout | .sender (.pipeline (.readError _)) =>
      inferInstanceAs (Decidable conversation.AwaitsUnaccepted)
  | .publish _ _ _ => inferInstanceAs (Decidable (_ → _ ∨ _))
  | .sender (.retry _) | .sender (.pipeline (.send _))
  | .sender (.pipeline .giveUp) | .sender (.pipeline .read)
  | .sender (.pipeline .readTimeout) | .sender (.pipeline .readEof)
  | .sender (.pipeline (.answer _)) | .turnAway _ | .elsewhere _ =>
      instDecidableTrue

/-- A message counted as failed was not accepted, and one that was accepted
and is still under retry is about to be confirmed. -/
structure Truthful (conversation : Conversation) : Prop where
  wired : conversation.run.pipeline.unanswered =
    conversation.requests.map EncryptedMessage.messageId
  once : conversation.run.OnceEach
  counted : ∀ messageId ∈ conversation.run.journal.counted,
    messageId ∉ conversation.accepted
  remaining : ∀ message ∈ conversation.run.retry.remaining,
    message.messageId ∈ conversation.accepted →
      conversation.run.retry.awaited = some message ∧
        ReadsBack message.messageId ∧
        conversation.run.pipeline.AckUnderway message.messageId

theorem truthful_new (deployment : Deployment) (server : ServerState) :
    (new deployment server).Truthful where
  wired := rfl
  once := SenderRun.onceEach_new deployment.sender
  counted := by simp [new]
  remaining := by simp [new]

/-- While a request is unanswered, nothing under retry has been accepted. -/
theorem Truthful.not_accepted_of_request {conversation : Conversation}
    (truthful : conversation.Truthful) {message : EncryptedMessage}
    {rest : List EncryptedMessage}
    (isOldest : conversation.requests = message :: rest)
    {other : EncryptedMessage}
    (isRemaining : other ∈ conversation.run.retry.remaining) :
    other.messageId ∉ conversation.accepted := by
  intro isAccepted
  obtain ⟨-, -, underway⟩ := truthful.remaining other isRemaining isAccepted
  have answered := underway.answered
  rw [truthful.wired, isOldest] at answered
  cases answered

/-- Unless its result is awaited, a message under retry has not been
accepted. -/
theorem Truthful.not_accepted_of_not_awaited {conversation : Conversation}
    (truthful : conversation.Truthful)
    (notAwaited : conversation.run.retry.awaited = none)
    {message : EncryptedMessage}
    (isRemaining : message ∈ conversation.run.retry.remaining) :
    message.messageId ∉ conversation.accepted := by
  intro isAccepted
  obtain ⟨awaited, -⟩ := truthful.remaining message isRemaining isAccepted
  rw [notAwaited] at awaited
  cases awaited

theorem Truthful.of_unaccepted {before after : Conversation}
    (truthful : before.Truthful)
    (wired : after.run.pipeline.unanswered =
      after.requests.map EncryptedMessage.messageId)
    (once : after.run.OnceEach)
    (sameAccepted : after.accepted = before.accepted)
    (counted : ∀ messageId ∈ after.run.journal.counted,
      messageId ∈ before.run.journal.counted ∨
        messageId ∉ before.accepted)
    (unaccepted : ∀ message ∈ after.run.retry.remaining,
      message.messageId ∉ before.accepted) : after.Truthful := by
  refine ⟨wired, once, ?_, ?_⟩
  · intro messageId isCounted
    rw [sameAccepted]
    rcases counted messageId isCounted with old | notAccepted
    · exact truthful.counted messageId old
    · exact notAccepted
  · intro message isRemaining isAccepted
    rw [sameAccepted] at isAccepted
    exact absurd isAccepted (unaccepted message isRemaining)

theorem Truthful.retry {deployment : Deployment} {before : Conversation}
    {senderEvent : SenderRun.Event} {run : SenderRun}
    {requests : List EncryptedMessage} (truthful : before.Truthful)
    (inTime : before.AnswersInTime deployment (.sender senderEvent))
    (retries : SenderRun.Retries deployment.sender before.run senderEvent run)
    (wired : run.pipeline.unanswered =
      requests.map EncryptedMessage.messageId) :
    Truthful { before with run := run, requests := requests } := by
  have once := truthful.once.retry retries
  have notAwaited := @Truthful.not_accepted_of_not_awaited _ truthful
  refine truthful.of_unaccepted wired once rfl ?_ ?_
  · intro messageId isCounted
    cases retries with
    | count _ message number rest isPoint =>
        rcases List.mem_append.mp isCounted with old | isNew
        · exact .inl old
        · rw [List.mem_singleton.mp isNew]
          rw [isPoint] at notAwaited
          exact .inr (notAwaited rfl (List.mem_cons_self ..))
    | _ => exact .inl isCounted
  · intro other isRemaining
    cases retries with
    | collect unacked _ _ isPerm =>
        exact inTime other (isPerm.mem_iff.mp isRemaining)
    | finish | close => cases isRemaining
    | begin _ _ _ isPoint | write _ _ _ isPoint | failWrite _ _ _ isPoint
    | flush _ _ _ _ _ isPoint | wake _ _ _ _ isPoint =>
        rw [isPoint] at notAwaited
        exact notAwaited rfl isRemaining
    | count _ message number rest isPoint =>
        rw [isPoint] at notAwaited
        exact notAwaited rfl (List.mem_cons_of_mem _ isRemaining)
    | succeed _ message number rest results isPoint =>
        -- the confirmed message occurs only once
        intro isAccepted
        have distinct := truthful.once.retries
        have inRemaining : other ∈ before.run.retry.remaining := by
          rw [isPoint]
          exact List.mem_cons_of_mem _ isRemaining
        obtain ⟨awaited, -⟩ :=
          truthful.remaining other inRemaining isAccepted
        rw [isPoint] at awaited distinct
        cases awaited
        rw [RetryPoint.remaining, List.map_cons, List.nodup_middle,
          List.nodup_cons, List.mem_append, not_or] at distinct
        exact distinct.1.2 (List.mem_map_of_mem isRemaining)
    | miss _ message number rest result results isPoint held isOther =>
        intro isAccepted
        have inRemaining : other ∈ before.run.retry.remaining := by
          rw [isPoint]
          exact isRemaining
        obtain ⟨awaited, -, underway⟩ :=
          truthful.remaining other inRemaining isAccepted
        rw [isPoint] at awaited
        cases awaited
        have place := underway.place
        simp only [held, reduceCtorEq, false_and, and_false, false_or,
          List.cons.injEq] at place
        exact isOther place.2.1.1
    | timeout message number rest isPoint =>
        intro isAccepted
        have inRemaining : other ∈ before.run.retry.remaining := by
          rw [isPoint]
          exact isRemaining
        obtain ⟨awaited, -⟩ :=
          truthful.remaining other inRemaining isAccepted
        exact inTime other awaited isAccepted

theorem Truthful.pipeline {deployment : Deployment} {before : Conversation}
    {event : Pipeline.Event} {pipeline : Pipeline}
    {requests : List EncryptedMessage} (truthful : before.Truthful)
    (inTime : before.AnswersInTime deployment (.sender (.pipeline event)))
    (stepped : before.run.pipeline.step
      deployment.sender.toPipelineConfig event = some pipeline)
    (wired : pipeline.unanswered =
      requests.map EncryptedMessage.messageId) :
    Truthful { before with
      run := { before.run with
        pipeline := pipeline
        journal := before.run.journal.note before.run.pipeline event }
      requests := requests } := by
  obtain ⟨sameCounted, -⟩ := SenderRun.counted_note before.run.journal
    before.run.pipeline event
  refine ⟨wired, truthful.once.pipeline stepped, ?_, ?_⟩
  · rw [sameCounted]
    exact truthful.counted
  · intro message isRemaining isAccepted
    obtain ⟨awaited, readsBack, underway⟩ :=
      truthful.remaining message isRemaining isAccepted
    refine ⟨awaited, readsBack, underway.step ?_ readsBack ?_ stepped⟩
    · apply truthful.once.finished
      intro isSending
      rw [isSending] at awaited
      cases awaited
    · rintro error rfl
      exact inTime message awaited isAccepted

theorem Truthful.wired_answer {deployment : Deployment}
    {before : Conversation} {message : EncryptedMessage}
    {rest : List EncryptedMessage} {reply : PublishReply}
    {pipeline : Pipeline} (truthful : before.Truthful)
    (isOldest : before.requests = message :: rest)
    (stepped : before.run.pipeline.step
      deployment.sender.toPipelineConfig (.answer reply) = some pipeline) :
    pipeline.unanswered = rest.map EncryptedMessage.messageId := by
  have wired := truthful.wired
  rw [isOldest] at wired
  cases Pipeline.move_of_step stepped with
  | ack _ unanswered isFirst =>
      rw [isFirst] at wired
      exact (List.cons.inj wired).2
  | refuse _ _ unanswered _ isFirst =>
      rw [isFirst] at wired
      exact (List.cons.inj wired).2
  | stop _ _ stops => simp at stops

/-- The answer to the one request there is becomes the one answer
underway. -/
theorem ackUnderway_answer {config : PipelineConfig}
    {before after : Pipeline} {messageId : String}
    (isOldest : before.unanswered = [messageId])
    (noReply : before.replies = []) (noResult : before.results = [])
    (isReading : before.reader = .reading)
    (stepped : before.step config (.answer .ack) = some after) :
    after.AckUnderway messageId := by
  cases Pipeline.move_of_step stepped with
  | ack other unanswered isFirst =>
      rw [isOldest] at isFirst
      cases isFirst
      refine ⟨rfl, .inl ⟨?_, noResult, .inl isReading⟩⟩
      change before.replies ++ _ = _
      rw [noReply, List.nil_append]
  | refuse _ _ _ isRefusal => exact absurd rfl isRefusal
  | stop _ _ stops => simp at stops

theorem remaining_of_awaited {point : RetryPoint}
    {message : EncryptedMessage} (isAwaited : point.awaited = some message) :
    ∃ rest, point.remaining = message :: rest := by
  cases point with
  | attempt stage current number rest =>
      cases stage with
      | awaiting =>
          cases isAwaited
          exact ⟨rest, rfl⟩
      | writing | flushing | pausing => cases isAwaited
  | sending | nextMessage | closing | returned => cases isAwaited

theorem Truthful.accept {deployment : Deployment} {before : Conversation}
    {message : EncryptedMessage} {rest : List EncryptedMessage}
    {pipeline : Pipeline} {server : ServerState}
    (truthful : before.Truthful)
    (isOldest : before.requests = message :: rest)
    (stepped : before.run.pipeline.step
      deployment.sender.toPipelineConfig (.answer .ack) = some pipeline)
    (inTime : before.run.retry = .sending ∨ before.Undisturbed) :
    Truthful { before with
      run := { before.run with pipeline := pipeline }
      requests := rest
      server := server
      accepted := before.accepted ++ [message.messageId] } := by
  have wired := truthful.wired_answer isOldest stepped
  have once := truthful.once.pipeline stepped
  rcases inTime with isSending |
    ⟨isOnly, noReply, noResult, isReading, readsBack⟩
  · refine ⟨wired, once, ?_, ?_⟩
    · intro messageId isCounted
      rw [truthful.once.sending isSending] at isCounted
      cases isCounted
    · intro other isRemaining
      rw [isSending] at isRemaining
      cases isRemaining
  · cases awaited : before.run.retry.awaited with
    | none => simp [isOldest, awaited] at isOnly
    | some current =>
        rw [isOldest, awaited, Option.map_some, Option.toList_some,
          List.map_cons] at isOnly
        obtain ⟨sameId, noRest⟩ := List.cons.inj isOnly
        obtain ⟨later, isRemaining⟩ := remaining_of_awaited awaited
        have distinct := truthful.once.retries
        rw [isRemaining, List.map_cons, List.nodup_middle, List.nodup_cons,
          List.mem_append, not_or] at distinct
        obtain ⟨⟨notCounted, notLater⟩, -⟩ := distinct
        refine ⟨wired, once, ?_, ?_⟩
        · intro messageId isCounted isAccepted
          rcases List.mem_append.mp isAccepted with old | isNew
          · exact truthful.counted messageId isCounted old
          · rw [List.mem_singleton.mp isNew, sameId] at isCounted
            exact notCounted isCounted
        · intro other isOther isAccepted
          rcases List.mem_append.mp isAccepted with old | isNew
          · exact absurd old
              (truthful.not_accepted_of_request isOldest isOther)
          · have isCurrent : other.messageId = current.messageId :=
              (List.mem_singleton.mp isNew).trans sameId
            change other ∈ before.run.retry.remaining at isOther
            rw [isRemaining] at isOther
            rcases List.mem_cons.mp isOther with rfl | inLater
            · have isUnanswered : before.run.pipeline.unanswered =
                  [other.messageId] := by
                rw [truthful.wired, isOldest, List.map_cons, sameId, noRest]
              exact ⟨awaited, readsBack other awaited,
                ackUnderway_answer isUnanswered noReply noResult isReading
                  stepped⟩
            · have again : other.messageId ∈
                  later.map EncryptedMessage.messageId :=
                List.mem_map_of_mem inLater
              rw [isCurrent] at again
              exact absurd again notLater

theorem Truthful.step {deployment : Deployment}
    {before after : Conversation} {event : Event}
    (truthful : before.Truthful)
    (inTime : before.AnswersInTime deployment event)
    (stepTo : before.step deployment event = some after) :
    after.Truthful := by
  rcases step_cases stepTo with
    ⟨senderEvent, run, rfl, notAnswer, stepped, rfl⟩ |
    ⟨message, rest, reply, server, pipeline, isOldest, stepped, outcome,
      isAfter⟩ | ⟨server, rfl⟩
  · have wired : run.pipeline.unanswered = (before.requests ++
        before.run.written deployment.sender senderEvent).map
          EncryptedMessage.messageId := by
      rw [written_step notAnswer stepped, truthful.wired, List.map_append]
    rcases SenderRun.step_cases stepped with
      ⟨pipelineEvent, pipeline, rfl, moved, rfl⟩ | retries
    · exact truthful.pipeline inTime moved wired
    · exact truthful.retry inTime retries wired
  · rw [isAfter]
    rcases outcome with ⟨-, sameAccepted⟩ |
      ⟨rfl, isAccepted, receivedTime, sentTime, saved, rfl, accepts⟩
    · rw [sameAccepted]
      exact truthful.of_unaccepted (truthful.wired_answer isOldest stepped)
        (truthful.once.pipeline stepped) rfl
        (fun _ isCounted => .inl isCounted)
        (fun _ => truthful.not_accepted_of_request isOldest)
    · rw [isAccepted]
      apply truthful.accept isOldest stepped
      apply inTime
      intro other isHead
      rw [isOldest] at isHead
      cases isHead
      exact accepts
  · exact ⟨truthful.wired, truthful.once, truthful.counted,
      truthful.remaining⟩

/-- If answers come in time, a message that is counted as permanently failed
was not accepted by the server. -/
theorem counted_not_accepted {deployment : Deployment}
    {server : ServerState} {conversation : Conversation}
    (reached : ReachableWhile (step deployment) (AnswersInTime deployment)
      (new deployment server) conversation) :
    conversation.run.finalFailed =
        conversation.run.journal.counted.length ∧
      ∀ messageId ∈ conversation.run.journal.counted,
        messageId ∉ conversation.accepted := by
  have truthful : conversation.Truthful := by
    apply reached.invariant Truthful (truthful_new deployment server)
    intro before event after truthful inTime stepTo
    exact truthful.step inTime stepTo
  exact ⟨truthful.once.total, truthful.counted⟩

def sampleDeployment (numMessages : Nat) (positive : 0 < numMessages) :
    Deployment where
  sender :=
    { toPipelineConfig :=
        Pipeline.sampleConfig numMessages numMessages numMessages positive
      maxRetries := 1 }
  clientId := "sender_1"
  exchangeName := "e"

def sampleServer : ServerState :=
  (((ServerState.new 10).declareQueue "receiver_1_queue").declareExchange
    "e").bindQueue "receiver_1_queue" "e" "receiver_1_key"

def piped (events : List Pipeline.Event) : List Event :=
  events.map fun event => .sender (.pipeline event)

/-- Two messages are sent.  The first one is accepted and the second one is
turned away, which happens again when it is retried. -/
def turnedAway : List Event :=
  [piped [.send true], piped (Pipeline.sendMessage true),
    piped [.send true], piped (Pipeline.sendMessage true),
    piped (List.replicate 4 (.send true)),
    [.publish 1 "t" (.ok ()), .turnAway .rateLimited],
    piped (List.replicate 6 .read),
    piped [.send true, .send true, .giveUp],
    [.sender (.collect
      ((sampleDeployment 2 Nat.two_pos).sender.encrypted 1))],
    List.replicate 3 (.sender (.retry true)),
    [.turnAway .rateLimited], piped [.read, .read],
    List.replicate 3 (.sender (.retry true))].flatten

theorem counted_not_accepted_turnedAway :
    ∃ conversation,
      ReachableWhile (step (sampleDeployment 2 Nat.two_pos))
        (AnswersInTime (sampleDeployment 2 Nat.two_pos))
        (new (sampleDeployment 2 Nat.two_pos) sampleServer) conversation ∧
      conversation.run.journal.counted = ["sender_1-1-receiver_1"] ∧
      conversation.accepted = ["sender_1-0-receiver_1"] ∧
      "sender_1-1-receiver_1" ∉ conversation.accepted := by
  have ran : (executeWhile (step (sampleDeployment 2 Nat.two_pos))
      (AnswersInTime (sampleDeployment 2 Nat.two_pos))
      (new (sampleDeployment 2 Nat.two_pos) sampleServer) turnedAway).map
        (fun conversation => (conversation.run.journal.counted,
          conversation.accepted)) =
      some (["sender_1-1-receiver_1"], ["sender_1-0-receiver_1"]) := by
    decide +kernel
  obtain ⟨conversation, reached, account⟩ := exists_reachableWhile_of_map ran
  obtain ⟨isCounted, isAccepted⟩ := Prod.mk.inj account
  refine ⟨conversation, reached, isCounted, isAccepted,
    (counted_not_accepted reached).2 _ ?_⟩
  rw [isCounted]
  exact List.mem_singleton_self _

/-- The message is accepted, but its acknowledgement comes after the reader
has given up: the retry is answered as a duplicate, which nobody reads
either. -/
def lateAck : List Event :=
  [(SenderRun.sendingOne true).map .sender, piped [.readTimeout],
    [.publish 1 "t" (.ok ())], piped [.giveUp],
    [.sender (.collect
      ((sampleDeployment 1 Nat.one_pos).sender.encrypted 0))],
    List.replicate 3 (.sender (.retry true)),
    [.publish 2 "t" (.ok ()), .sender .timeout],
    List.replicate 2 (.sender (.retry true))].flatten

theorem counted_accepted_lateAck :
    ∃ conversation,
      Reachable (step (sampleDeployment 1 Nat.one_pos))
        (new (sampleDeployment 1 Nat.one_pos) sampleServer) conversation ∧
      conversation.run.journal.counted = ["sender_1-0-receiver_1"] ∧
      conversation.run.finalFailed = 1 ∧
      conversation.accepted = ["sender_1-0-receiver_1"] := by
  have ran : (executeWhile (step (sampleDeployment 1 Nat.one_pos))
      (fun _ _ => True)
      (new (sampleDeployment 1 Nat.one_pos) sampleServer) lateAck).map
        (fun conversation => (conversation.run.journal.counted,
          conversation.run.finalFailed, conversation.accepted)) =
      some (["sender_1-0-receiver_1"], 1, ["sender_1-0-receiver_1"]) := by
    decide +kernel
  obtain ⟨conversation, reached, account⟩ := exists_reachableWhile_of_map ran
  simp only [Prod.mk.injEq] at account
  exact ⟨conversation, reached, account⟩

end Conversation

end Sender

end CipherMQ
