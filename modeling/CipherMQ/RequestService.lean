import CipherMQ.CallRefinement
import CipherMQ.PublicKeyStore

/-!
# Requests served alone

What a request does to the broker and to the stored keys, and what its client
is answered, when nothing else happens in the meantime: the calls that the
handler makes run to completion, one after the other.

The server takes exactly these steps when a handler is left undisturbed, from
any state in which the handler waits for a request.
-/

namespace CipherMQ

open ServerState

/-! ## Serving a request -/

/-- What a request learns from outside while it is served: the answer of the
rate limiter, the clock and the readings of its calls in the order in which it
makes them, what a lookup in the database finds, and, should it register a
key, the nonce drawn for it and how the database executes the statement. -/
structure Moment where
  limited : Bool
  now : Nat → Nat
  reading : Nat → Reading
  found : Except StorageError (Option String)
  statement : Except String Unit
  nonce : List UInt8
  nonce_length : nonce.length = 12

structure Service where
  shared : ServerState
  worker : StorageWorker

inductive Answer where
  | nothing
  | text (reply : String)
  | batch (lines : List String)
  deriving DecidableEq, Repr

def Answer.render : Answer → Option String
  | .nothing => none
  | .text reply => some reply
  | .batch lines => some (String.join (lines.intersperse "\n") ++ "\n")

def publishReply (messageId : String) : Except String Unit → String
  | .ok () => "ACK " ++ messageId ++ "\n"
  | .error error => "Error: " ++ error ++ "\n"

def batchLine (message : EncryptedInputData) : Except String Unit → String
  | .ok () => "ACK " ++ message.messageId
  | .error error =>
      "Error: " ++ error ++ " for message " ++ message.messageId

def resendReply (clientId : String) :
    Except StorageError (Option String) → String
  | .ok (some targetClientId) =>
      if targetClientId = clientId then "Resend requested\n"
      else "Unauthorized resend request\n"
  | .ok none => "Message ID not found\n"
  | .error _ => "Error retrieving message metadata\n"

/-- The calls of a batch from the one numbered `count` on, with the lines of
the reply. -/
def publishRest (client : Client) (moment : Moment)
    (exchangeName routingKey : String) :
    Nat → ServerState → List EncryptedInputData → ServerState × List String
  | _, state, [] => (state, [])
  | count, state, message :: messages =>
      let ran := (Invocation.publish (client.publishRequest exchangeName
        routingKey message (moment.now count))).run (moment.reading count)
          state
      let rest := publishRest client moment exchangeName routingKey
        (count + 1) ran.1 messages
      (rest.1, batchLine message ran.2 :: rest.2)

namespace Service

def savePublicKey (cipher : KeyCipher) (clientId : String) (moment : Moment)
    (worker : StorageWorker) (publicKey : String) :
    StorageWorker × Except StorageError Unit :=
  (worker.savePublicKey cipher ⟨clientId, publicKey⟩ moment.nonce
    moment.statement).getD (worker, .error .channelReceive)

def ask (cipher : KeyCipher) (clientId : String) (moment : Moment)
    (service : Service) : Query → Service × String
  | .resend messageId =>
      let asked := service.shared.storage.getClientIdForMessage messageId
        moment.found
      ({ service with shared.storage := asked.1 },
        resendReply clientId asked.2)
  | .registerPublicKey publicKey =>
      let saved := savePublicKey cipher clientId moment service.worker
        publicKey
      let asked := service.shared.storage.savePublicKey
        ⟨clientId, publicKey⟩ saved.2
      (⟨{ service.shared with storage := asked.1 }, saved.1⟩,
        registerReply asked.2)
  | .getPublicKey other =>
      let asked := service.shared.storage.getPublicKey other moment.found
      ({ service with shared.storage := asked.1 }, publicKeyReply asked.2)

def carryOut (cipher : KeyCipher) (client : Client) (moment : Moment)
    (service : Service) : Action → Service × Answer
  | .refuse text => (service, .text text)
  | .write text => (service, .text text)
  | .demand text => (service, .text text)
  | .heartbeat text => (service, .text text)
  | .call invocation next =>
      let ran := invocation.run (moment.reading 0) service.shared
      let after : Service := { service with shared := ran.1 }
      match next with
      | .reply text => (after, .text text)
      | .proceed => (after, .nothing)
      | .confirmAck messageId =>
          (after, .text ("ACK confirmed " ++ messageId ++ "\n"))
      | .confirmPublish messageId =>
          (after, .text (publishReply messageId ran.2))
      | .confirmBatch batch =>
          let rest := publishRest client moment batch.exchangeName
            batch.routingKey 1 ran.1 batch.remaining
          ({ service with shared := rest.1 },
            .batch (batch.acks ++ batchLine batch.current ran.2 :: rest.2))
  | .query query =>
      let asked := service.ask cipher client.clientId moment query
      (asked.1, .text asked.2)

def serve (cipher : KeyCipher) (codec : Codec) (client : Client)
    (moment : Moment) (service : Service) (request : List Char) :
    Service × Answer :=
  service.carryOut cipher client moment
    (client.handleRequest codec moment.limited (moment.now 0) request)

end Service

/-! ## The steps of the server -/

namespace Server

variable (config : ServerConfig) {index first : Nat}

/-- Only the handler at `index` takes steps, and the calls made from the one
numbered `first` on. -/
def Undisturbed (index first : Nat) (_ : Server) : Event → Prop
  | .handler other _ => other = index
  | .advance call _ => first ≤ call
  | _ => False

/-- The handler waits again, and its client has been written the answer. -/
structure Answered (final : Server) (index : Nat) (written : List Line)
    (shared : ServerState) (answer : Answer) : Prop where
  shared : final.broker.shared = shared
  session : ∃ next, final.sessions[index]? = some next ∧
    next.activity = .waiting ∧
    next.written = written ++ answer.render.toList.map .reply

/-- What the handler learns for its call numbered `count`, if all writes
succeed. -/
def outcomeOf (moment : Moment) (count : Nat)
    (saved : Except StorageError Unit) : Outcome where
  written := true
  flushed := true
  now := moment.now count
  time := (moment.reading count).time
  limited := moment.limited
  saved := saved
  found := moment.found

theorem undisturbed_advance {server : Server} {call : Nat}
    {reading : Reading} {broker : Broker} (late : first ≤ call)
    (alone : Broker.Alone call reading server.broker broker) :
    ReachableWhile (step config) (Undisturbed index first) server
      { server with broker := broker } := by
  induction alone with
  | start => exact .start
  | next event reached isAdvance stepTo ih =>
      subst isAdvance
      refine .next (.advance call reading) ih late ?_
      simp [step, stepTo]

/-- A handler makes a call, the call runs to completion and returns to the
handler. -/
theorem undisturbed_call (server : Server) (session : Session)
    (inRange : index < server.sessions.length)
    (late : first ≤ server.broker.calls.length)
    (outcome resumed : Outcome) (reading : Reading)
    (invocation : Invocation) (next : Continuation) :
    ∃ (called : Server) (calling : Session),
      called.broker.shared =
          (invocation.run reading server.broker.shared).1 ∧
        called.sessions.length = server.sessions.length ∧
        first ≤ called.broker.calls.length ∧
        calling.written = session.written ∧
        calling.client index = session.client index ∧
        ReachableWhile (step config) (Undisturbed index first)
          (server.perform index session outcome (.call invocation next))
          (called.proceed index calling resumed
            (invocation.run reading server.broker.shared).2 next) := by
  have lastCall : server.broker.calls.length <
      (server.broker.calls ++ [invocation.start]).length := by
    simp
  obtain ⟨returned, ran, result⟩ := Broker.alone_run reading lastCall
    invocation server.broker.shared
  simp only [List.set_append_right _ _ (le_refl _), Nat.sub_self,
    List.set_cons_zero] at ran
  let calling : Session :=
    { session with activity := .calling server.broker.calls.length next }
  let called : Server :=
    { server with
      broker :=
        ⟨(invocation.run reading server.broker.shared).1,
          server.broker.calls ++ [returned]⟩
      sessions := server.sessions.set index calling }
  have advanced : ReachableWhile (step config) (Undisturbed index first)
      (server.perform index session outcome (.call invocation next))
      called :=
    undisturbed_advance config late ran
  have resumes : called.step config (.handler index (.resume resumed)) =
      some (called.proceed index calling resumed
        (invocation.run reading server.broker.shared).2 next) := by
    simp [step, handle, called, calling, inRange, result]
  refine ⟨called, calling, rfl, List.length_set, ?_, rfl, rfl,
    .next (.handler index (.resume resumed)) advanced rfl resumes⟩
  have longer : called.broker.calls.length =
      server.broker.calls.length + 1 :=
    List.length_append
  omega

theorem answered_reply (server : Server) (session : Session)
    (inRange : index < server.sessions.length) {outcome : Outcome}
    (written : outcome.written = true) {answer : Answer} {text : String}
    (renders : answer.render = some text) :
    Answered (server.reply index session outcome text) index session.written
      server.broker.shared answer := by
  refine ⟨rfl, _, List.getElem?_set_self inRange, rfl, ?_⟩
  simp [Session.write, written, renders]

theorem proceed_confirmBatch (index : Nat) (server : Server)
    (session : Session) (outcome : Outcome) (result : Except String Unit) (batch : Batch) :
    ∃ going : Server,
      going.broker = server.broker ∧ going.sessions = server.sessions ∧
      server.proceed index session outcome result (.confirmBatch batch) =
        going.perform index session outcome
          ((session.client index).nextOfBatch batch.exchangeName
            batch.routingKey
            (batch.acks ++ [batchLine batch.current result]) outcome.now
            batch.remaining) := by
  cases result with
  | ok value => exact ⟨server.countPublished, rfl, rfl, rfl⟩
  | error error => exact ⟨server, rfl, rfl, rfl⟩

theorem undisturbed_batch (moment : Moment)
    (saved : Except StorageError Unit) (exchangeName routingKey : String)
    (messages : List EncryptedInputData) (server : Server)
    (session : Session) (inRange : index < server.sessions.length)
    (late : first ≤ server.broker.calls.length) (acks : List String)
    (count : Nat) :
    ∃ final,
      ReachableWhile (step config) (Undisturbed index first)
        (server.perform index session (outcomeOf moment count saved)
          ((session.client index).nextOfBatch exchangeName routingKey acks
            (moment.now count) messages)) final ∧
      Answered final index session.written
        (publishRest (session.client index) moment exchangeName routingKey
          count server.broker.shared messages).1
        (.batch (acks ++ (publishRest (session.client index) moment
          exchangeName routingKey count server.broker.shared
            messages).2)) := by
  induction messages generalizing server session acks count with
  | nil =>
      refine ⟨_, .start, ?_⟩
      apply answered_reply server session inRange rfl
      simp [Answer.render, publishRest]
  | cons message messages ih =>
      obtain ⟨called, calling, shared, length, later, written, sameClient,
        ran⟩ := undisturbed_call config server session inRange late
          (outcomeOf moment count saved)
          (outcomeOf moment (count + 1) saved) (moment.reading count)
          (.publish ((session.client index).publishRequest exchangeName
            routingKey message (moment.now count)))
          (.confirmBatch ⟨exchangeName, routingKey, message, messages, acks⟩)
      obtain ⟨going, sameBroker, sameSessions, proceeds⟩ :=
        proceed_confirmBatch index called calling
          (outcomeOf moment (count + 1) saved) _ _
      rw [proceeds] at ran
      obtain ⟨final, reached, answered⟩ := ih going calling
        (by rwa [sameSessions, length]) (by rwa [sameBroker]) _ (count + 1)
      refine ⟨final, ran.trans reached, ?_⟩
      rw [sameBroker, shared, sameClient, written] at answered
      simpa [publishRest] using answered

theorem undisturbed_carryOut (cipher : KeyCipher) (worker : StorageWorker)
    (moment : Moment) (saved : Except StorageError Unit) (server : Server)
    (session : Session) (inRange : index < server.sessions.length)
    (late : first ≤ server.broker.calls.length) (action : Action) :
    ∃ final,
      ReachableWhile (step config) (Undisturbed index first)
        (server.perform index session (outcomeOf moment 0 saved) action)
        final ∧
      Answered final index session.written
        (Service.carryOut cipher (session.client index) moment
          ⟨server.broker.shared, worker⟩ action).1.shared
        (Service.carryOut cipher (session.client index) moment
          ⟨server.broker.shared, worker⟩ action).2 := by
  cases action with
  | refuse text =>
      exact ⟨_, .start,
        { answered_reply server session inRange rfl rfl with }⟩
  | write text =>
      exact ⟨_, .start, answered_reply server session inRange rfl rfl⟩
  | demand text =>
      exact ⟨_, .start, answered_reply server session inRange rfl rfl⟩
  | heartbeat text =>
      exact ⟨_, .start,
        { answered_reply server session inRange rfl rfl with }⟩
  | call invocation next =>
      obtain ⟨called, calling, shared, length, later, written, sameClient,
        ran⟩ := undisturbed_call config server session inRange late
          (outcomeOf moment 0 saved) (outcomeOf moment 1 saved)
          (moment.reading 0) invocation next
      rw [← length] at inRange
      dsimp only [Service.carryOut]
      generalize invocation.run (moment.reading 0) server.broker.shared =
        completed at shared ran ⊢
      rw [← shared, ← written]
      cases next with
      | reply text =>
          exact ⟨_, ran, answered_reply called calling inRange rfl rfl⟩
      | proceed =>
          refine ⟨_, ran, rfl, _, List.getElem?_set_self inRange, rfl, ?_⟩
          exact (List.append_nil _).symm
      | confirmAck messageId =>
          exact ⟨_, ran, rfl, _, List.getElem?_set_self inRange, rfl, rfl⟩
      | confirmPublish messageId =>
          refine ⟨_, ran, ?_⟩
          obtain ⟨after, result⟩ := completed
          cases result with
          | ok value =>
              exact { answered_reply called calling inRange rfl rfl with }
          | error error =>
              exact answered_reply called calling inRange rfl rfl
      | confirmBatch batch =>
          obtain ⟨going, sameBroker, sameSessions, proceeds⟩ :=
            proceed_confirmBatch index called calling
              (outcomeOf moment 1 saved) completed.2 batch
          rw [proceeds] at ran
          rw [← sameSessions] at inRange
          rw [← sameBroker] at later
          obtain ⟨final, reached, answered⟩ := undisturbed_batch config
            moment saved batch.exchangeName batch.routingKey batch.remaining
            going calling inRange later _ 1
          refine ⟨final, ran.trans reached, ?_⟩
          rw [sameBroker, sameClient] at answered
          simpa using answered
  | query query =>
      let asking : Session := { session with activity := .querying query }
      have found : (server.setSession index asking).sessions[index]? =
          some asking :=
        List.getElem?_set_self inRange
      have stillInRange : index <
          (server.setSession index asking).sessions.length := by
        rw [setSession, List.length_set]
        exact inRange
      have resumes : ∀ outcome,
          (server.setSession index asking).step config
              (.handler index (.resume outcome)) =
            some ((server.setSession index asking).answer index asking
              outcome query) := by
        intro outcome
        simp only [step, found]
        rfl
      have answers : ∀ outcome, ReachableWhile (step config)
          (Undisturbed index first) (server.setSession index asking)
          ((server.setSession index asking).answer index asking outcome
            query) :=
        fun outcome => .single (.handler index (.resume outcome)) rfl
          (resumes outcome)
      cases query with
      | resend messageId =>
          refine ⟨_, answers (outcomeOf moment 0 saved), ?_⟩
          exact answered_reply ((server.setSession index asking).updateShared
            { server.broker.shared with
              storage := (server.broker.shared.storage.getClientIdForMessage
                messageId moment.found).1 }) asking stillInRange rfl rfl
      | registerPublicKey publicKey =>
          let saved := (Service.savePublicKey cipher session.clientId moment
            worker publicKey).2
          refine ⟨_, answers (outcomeOf moment 0 saved), ?_⟩
          exact answered_reply ((server.setSession index asking).updateShared
            { server.broker.shared with
              storage := (server.broker.shared.storage.savePublicKey
                ⟨session.clientId, publicKey⟩ saved).1 }) asking stillInRange
            rfl rfl
      | getPublicKey clientId =>
          refine ⟨_, answers (outcomeOf moment 0 saved), ?_⟩
          exact answered_reply ((server.setSession index asking).updateShared
            { server.broker.shared with
              storage := (server.broker.shared.storage.getPublicKey clientId
                moment.found).1 }) asking stillInRange rfl rfl

/-- Left undisturbed, a handler that waits serves the bytes it reads as one
request. -/
theorem undisturbed_serve (cipher : KeyCipher) (worker : StorageWorker)
    (moment : Moment) {server : Server} {session : Session}
    (found : server.sessions[index]? = some session)
    (isWaiting : session.activity = .waiting) (byte : UInt8)
    (bytes : List UInt8) :
    ∃ final,
      ReachableWhile (step config)
        (Undisturbed index server.broker.calls.length) server final ∧
      Answered final index session.written
        (Service.serve cipher config.codec (session.client index) moment
          ⟨server.broker.shared, worker⟩
          (requestOf (session.intake.buffer ++ byte :: bytes))).1.shared
        (Service.serve cipher config.codec (session.client index) moment
          ⟨server.broker.shared, worker⟩
          (requestOf (session.intake.buffer ++ byte :: bytes))).2 := by
  have inRange : index < server.sessions.length :=
    (List.getElem?_eq_some_iff.mp found).1
  let action := (session.client index).handleRequest config.codec
    moment.limited (moment.now 0)
    (requestOf (session.intake.buffer ++ byte :: bytes))
  obtain ⟨final, reached, answered⟩ := undisturbed_carryOut config cipher
    worker moment (.ok ())
    (server.recordHeartbeat session.clientId (moment.now 0))
    { session with intake := session.intake.receive (byte :: bytes) }
    inRange (le_refl _) action
  have reads : server.step config (.handler index
      (.read (some (byte :: bytes)) (outcomeOf moment 0 (.ok ())))) =
      some ((server.recordHeartbeat session.clientId (moment.now 0)).perform
        index
        { session with intake := session.intake.receive (byte :: bytes) }
        (outcomeOf moment 0 (.ok ())) action) := by
    simp only [step, found, Option.bind_some, handle, isWaiting]
    rfl
  have begins : ReachableWhile (step config)
      (Undisturbed index server.broker.calls.length) server _ :=
    .single (.handler index _) rfl reads
  exact ⟨final, begins.trans reached, answered⟩

end Server

end CipherMQ
