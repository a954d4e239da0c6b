import CipherMQ.LastEntries
import CipherMQ.PublishEffect
import CipherMQ.QueueLogs
import CipherMQ.ReceiverIsolation
import CipherMQ.RequestService
import CipherMQ.ServerEffects
import CipherMQ.TopologyIntegrity

/-!
# Truthful replies

The handler reports success in the words of the command, while the broker and
the storage worker decide whether there was any.  `ServerState::bind_queue`
declines without telling: the client of a bind is told that the queue is bound
even if the queue or the exchange does not exist.  And a batch is answered
when its last message has been published, which may have pushed earlier ones
out of a full queue.  Every other report of success is truthful when it is
made.
-/

namespace CipherMQ

open ServerState LastEntries

/-! ## What handlers say -/

inductive Report where
  | queueDeclared
  | exchangeDeclared
  | queueBound
  | acked (messageId : String)
  | keyRegistered
  deriving DecidableEq, Repr

namespace Report

def text : Report → String
  | .queueDeclared => "Queue declared\n"
  | .exchangeDeclared => "Exchange declared\n"
  | .queueBound => "Queue bound\n"
  | .acked messageId => "ACK " ++ messageId ++ "\n"
  | .keyRegistered => "Public key registered\n"

def begins (text : String) : Bool :=
  ["ACK ", queueDeclared.text, exchangeDeclared.text, queueBound.text,
    keyRegistered.text].any fun start =>
      start.toList.isPrefixOf text.toList

theorem begins_text (report : Report) : begins report.text = true := by
  cases report with
  | acked messageId =>
      simp only [begins, text, String.toList_append]
      rfl
  | queueDeclared | exchangeDeclared | queueBound | keyRegistered => rfl

theorem head?_acked (messageId : String) :
    (acked messageId).text.toList.head? = some 'A' := by
  simp only [text, String.toList_append]
  rfl

theorem acked_ne {messageId text : String}
    (differs : text.toList.head? ≠ some 'A') :
    (acked messageId).text ≠ text := by
  rintro rfl
  exact differs (head?_acked messageId)

theorem text_injective : Function.Injective text := by
  intro first second same
  cases first with
  | acked messageId =>
      cases second with
      | acked other => simpa [text] using same
      | queueDeclared | exchangeDeclared | queueBound | keyRegistered =>
          exact absurd same (acked_ne (by decide))
  | queueDeclared | exchangeDeclared | queueBound | keyRegistered =>
      cases second with
      | acked other => exact absurd same.symm (acked_ne (by decide))
      | queueDeclared | exchangeDeclared | queueBound | keyRegistered =>
          first
          | rfl
          | exact absurd same (by decide)

end Report

inductive Dispatched (client : Client) (now : Nat) : Action → Prop
  | refuse (text : String) (silent : Report.begins text = false) :
      Dispatched client now (.refuse text)
  | write (text : String) (silent : Report.begins text = false) :
      Dispatched client now (.write text)
  | demand (text : String) (silent : Report.begins text = false) :
      Dispatched client now (.demand text)
  | heartbeat (text : String) (silent : Report.begins text = false) :
      Dispatched client now (.heartbeat text)
  | declareQueue (queueName : String) :
      Dispatched client now
        (.call (.declareQueue queueName) (.reply "Queue declared\n"))
  | declareExchange (exchangeName : String) :
      Dispatched client now
        (.call (.declareExchange exchangeName) (.reply "Exchange declared\n"))
  | bindQueue (queueName exchangeName routingKey : String) :
      Dispatched client now
        (.call (.bindQueue queueName exchangeName routingKey)
          (.reply "Queue bound\n"))
  | publish (exchangeName routingKey : String)
      (message : EncryptedInputData) :
      Dispatched client now
        (.call
          (.publish (client.publishRequest exchangeName routingKey message
            now))
          (.confirmPublish message.messageId))
  | publishBatch (exchangeName routingKey : String)
      (message : EncryptedInputData) (remaining : List EncryptedInputData) :
      Dispatched client now
        (.call
          (.publish (client.publishRequest exchangeName routingKey message
            now))
          (.confirmBatch ⟨exchangeName, routingKey, message, remaining, []⟩))
  | consume (queueName : String) :
      Dispatched client now
        (.call (.registerConsumer queueName client.sender) .proceed)
  | ack (messageId : String) :
      Dispatched client now
        (.call (.acknowledge messageId) (.confirmAck messageId))
  | query (query : Query) : Dispatched client now (.query query)

namespace Client

variable {client : Client} {now : Nat}

theorem dispatched_guardQueue (queueName : String) {action : Action}
    (dispatched : Dispatched client now action) :
    Dispatched client now (client.guardQueue queueName action) := by
  unfold guardQueue
  split
  · apply Dispatched.write
    simp only [Report.begins, String.toList_append]
    rfl
  · exact dispatched

theorem dispatched_nextOfBatch (exchangeName routingKey : String)
    (messages : List EncryptedInputData) :
    Dispatched client now
      (client.nextOfBatch exchangeName routingKey [] now messages) := by
  cases messages with
  | nil => exact .write _ rfl
  | cons message remaining =>
      exact .publishBatch exchangeName routingKey message remaining

/-- The branch of a command does what its name says, or writes that something
is wrong. -/
theorem dispatched_runCommand (codec : Codec) (command : String)
    (args : List Char) :
    Dispatched client now (client.runCommand codec now command args) := by
  unfold runCommand
  dsimp only
  split
  · split
    · exact dispatched_guardQueue _ (.declareQueue _)
    · exact .write _ rfl
  · split
    · exact .declareExchange _
    · exact .write _ rfl
  · split
    · exact dispatched_guardQueue _ (.bindQueue _ _ _)
    · exact .write _ rfl
  · split
    · split
      · exact .publish _ _ _
      · apply Dispatched.write
        simp only [Report.begins, String.toList_append]
        rfl
    · exact .write _ rfl
  · split
    · split
      · exact dispatched_nextOfBatch _ _ _
      · apply Dispatched.write
        simp only [Report.begins, String.toList_append]
        rfl
    · exact .write _ rfl
  · split
    · exact .consume _
    · exact .write _ rfl
  · split
    · exact .ack _
    · exact .demand _ rfl
  · split
    · exact .query _
    · exact .write _ rfl
  · split
    · exact .query _
    · exact .write _ rfl
  · split
    · exact .query _
    · exact .write _ rfl
  · exact .heartbeat _ rfl
  · exact .write _ rfl

theorem dispatched_handleRequest (codec : Codec) (limited : Bool)
    (request : List Char) :
    Dispatched client now
      (client.handleRequest codec limited now request) := by
  unfold handleRequest
  dsimp only
  split
  · apply Dispatched.refuse
    simp only [Report.begins, String.toList_append]
    rfl
  · split
    · exact .refuse _ rfl
    · exact dispatched_runCommand codec _ _

end Client

/-! ## What a batch leaves in the queues -/

namespace ServerState

def Holds (state : ServerState) (queueName : String)
    (message : EncryptedInputData) : Prop :=
  ∃ queue, state.queues queueName = some queue ∧
    (message.messageId, message) ∈ queue

/-- The messages have been accepted since, one after the other: every bound
queue holds the last of what it held and of them. -/
structure Accepted (before : ServerState) (exchangeName routingKey : String)
    (after : ServerState) (messages : List EncryptedInputData) : Prop where
  topology : after.Topology
  same_bindings : after.bindings = before.bindings
  same_limit : after.maxQueueSize = before.maxQueueSize
  queues : ∀ queueName,
    before.Bound exchangeName routingKey queueName →
      ∃ queue, after.queues queueName = some
        ((queue ++ messages.map fun message =>
          (message.messageId, message)).rtake (max 1 before.maxQueueSize))
  bound : messages ≠ [] →
    ∃ queueName, before.Bound exchangeName routingKey queueName

namespace Accepted

variable {before state : ServerState} {exchangeName routingKey : String}
  {messages : List EncryptedInputData}

theorem refl (exchangeName routingKey : String) (topology : before.Topology)
    (short : ∀ queueName queue, before.queues queueName = some queue →
      queue.length ≤ max 1 before.maxQueueSize) :
    Accepted before exchangeName routingKey before [] := by
  refine ⟨topology, rfl, rfl, ?_, fun nonempty => absurd rfl nonempty⟩
  intro queueName bound
  have exist := topology.bound_exists _ _ _ bound
  obtain ⟨queue, found⟩ := Option.isSome_iff_exists.mp exist
  refine ⟨queue, ?_⟩
  rw [List.map_nil, List.append_nil,
    rtake_of_length_le (short queueName queue found), found]

theorem bound_iff (accepted : Accepted before exchangeName routingKey state
    messages) (queueName : String) :
    state.Bound exchangeName routingKey queueName ↔
      before.Bound exchangeName routingKey queueName := by
  unfold Bound
  rw [accepted.same_bindings]

theorem failed (accepted : Accepted before exchangeName routingKey state
    messages) (request : PublishRequest) {reading : Reading}
    {error : String}
    (fails : ((Invocation.publish request).run reading state).2 =
      .error error) :
    Accepted before exchangeName routingKey
      ((Invocation.publish request).run reading state).1 messages := by
  simp only [Invocation.run] at fails ⊢
  rcases accepted.topology.publish_cases request.exchangeName
      request.routingKey request.message request.clientId
      request.receivedTime reading.time reading.reply with
    ⟨_, storage, result, -⟩ | ⟨_, _, _, result, -⟩
  · rw [result]
    exact ⟨accepted.topology.of_queues_kept rfl fun _ present => present,
      accepted.same_bindings, accepted.same_limit, accepted.queues,
      accepted.bound⟩
  · rw [result] at fails
    cases fails

theorem published (accepted : Accepted before exchangeName routingKey state
    messages) (request : PublishRequest) {reading : Reading}
    (toExchange : request.exchangeName = exchangeName)
    (withKey : request.routingKey = routingKey)
    (succeeds : ((Invocation.publish request).run reading state).2 =
      .ok ()) :
    Accepted before exchangeName routingKey
      ((Invocation.publish request).run reading state).1
      (messages ++ [request.message]) := by
  subst toExchange withKey
  simp only [Invocation.run] at succeeds ⊢
  have effect := accepted.topology.publishEffect succeeds
  have topology := accepted.topology.publish request.exchangeName
    request.routingKey request.message request.clientId request.receivedTime
    reading.time reading.reply
  rcases accepted.topology.publish_cases request.exchangeName
      request.routingKey request.message request.clientId
      request.receivedTime reading.time reading.reply with
    ⟨_, _, result, -⟩ |
    ⟨_, _, _, result, -, -, -, -, -, -, queueName, bound⟩
  · rw [result] at succeeds
    cases succeeds
  · rw [result] at effect topology ⊢
    refine ⟨topology, accepted.same_bindings, accepted.same_limit, ?_,
      fun _ => ⟨queueName, (accepted.bound_iff queueName).mp bound⟩⟩
    intro queueName bound
    obtain ⟨older, held⟩ := accepted.queues queueName bound
    obtain ⟨queue, found, pushed⟩ :=
      effect.bound_queues queueName ((accepted.bound_iff queueName).mpr bound)
    rw [held, Option.some.injEq] at found
    subst found
    refine ⟨older, ?_⟩
    rw [pushed, accepted.same_limit, push_rtake, List.map_append,
      ← List.append_assoc]
    rfl

/-- Every bound queue holds all the messages exactly if they are among the
last ones a queue can hold. -/
theorem holds_iff (accepted : Accepted before exchangeName routingKey state
    messages) :
    (∀ message ∈ messages, ∀ queueName,
        state.Bound exchangeName routingKey queueName →
          state.Holds queueName message) ↔
      ∀ message ∈ messages,
        message ∈ messages.rtake (max 1 before.maxQueueSize) := by
  have held : ∀ message ∈ messages, ∀ queueName,
      before.Bound exchangeName routingKey queueName →
        (state.Holds queueName message ↔
          message ∈ messages.rtake (max 1 before.maxQueueSize)) := by
    intro message member queueName bound
    obtain ⟨queue, found⟩ := accepted.queues queueName bound
    have isEntry : ∀ entries : List EncryptedInputData,
        (message.messageId, message) ∈
          entries.map (fun message => (message.messageId, message)) ↔
        message ∈ entries :=
      fun _ => List.mem_map_of_injective fun _ _ same => congrArg Prod.snd same
    have sameEnd : (messages.map fun message =>
          (message.messageId, message)).rtake (max 1 before.maxQueueSize) =
        (messages.rtake (max 1 before.maxQueueSize)).map fun message =>
          (message.messageId, message) := by
      simp [List.rtake]
    unfold Holds
    simp only [found, Option.some.injEq, exists_eq_left']
    rw [mem_rtake_append_iff queue ((isEntry messages).mpr member), sameEnd,
      isEntry]
  constructor
  · intro holds message member
    obtain ⟨queueName, bound⟩ :=
      accepted.bound (List.ne_nil_of_mem member)
    exact (held message member queueName bound).mp
      (holds message member queueName ((accepted.bound_iff queueName).mpr bound))
  · intro recent message member queueName bound
    exact (held message member queueName ((accepted.bound_iff queueName).mp bound)).mpr
      (recent message member)

end Accepted

end ServerState

def acknowledged :
    List EncryptedInputData → List String → List EncryptedInputData
  | message :: messages, line :: lines =>
      if line = "ACK " ++ message.messageId then
        message :: acknowledged messages lines
      else
        acknowledged messages lines
  | _, _ => []

theorem acknowledged_ok (message : EncryptedInputData)
    (messages : List EncryptedInputData) (lines : List String) :
    acknowledged (message :: messages)
        (batchLine message (.ok ()) :: lines) =
      message :: acknowledged messages lines :=
  if_pos rfl

theorem acknowledged_error (message : EncryptedInputData)
    (messages : List EncryptedInputData) (error : String)
    (lines : List String) :
    acknowledged (message :: messages)
        (batchLine message (.error error) :: lines) =
      acknowledged messages lines := by
  apply if_neg
  intro same
  have begins := congrArg (fun line => line.toList.head?) same
  simp only [batchLine, String.toList_append] at begins
  have letters : some 'E' = some 'A' := begins
  cases letters

/-- The messages that the rest of a batch acknowledges have been accepted. -/
theorem accepted_publishRest (client : Client) (moment : Moment)
    {before state : ServerState} {exchangeName routingKey : String}
    (messages : List EncryptedInputData) {earlier : List EncryptedInputData}
    (accepted : Accepted before exchangeName routingKey state earlier)
    (count : Nat) :
    Accepted before exchangeName routingKey
      (publishRest client moment exchangeName routingKey count state
        messages).1
      (earlier ++ acknowledged messages
        (publishRest client moment exchangeName routingKey count state
          messages).2) := by
  induction messages generalizing state earlier count with
  | nil => simpa [publishRest, acknowledged] using accepted
  | cons message messages ih =>
      simp only [publishRest]
      cases result : ((Invocation.publish (client.publishRequest exchangeName
          routingKey message (moment.now count))).run (moment.reading count)
            state).2 with
      | error error =>
          rw [acknowledged_error]
          exact ih (accepted.failed _ result) (count + 1)
      | ok value =>
          have rest := ih (accepted.published _ rfl rfl result) (count + 1)
          rw [List.append_assoc] at rest
          rw [acknowledged_ok]
          exact rest

/-! ## Which messages of a batch are accepted -/

/-- What a batch finds: the identifiers that have a status, and those in each
of the bound queues. -/
structure Room where
  taken : String → Bool
  queues : List (List String)

namespace Room

/-- A message is appended to every bound queue.  What a full queue drops for
it has no status any more. -/
def push (limit : Nat) (room : Room) (messageId : String) : Room where
  taken other := other = messageId ||
    (room.taken other && !room.queues.any fun queue =>
      limit ≤ queue.length && queue.head? = some other)
  queues := room.queues.map fun queue =>
    (if limit ≤ queue.length then queue.tail else queue) ++ [messageId]

/-- The messages that are accepted, one after the other: those without a status
whose rows are saved, if some queue is bound. -/
def accepted (limit : Nat) (saved : Nat → Bool) :
    Nat → Room → List EncryptedInputData → List EncryptedInputData
  | _, _, [] => []
  | count, room, message :: messages =>
      if !room.taken message.messageId && saved count &&
          !room.queues.isEmpty then
        message :: accepted limit saved (count + 1)
          (room.push limit message.messageId) messages
      else
        accepted limit saved (count + 1) room messages

end Room

namespace ServerState

def room (state : ServerState) (exchangeName routingKey : String) : Room where
  taken messageId := (state.messageStatus messageId).isSome
  queues := (state.targetQueues exchangeName routingKey).map fun queueName =>
    ((state.queues queueName).getD []).map Prod.fst

variable {state : ServerState} {exchangeName routingKey : String}

theorem accepts_iff_room (message : EncryptedInputData)
    (reply : Except StorageError Unit) :
    state.Accepts exchangeName routingKey message reply ↔
      (!(state.room exchangeName routingKey).taken message.messageId &&
        reply.isOk &&
        !(state.room exchangeName routingKey).queues.isEmpty) = true := by
  have isOk : reply.isOk = true ↔ reply = .ok () := by
    cases reply <;> simp [Except.isOk, Except.toBool]
  have routed : (state.room exchangeName routingKey).queues.isEmpty = false ↔
      ∃ queueName, state.Bound exchangeName routingKey queueName := by
    rw [← targetQueues_ne_nil_iff]
    simp [room]
  simp only [Accepts, Bool.and_eq_true, Bool.not_eq_true', isOk, routed,
    and_assoc]
  simp [room]

theorem evictedFrom_iff_room (queueName messageId : String) :
    state.evictedFrom queueName = some messageId ↔
      state.maxQueueSize ≤
          (((state.queues queueName).getD []).map Prod.fst).length ∧
        (((state.queues queueName).getD []).map Prod.fst).head? =
          some messageId := by
  unfold evictedFrom
  cases state.queues queueName with
  | none => simp
  | some queue => simp [popOldest_fst, List.head?_map]

/-- A publish that is accepted moves the room on. -/
theorem room_delivered (topology : state.Topology)
    (message : EncryptedInputData) (queueSet : List String)
    (receivedTime : Nat) {targets : List String}
    (isTarget : ∀ queueName, queueName ∈ targets ↔
      state.Bound exchangeName routingKey queueName) :
    (state.delivered message queueSet receivedTime targets).room exchangeName
        routingKey =
      (state.room exchangeName routingKey).push state.maxQueueSize
        message.messageId := by
  have targets_iff : ∀ queueName, queueName ∈ targets ↔
      queueName ∈ state.targetQueues exchangeName routingKey := by
    intro queueName
    rw [isTarget, mem_targetQueues]
  simp only [room, Room.push, Room.mk.injEq, List.map_map]
  constructor
  · funext other
    have evicts_iff : (∃ queueName ∈ targets,
        state.evictedFrom queueName = some other) ↔
          ((state.targetQueues exchangeName routingKey).map fun queueName =>
            ((state.queues queueName).getD []).map Prod.fst).any
              (fun queue => state.maxQueueSize ≤ queue.length &&
                queue.head? = some other) = true := by
      simp only [evictedFrom_iff_room, targets_iff, List.any_map,
        List.any_eq_true, Function.comp_apply, Bool.and_eq_true,
        decide_eq_true_eq]
    rw [delivered_messageStatus]
    by_cases same : other = message.messageId
    · simp [same]
    · by_cases evicts : ∃ queueName ∈ targets,
          state.evictedFrom queueName = some other
      · have isEvicted := evicts_iff.mp evicts
        rw [if_neg same, if_pos evicts, isEvicted]
        simp [same]
      · have notEvicted := Bool.eq_false_iff.mpr (mt evicts_iff.mpr evicts)
        rw [if_neg same, if_neg evicts, notEvicted]
        simp [same]
  · apply List.map_congr_left
    intro queueName member
    obtain ⟨queue, found⟩ := Option.isSome_iff_exists.mp
      (topology.targetQueues_exist exchangeName routingKey queueName member)
    simp only [delivered_queues, (targets_iff queueName).mpr member, if_true,
      Function.comp_apply, found, Option.map_some, Option.getD_some, appended,
      popOldest_snd, List.map_append, List.length_map]
    split
    · simp
    · simp

end ServerState

theorem acknowledged_publishRest (client : Client) (moment : Moment)
    (exchangeName routingKey : String) {state : ServerState}
    (topology : state.Topology) (count : Nat)
    (messages : List EncryptedInputData) :
    acknowledged messages
        (publishRest client moment exchangeName routingKey count state
          messages).2 =
      (state.room exchangeName routingKey).accepted state.maxQueueSize
        (fun count => (moment.reading count).reply.isOk) count messages := by
  induction messages generalizing state count with
  | nil => rfl
  | cons message messages ih =>
      simp only [publishRest, Invocation.run, Client.publishRequest]
      have next := topology.publish exchangeName routingKey message
        client.clientId (moment.now count) (moment.reading count).time
        (moment.reading count).reply
      rcases topology.publish_cases exchangeName routingKey message
          client.clientId (moment.now count) (moment.reading count).time
          (moment.reading count).reply with
        ⟨error, storage, result, refused⟩ |
        ⟨storage, queueSet, targets, result, -, -, isTarget, -, accepts⟩
      · rw [result] at next ⊢
        rw [accepts_iff_room] at refused
        rw [acknowledged_error, ih next, Room.accepted, if_neg refused]
        rfl
      · rw [result] at next ⊢
        rw [accepts_iff_room] at accepts
        have kept : ({ state with storage := storage } :
            ServerState).Topology :=
          topology.of_queues_kept rfl fun _ present => present
        rw [acknowledged_ok, ih next, Room.accepted, if_pos accepts,
          room_delivered kept message queueSet _ isTarget]
        rfl

/-! ## What a saved key leaves in its table -/

/-- A key that the worker reports to be saved can be read again. -/
theorem StorageWorker.stored_of_savePublicKey {cipher : KeyCipher}
    (lawful : cipher.Lawful) {worker after : StorageWorker}
    {keyData : PublicKeyData} {nonce : List UInt8}
    (nonceLength : nonce.length = 12) {statement : Except String Unit}
    (saved : worker.savePublicKey cipher keyData nonce statement =
      some (after, .ok ())) :
    ∃ row, after.publicKeys.lookup keyData.clientId = some row ∧
      decryptRow cipher row = some (.ok keyData.publicKey) := by
  cases statement with
  | error error =>
      unfold savePublicKey at saved
      split at saved
      · cases saved
      · split at saved
        · cases saved
        · obtain ⟨parts, -, failed⟩ := Option.map_eq_some_iff.mp saved
          cases failed
  | ok value =>
      rcases savePublicKey_cases lawful worker keyData nonceLength with
        ⟨error, failed⟩ | ⟨row, sameClient, decrypts, -, stored⟩
      · rw [failed] at saved
        cases saved
      · rw [stored] at saved
        cases saved
        refine ⟨row, ?_, decrypts⟩
        rw [lookup_storeRow, if_pos sameClient.symm]

/-! ## Replies and what they promise -/

/-- What a report promises about what the request asked for.  The reply to
an ack command reads like a report as well, and promises nothing here. -/
def Report.Kept (cipher : KeyCipher) (client : Client) (action : Action)
    (after : Service) : Report → Prop
  | .queueDeclared =>
      ∃ queueName next, action = .call (.declareQueue queueName) next ∧
        (after.shared.queues queueName).isSome
  | .exchangeDeclared =>
      ∃ exchangeName next,
        action = .call (.declareExchange exchangeName) next ∧
        (after.shared.exchanges exchangeName).isSome
  | .queueBound =>
      ∃ queueName exchangeName routingKey next,
        action = .call (.bindQueue queueName exchangeName routingKey) next ∧
        after.shared.Bound exchangeName routingKey queueName
  | .acked messageId =>
      (∃ other next, action = .call (.acknowledge other) next) ∨
      ∃ request next, action = .call (.publish request) next ∧
        request.message.messageId = messageId ∧
        ∀ queueName,
          after.shared.Bound request.exchangeName request.routingKey
            queueName →
          after.shared.Holds queueName request.message
  | .keyRegistered =>
      ∃ publicKey row, action = .query (.registerPublicKey publicKey) ∧
        after.worker.publicKeys.lookup client.clientId = some row ∧
        StorageWorker.decryptRow cipher row = some (.ok publicKey)

structure Truthful (cipher : KeyCipher) (client : Client) (action : Action)
    (after : Service) (answer : Answer) : Prop where
  report : ∀ report : Report, answer = .text report.text →
    report.Kept cipher client action after
  batch : ∀ lines, answer = .batch lines →
    ∃ request batch,
      action = .call (.publish request) (.confirmBatch batch) ∧
      ∀ message ∈ acknowledged (batch.current :: batch.remaining) lines,
        ∀ queueName,
          after.shared.Bound batch.exchangeName batch.routingKey queueName →
            after.shared.Holds queueName message

/-- What has to be so for a request to have the effect it is answered to
have: a bind finds its queue and its exchange, and the messages of a batch
that are accepted are among the last ones accepted that a queue can hold. -/
def TakesEffect (moment : Moment) (shared : ServerState) : Action → Prop
  | .call (.bindQueue queueName exchangeName _) _ =>
      (shared.queues queueName).isSome ∧
        (shared.exchanges exchangeName).isSome
  | .call (.publish _) (.confirmBatch batch) =>
      let accepted :=
        (shared.room batch.exchangeName batch.routingKey).accepted
          shared.maxQueueSize
          (fun count => (moment.reading count).reply.isOk) 0
          (batch.current :: batch.remaining)
      ∀ message ∈ accepted,
        message ∈ accepted.rtake (max 1 shared.maxQueueSize)
  | _ => True

section Truthful

variable {cipher : KeyCipher} {client : Client} {action : Action}
  {after : Service}

/-- A text that does not begin like a report promises nothing. -/
theorem truthful_of_silent {text : String}
    (silent : Report.begins text = false) :
    Truthful cipher client action after (.text text) := by
  refine ⟨?_, fun _ other => by cases other⟩
  intro report isReport
  cases isReport
  rw [report.begins_text] at silent
  cases silent

theorem truthful_report_iff (report : Report) :
    Truthful cipher client action after (.text report.text) ↔
      report.Kept cipher client action after := by
  constructor
  · intro truthful
    exact truthful.report report rfl
  · intro kept
    refine ⟨?_, fun _ other => by cases other⟩
    intro other same
    cases Report.text_injective (Answer.text.inj same)
    exact kept

end Truthful

namespace Service

variable {cipher : KeyCipher} {client : Client} {moment : Moment}
  {shared : ServerState} {worker : StorageWorker}

/-- The client of a publish is told `ACK` only if the message is in every
bound queue. -/
theorem truthful_publish (topology : shared.Topology)
    (request : PublishRequest) :
    Truthful cipher client
      (.call (.publish request) (.confirmPublish request.message.messageId))
      { shared := ((Invocation.publish request).run (moment.reading 0)
          shared).1, worker := worker }
      (.text (publishReply request.message.messageId
        ((Invocation.publish request).run (moment.reading 0) shared).2)) := by
  cases result : ((Invocation.publish request).run (moment.reading 0)
      shared).2 with
  | error error =>
      apply truthful_of_silent
      simp only [publishReply, Report.begins, String.toList_append]
      rfl
  | ok value =>
      apply (truthful_report_iff (.acked request.message.messageId)).mpr
      refine .inr ⟨request, _, rfl, rfl, ?_⟩
      have effect := topology.publishEffect result
      intro queueName bound
      have boundBefore : shared.Bound request.exchangeName
          request.routingKey queueName := by
        unfold Bound at bound ⊢
        rwa [← effect.same_bindings]
      obtain ⟨queue, -, pushed⟩ := effect.bound_queues queueName boundBefore
      exact ⟨_, pushed, List.mem_append_right _ (List.mem_singleton_self _)⟩

/-- The client of a batch is told the truth exactly if none of the messages
it is told `ACK` for has been pushed out. -/
theorem truthful_batch_iff (topology : shared.Topology)
    (short : ∀ queueName queue, shared.queues queueName = some queue →
      queue.length ≤ max 1 shared.maxQueueSize)
    (request : PublishRequest) (exchangeName routingKey : String)
    (message : EncryptedInputData) (remaining : List EncryptedInputData)
    {served : ServerState × List String}
    (isServed : publishRest client moment exchangeName routingKey 0 shared
      (message :: remaining) = served) :
    Truthful cipher client
        (.call (.publish request)
          (.confirmBatch ⟨exchangeName, routingKey, message, remaining, []⟩))
        ⟨served.1, worker⟩ (.batch served.2) ↔
      TakesEffect moment shared
        (.call (.publish request)
          (.confirmBatch ⟨exchangeName, routingKey, message, remaining,
            []⟩)) := by
  have accepted := accepted_publishRest client moment (message :: remaining)
    (Accepted.refl exchangeName routingKey topology short) 0
  have isAccepted := acknowledged_publishRest client moment exchangeName
    routingKey topology 0 (message :: remaining)
  rw [List.nil_append, isServed] at accepted
  rw [isServed] at isAccepted
  unfold TakesEffect
  dsimp only
  rw [← isAccepted]
  constructor
  · intro truthful
    obtain ⟨_, _, isAction, held⟩ := truthful.batch _ rfl
    cases isAction
    exact accepted.holds_iff.mp held
  · intro recent
    constructor
    · intro report isReport
      cases isReport
    · intro lines isBatch
      cases isBatch
      exact ⟨_, _, rfl, accepted.holds_iff.mpr recent⟩

/-- A bind reports truthfully exactly if it finds its queue and its exchange:
a binding that was there before has them too. -/
theorem truthful_bind_iff (integrity : shared.Integrity)
    (queueName exchangeName routingKey : String) :
    Truthful cipher client
        (.call (.bindQueue queueName exchangeName routingKey)
          (.reply "Queue bound\n"))
        ⟨shared.bindQueue queueName exchangeName routingKey, worker⟩
        (.text "Queue bound\n") ↔
      (shared.queues queueName).isSome ∧
        (shared.exchanges exchangeName).isSome := by
  have bound_iff := bound_bindQueue shared
    ⟨queueName, exchangeName, routingKey⟩ exchangeName routingKey queueName
  apply (truthful_report_iff .queueBound).trans
  constructor
  · rintro ⟨_, _, _, _, isAction, bound⟩
    cases isAction
    rcases bound_iff.mp bound with old | ⟨-, exist⟩
    · exact ⟨integrity.bound_exists _ _ _ old,
        integrity.bound_declared _ _ _ old⟩
    · exact exist
  · intro exist
    exact ⟨_, _, _, _, rfl, bound_iff.mpr (.inr ⟨rfl, exist⟩)⟩

theorem stored_of_savePublicKey (lawful : cipher.Lawful) (clientId : String)
    (moment : Moment) (worker : StorageWorker) (publicKey : String)
    (succeeds : (savePublicKey cipher clientId moment worker publicKey).2 =
      .ok ()) :
    ∃ row,
      (savePublicKey cipher clientId moment worker
        publicKey).1.publicKeys.lookup clientId = some row ∧
      StorageWorker.decryptRow cipher row = some (.ok publicKey) := by
  unfold savePublicKey at succeeds ⊢
  cases saved : worker.savePublicKey cipher ⟨clientId, publicKey⟩
      moment.nonce moment.statement with
  | none =>
      rw [saved] at succeeds
      cases succeeds
  | some result =>
      obtain ⟨after, outcome⟩ := result
      rw [saved] at succeeds
      cases succeeds
      exact StorageWorker.stored_of_savePublicKey lawful moment.nonce_length
        saved

theorem truthful_query (lawful : cipher.Lawful) (query : Query) :
    Truthful cipher client (.query query)
      (Service.ask cipher client.clientId moment ⟨shared, worker⟩ query).1
      (.text (Service.ask cipher client.clientId moment ⟨shared, worker⟩
        query).2) := by
  cases query with
  | resend messageId =>
      apply truthful_of_silent
      unfold Service.ask resendReply
      dsimp only
      split
      · split <;> rfl
      · rfl
      · rfl
  | getPublicKey other =>
      apply truthful_of_silent
      unfold Service.ask publicKeyReply
      dsimp only
      split
      · simp only [Report.begins, String.toList_append]
        rfl
      · rfl
      · simp only [Report.begins, String.toList_append]
        rfl
  | registerPublicKey publicKey =>
      have stored := stored_of_savePublicKey lawful client.clientId moment
        worker publicKey
      unfold Service.ask
      dsimp only
      generalize savePublicKey cipher client.clientId moment worker
        publicKey = saved at stored ⊢
      obtain ⟨⟨storage, reply⟩, asked⟩ : ∃ asked,
          shared.storage.savePublicKey ⟨client.clientId, publicKey⟩
            saved.2 = asked :=
        ⟨_, rfl⟩
      rw [asked]
      cases reply with
      | error error =>
          apply truthful_of_silent
          rw [registerReply_error]
          simp only [Report.begins, String.toList_append]
          rfl
      | ok value =>
          apply (truthful_report_iff .keyRegistered).mpr
          have replied : saved.2 = .ok () :=
            (shared.storage.request_ok_iff _ _ _ _).mp
              (congrArg Prod.snd asked)
          obtain ⟨row, found, decrypts⟩ := stored replied
          exact ⟨publicKey, row, rfl, found, decrypts⟩

/-- What is carried out is reported truthfully exactly if it takes effect. -/
theorem truthful_carryOut_iff (lawful : cipher.Lawful)
    (integrity : shared.Integrity)
    (short : ∀ queueName queue, shared.queues queueName = some queue →
      queue.length ≤ max 1 shared.maxQueueSize) {action : Action}
    (dispatched : Dispatched client (moment.now 0) action) :
    Truthful cipher client action
        (carryOut cipher client moment ⟨shared, worker⟩ action).1
        (carryOut cipher client moment ⟨shared, worker⟩ action).2 ↔
      TakesEffect moment shared action := by
  cases dispatched with
  | refuse text silent | write text silent | demand text silent
  | heartbeat text silent =>
      exact iff_of_true (truthful_of_silent silent) trivial
  | declareQueue queueName =>
      apply iff_of_true _ trivial
      apply (truthful_report_iff .queueDeclared).mpr
      refine ⟨queueName, _, rfl, ?_⟩
      simp [carryOut, Invocation.run, declareQueue]
  | declareExchange exchangeName =>
      apply iff_of_true _ trivial
      apply (truthful_report_iff .exchangeDeclared).mpr
      refine ⟨exchangeName, _, rfl, ?_⟩
      simp [carryOut, Invocation.run, declareExchange]
  | bindQueue queueName exchangeName routingKey =>
      exact truthful_bind_iff integrity queueName exchangeName routingKey
  | publish exchangeName routingKey message =>
      exact iff_of_true (truthful_publish integrity.toTopology _) trivial
  | publishBatch exchangeName routingKey message remaining =>
      exact truthful_batch_iff integrity.toTopology short _ exchangeName
        routingKey message remaining rfl
  | consume queueName =>
      apply iff_of_true _ trivial
      constructor
      · intro report isReport
        cases isReport
      · intro lines isBatch
        cases isBatch
  | ack messageId =>
      apply iff_of_true _ trivial
      apply (truthful_report_iff (.acked ("confirmed " ++ messageId))).mpr
      exact .inl ⟨messageId, _, rfl⟩
  | query query =>
      exact iff_of_true (truthful_query lawful query) trivial

end Service

/-! ## Every request of every client -/

namespace Server

variable {config : ServerConfig} {server : Server} {index : Nat}
  {session : Session}

/-- A handler that waits in any reachable server, and is left undisturbed,
answers the bytes it reads with the truth exactly if the request takes
effect. -/
theorem truthful_iff_takesEffect {cipher : KeyCipher}
    (lawful : cipher.Lawful)
    (reached : Reachable (step config) (new config) server)
    (found : server.sessions[index]? = some session)
    (isWaiting : session.activity = .waiting) (worker : StorageWorker)
    (moment : Moment) (byte : UInt8) (bytes : List UInt8) :
    ∃ final action,
      ReachableWhile (step config)
        (Undisturbed index server.broker.calls.length) server final ∧
      (session.client index).handleRequest config.codec moment.limited
        (moment.now 0)
        (requestOf (session.intake.buffer ++ byte :: bytes)) = action ∧
      ∃ after answer,
        Service.carryOut cipher (session.client index) moment
          ⟨server.broker.shared, worker⟩ action = (after, answer) ∧
        Answered final index session.written after.shared answer ∧
        (Truthful cipher (session.client index) action after answer ↔
          TakesEffect moment server.broker.shared action) := by
  have reachedBroker := reachable_broker reached
  obtain ⟨limit, short⟩ := TracedBroker.queue_length_le reachedBroker
  rw [← limit] at short
  have integrity := Broker.integrity_of_reachable reachedBroker
  obtain ⟨final, served, answered⟩ := undisturbed_serve config cipher worker
    moment found isWaiting byte bytes
  refine ⟨final, _, served, rfl, _, _, rfl, answered, ?_⟩
  exact Service.truthful_carryOut_iff lawful integrity short
    (Client.dispatched_handleRequest _ _ _)

/-! ## A binding that is made, and two reports that are not true -/

def calmMoment : Moment where
  limited := false
  now _ := 0
  reading _ := ⟨.ok (), 1, "t"⟩
  found := .ok none
  statement := .ok ()
  nonce := Sender.senderAsking.nonce
  nonce_length := Sender.senderAsking.nonce_length

/-- A server with room for one message in each queue, to which every batch
reads as the same two messages. -/
def narrowConfig : ServerConfig where
  acl := sampleConfig.acl
  limits := sampleConfig.limits
  maxQueueSize := 1
  codec := { sampleCodec with
    parseBatch _ := .ok [sampleMessage "m1", sampleMessage "m2"] }

/-- A sender connects, and a receiver, which sets up its queue. -/
def boundRun : List Event :=
  [.connect "sender_1" "10.0.0.3" .smooth,
    .connect "receiver_1" "10.0.0.1" .smooth] ++
  request 1 "declare_queue receiver_1_queue\n" 0 1 ++
  request 1 "declare_exchange e\n" 1 1 ++
  request 1 "bind receiver_1_queue e receiver_1_key\n" 2 3

def serveLine (config : ServerConfig) (client : Client) (line : String)
    (server : Server) : Service × Answer :=
  Service.serve Sender.sampleCipher config.codec client calmMoment
    ⟨server.broker.shared, .new .empty .empty⟩ (requestOf (Utf8.encode line))

/-- The client whose handler waits with an empty buffer. -/
def waitingClient (index : Nat) (server : Server) : Option Client :=
  (server.sessions[index]?).bind fun session =>
    if session.activity = .waiting ∧ session.intake.buffer = [] then
      some (session.client index)
    else none

theorem exists_of_waitingClient {client : Client}
    (waits : server.waitingClient index = some client) :
    ∃ session, server.sessions[index]? = some session ∧
      session.activity = .waiting ∧ session.intake.buffer = [] ∧
      session.client index = client := by
  obtain ⟨session, found, isClient⟩ := Option.bind_eq_some_iff.mp waits
  split at isClient
  · rename_i waiting
    exact ⟨session, found, waiting.1, waiting.2,
      Option.some.inj isClient⟩
  · cases isClient

theorem undisturbed_serveLine (config : ServerConfig) {client : Client}
    (waits : server.waitingClient index = some client) {line : String}
    {byte : UInt8} {bytes : List UInt8}
    (encodes : Utf8.encode line = byte :: bytes) :
    ∃ session final,
      server.sessions[index]? = some session ∧
      ReachableWhile (step config)
        (Undisturbed index server.broker.calls.length) server final ∧
      Answered final index session.written
        (serveLine config client line server).1.shared
        (serveLine config client line server).2 := by
  obtain ⟨session, found, isWaiting, isEmpty, rfl⟩ :=
    exists_of_waitingClient waits
  obtain ⟨final, served, answered⟩ := undisturbed_serve config Sender.sampleCipher
    (.new .empty .empty) calmMoment found isWaiting byte bytes
  rw [isEmpty, List.nil_append, ← encodes] at answered
  exact ⟨session, final, found, served, answered⟩

theorem truthful_iff_takesEffect_bound :
    ∃ server final,
      Reachable (step sampleConfig) (new sampleConfig) server ∧
      ReachableWhile (step sampleConfig)
        (Undisturbed 1 server.broker.calls.length) server final ∧
      final.broker.shared.Bound "e" "receiver_1_other"
        "receiver_1_queue" := by
  have ran : (executeWhile (step sampleConfig) (fun _ _ => True)
      (new sampleConfig) boundRun).map (fun server =>
        (server.waitingClient 1,
          (server.broker.shared.queues "receiver_1_queue").isSome,
          (server.broker.shared.exchanges "e").isSome)) =
      some (some ⟨"receiver_1", .receiver, 1⟩, true, true) := by
    decide +kernel
  obtain ⟨server, reached, isBound⟩ := exists_reachableWhile_of_map ran
  obtain ⟨waits, declared⟩ := Prod.mk.inj isBound
  obtain ⟨queueExists, exchangeExists⟩ := Prod.mk.inj declared
  obtain ⟨session, found, isWaiting, isEmpty, isClient⟩ :=
    exists_of_waitingClient waits
  have encodes : Utf8.encode "bind receiver_1_queue e receiver_1_other\n" =
      98 :: (Utf8.encode
        "bind receiver_1_queue e receiver_1_other\n").tail := by
    decide +kernel
  have asks : (⟨"receiver_1", .receiver, 1⟩ : Client).handleRequest
      sampleConfig.codec false 0 (requestOf (Utf8.encode
        "bind receiver_1_queue e receiver_1_other\n")) =
      .call (.bindQueue "receiver_1_queue" "e" "receiver_1_other")
        (.reply "Queue bound\n") := by
    decide +kernel
  obtain ⟨final, action, served, isAction, after, answer, carried, answered,
    truthful_iff⟩ := truthful_iff_takesEffect Sender.sampleCipher_lawful reached
      found isWaiting (.new .empty .empty) calmMoment 98
      (Utf8.encode "bind receiver_1_queue e receiver_1_other\n").tail
  rw [isEmpty, List.nil_append, isClient, ← encodes] at isAction
  cases isAction.symm.trans asks
  cases carried
  have truthful := truthful_iff.mpr ⟨queueExists, exchangeExists⟩
  obtain ⟨_, _, _, _, sameAction, bound⟩ := truthful.report .queueBound rfl
  cases sameAction
  refine ⟨server, final, reached, served, ?_⟩
  rw [answered.shared]
  exact bound

/-- What a batch of the first client is answered and leaves behind. -/
def batchServed (server : Server) :
    Option Client × Option String × Bool × Option (List String) :=
  let served := serveLine narrowConfig ⟨"sender_1", .sender, 0⟩
    "publish_batch e receiver_1_key []\n" server
  (server.waitingClient 0, served.2.render,
    served.1.shared.bindings "e" =
      some [("receiver_1_queue", "receiver_1_key")],
    (served.1.shared.queues "receiver_1_queue").map (List.map Prod.fst))

/-- A receiver that has declared nothing is told that its queue is bound.  A
sender is told that the first message of a batch is published, but the second
one has taken its place in the queue. -/
theorem not_truthful_unboundAndEvicted :
    (∃ server session final next,
      Reachable (step sampleConfig) (new sampleConfig) server ∧
      server.sessions[0]? = some session ∧
      ReachableWhile (step sampleConfig)
        (Undisturbed 0 server.broker.calls.length) server final ∧
      final.sessions[0]? = some next ∧
      next.written = session.written ++ [.reply "Queue bound\n"] ∧
      ¬ final.broker.shared.Bound "e" "receiver_1_key"
        "receiver_1_queue") ∧
    ∃ server session final next,
      Reachable (step narrowConfig) (new narrowConfig) server ∧
      server.sessions[0]? = some session ∧
      ReachableWhile (step narrowConfig)
        (Undisturbed 0 server.broker.calls.length) server final ∧
      final.sessions[0]? = some next ∧
      next.written = session.written ++ [.reply "ACK m1\nACK m2\n"] ∧
      final.broker.shared.Bound "e" "receiver_1_key" "receiver_1_queue" ∧
      ¬ final.broker.shared.Holds "receiver_1_queue"
        (sampleMessage "m1") := by
  constructor
  · have ran : (executeWhile (step sampleConfig) (fun _ _ => True)
        (new sampleConfig)
        [.connect "receiver_1" "10.0.0.1" .smooth]).map (fun server =>
          (server.waitingClient 0,
            (serveLine sampleConfig ⟨"receiver_1", .receiver, 0⟩
              "bind receiver_1_queue e receiver_1_key\n" server).2,
            (serveLine sampleConfig ⟨"receiver_1", .receiver, 0⟩
              "bind receiver_1_queue e receiver_1_key\n"
                server).1.shared.bindings "e")) =
        some (some ⟨"receiver_1", .receiver, 0⟩, .text "Queue bound\n",
          none) := by
      decide +kernel
    obtain ⟨server, reached, isServed⟩ := exists_reachableWhile_of_map ran
    obtain ⟨waits, isServed⟩ := Prod.mk.inj isServed
    obtain ⟨isAnswer, unbound⟩ := Prod.mk.inj isServed
    have encodes : Utf8.encode "bind receiver_1_queue e receiver_1_key\n" =
        98 :: (Utf8.encode
          "bind receiver_1_queue e receiver_1_key\n").tail := by
      decide +kernel
    obtain ⟨session, final, found, served, isShared, next, foundNext, -,
      written⟩ := undisturbed_serveLine sampleConfig waits encodes
    rw [isAnswer] at written
    refine ⟨server, session, final, next, reached, found, served, foundNext,
      written, ?_⟩
    rintro ⟨bindings, isBound, -⟩
    rw [isShared, unbound] at isBound
    cases isBound
  · have ran : (executeWhile (step narrowConfig) (fun _ _ => True)
        (new narrowConfig) boundRun).map batchServed =
        some (some ⟨"sender_1", .sender, 0⟩, some "ACK m1\nACK m2\n",
          true, some ["m2"]) := by
      decide +kernel
    obtain ⟨server, reached, isServed⟩ := exists_reachableWhile_of_map ran
    obtain ⟨waits, isServed⟩ := Prod.mk.inj isServed
    obtain ⟨isAnswer, isServed⟩ := Prod.mk.inj isServed
    obtain ⟨isBound, isQueue⟩ := Prod.mk.inj isServed
    have encodes : Utf8.encode "publish_batch e receiver_1_key []\n" =
        112 :: (Utf8.encode
          "publish_batch e receiver_1_key []\n").tail := by
      decide +kernel
    obtain ⟨session, final, found, served, isShared, next, foundNext, -,
      written⟩ := undisturbed_serveLine narrowConfig waits encodes
    rw [isAnswer] at written
    rw [← isShared] at isBound isQueue
    refine ⟨server, session, final, next, reached, found, served, foundNext,
      written, ⟨_, of_decide_eq_true isBound, List.mem_singleton_self _⟩, ?_⟩
    rintro ⟨queue, found, held⟩
    rw [found, Option.map_some, Option.some.injEq] at isQueue
    have listed : "m1" ∈ queue.map Prod.fst :=
      List.mem_map.mpr ⟨_, held, rfl⟩
    rw [isQueue] at listed
    exact absurd listed (by decide)

end Server

end CipherMQ
