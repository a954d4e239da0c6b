import CipherMQ.PersistentBroker

/-!
# The steps of a delivery

A message counts as delivered once its status has a delivery time; the storage
worker is told at the same moment.  Both are done by a handler that delivers
the message, and by nothing else in the server: `DeliveryMove` separates the
steps of deliveries from all others, which leave the delivery times alone and
no handler inside a delivery.
-/

namespace CipherMQ

namespace ServerState

def IsTimed (state : ServerState) (messageId : String) : Prop :=
  ∃ status, state.messageStatus messageId = some status ∧
    status.deliveredTime.isSome = true

def IsReported (state : ServerState) (messageId : String) : Prop :=
  ∃ time, .updateDeliveredTimeAsync messageId time ∈ state.storage.sender

def isUndelivered (state : ServerState) (messageId : String) : Bool :=
  ((state.messageStatus messageId).map fun status =>
    status.deliveredTime.isNone).getD false

/-- No message counts as delivered that did not before. -/
structure DeliversNothing (before after : ServerState) : Prop where
  timed : ∀ messageId, after.IsTimed messageId → before.IsTimed messageId
  reported : ∀ messageId, after.IsReported messageId →
    before.IsReported messageId

theorem deliversNothing_of_same {before after : ServerState}
    (messageStatus : after.messageStatus = before.messageStatus)
    (storage : after.storage = before.storage) :
    before.DeliversNothing after := by
  constructor
  · intro messageId timed
    unfold IsTimed at timed ⊢
    rwa [messageStatus] at timed
  · intro messageId reported
    unfold IsReported at reported ⊢
    rwa [storage] at reported

/-- Another command to the storage worker reports no delivery. -/
theorem deliversNothing_of_send {before after : ServerState}
    {command : StorageCommand}
    (messageStatus : after.messageStatus = before.messageStatus)
    (storage : after.storage = before.storage.send command)
    (isOther : ∀ messageId time,
      command ≠ .updateDeliveredTimeAsync messageId time) :
    before.DeliversNothing after := by
  constructor
  · intro messageId timed
    unfold IsTimed at timed ⊢
    rwa [messageStatus] at timed
  · rintro messageId ⟨time, sent⟩
    rw [storage, Storage.send, List.mem_append, List.mem_singleton] at sent
    rcases sent with earlier | isThis
    · exact ⟨time, earlier⟩
    · exact absurd isThis.symm (isOther messageId time)

theorem deliversNothing_of_request {Answer : Type}
    {before after : ServerState} {command : StorageCommand}
    {unsent : String} {reply : Except StorageError Answer}
    (messageStatus : after.messageStatus = before.messageStatus)
    (storage : after.storage =
      (before.storage.request command unsent reply).1)
    (isOther : ∀ messageId time,
      command ≠ .updateDeliveredTimeAsync messageId time) :
    before.DeliversNothing after := by
  unfold Storage.request at storage
  split at storage
  · exact deliversNothing_of_same messageStatus storage
  · exact deliversNothing_of_send messageStatus storage isOther

/-- Nothing is marked, or the message gets its delivery time and is
reported. -/
theorem markDelivered_cases (state : ServerState) (messageId : String)
    (now : Nat) (time : String) :
    (state.isUndelivered messageId = false ∧
      state.markDelivered messageId now time = state) ∨
    (state.isUndelivered messageId = true ∧
      (∀ other, (state.markDelivered messageId now time).IsTimed other →
        other = messageId ∨ state.IsTimed other) ∧
      ∀ other, (state.markDelivered messageId now time).IsReported other →
        other = messageId ∨ state.IsReported other) := by
  unfold markDelivered isUndelivered
  cases tracked : state.messageStatus messageId with
  | none => exact .inl ⟨rfl, rfl⟩
  | some status =>
      by_cases untimed : status.deliveredTime.isNone
      · right
        refine ⟨untimed, ?_, ?_⟩
        · rintro other ⟨timed, found, hasTime⟩
          by_cases same : other = messageId
          · exact .inl same
          · right
            simp only [untimed, if_true, KeyMap.insert_apply, same, if_false]
              at found
            exact ⟨timed, found, hasTime⟩
        · rintro other ⟨reportedTime, sent⟩
          simp only [untimed, if_true, Storage.updateDeliveredTimeAsync,
            Storage.send, List.mem_append, List.mem_singleton] at sent
          rcases sent with earlier | isThis
          · exact .inr ⟨reportedTime, earlier⟩
          · cases isThis
            exact .inl rfl
      · left
        refine ⟨Bool.eq_false_iff.mpr untimed, ?_⟩
        simp [untimed]

end ServerState

open ServerState

/-- The statuses a call inserts or changes get no delivery time. -/
theorem Access.isTimed_of_isTimed {before after : ServerState} {call : Call}
    (access : Access before call after) {messageId : String}
    (timed : after.IsTimed messageId) : before.IsTimed messageId := by
  obtain ⟨status, found, hasTime⟩ := timed
  cases access with
  | evictStatus request targets queueSet remaining oldMessageId =>
      simp only [ServerState.evictStatus, KeyMap.remove_apply] at found
      split at found
      · cases found
      · exact ⟨status, found, hasTime⟩
  | insertStatus request targets =>
      simp only [KeyMap.insert_apply] at found
      split at found
      · cases found
        cases hasTime
      · exact ⟨status, found, hasTime⟩
  | markAcknowledged other now =>
      simp only [ServerState.markAcknowledged, KeyMap.modify_apply] at found
      split at found
      · obtain ⟨old, wasFound, rfl⟩ := Option.map_eq_some_iff.mp found
        exact ⟨old, wasFound, hasTime⟩
      · exact ⟨status, found, hasTime⟩
  | removeStatus other =>
      simp only [KeyMap.remove_apply] at found
      split at found
      · cases found
      · exact ⟨status, found, hasTime⟩
  | _ => exact ⟨status, found, hasTime⟩

/-- No access of a call delivers a message. -/
theorem deliversNothing_advance (reading : Reading) (state : ServerState)
    (call : Call) :
    state.DeliversNothing (call.advance reading state).1 := by
  have access := access_advance reading state call
  refine ⟨fun _ timed => access.isTimed_of_isTimed timed, ?_⟩
  by_cases saves : ∃ request, call = .publish request .saveMetadata
  · obtain ⟨request, rfl⟩ := saves
    have saved : (Call.advance reading state
        (.publish request .saveMetadata)).1 = { state with
          storage := (state.storage.saveMetadata
            (publishMetadata request.exchangeName request.routingKey
              request.message request.clientId reading.time)
            reading.reply).1 } := by
      simp only [Call.advance, publishStep]
      split <;> rfl
    have nothing : state.DeliversNothing { state with
        storage := (state.storage.saveMetadata
          (publishMetadata request.exchangeName request.routingKey
            request.message request.clientId reading.time)
          reading.reply).1 } :=
      deliversNothing_of_request rfl rfl (by simp)
    rw [saved]
    exact nothing.reported
  · by_cases reports : ∃ messageId, call = .acknowledge messageId .report
    · obtain ⟨messageId, rfl⟩ := reports
      have nothing : state.DeliversNothing (Call.advance reading state
          (.acknowledge messageId .report)).1 :=
        deliversNothing_of_send rfl rfl (by simp)
      exact nothing.reported
    · have sameStorage := storage_advance reading state
        (fun request isSave => saves ⟨request, isSave⟩)
        (fun messageId isReport => reports ⟨messageId, isReport⟩)
      intro messageId reported
      unfold IsReported at reported ⊢
      rwa [sameStorage] at reported

namespace Server

/-- The steps in which a handler takes a message off its channel or goes on
with the delivery. -/
def Event.isDelivery : Event → Bool
  | .handler _ .receive => true
  | .handler _ (.deliver _) => true
  | _ => false

/-- A step in which no delivery begins or moves on. -/
structure Still (before after : Server) : Prop where
  delivering : ∀ (index : Nat) (session : Session) delivery point,
    after.sessions[index]? = some session →
      session.activity = .delivering delivery point →
        before.sessions[index]? = some session
  delivers : before.broker.shared.DeliversNothing after.broker.shared

/-- Such a step that leaves all statuses alone. -/
structure Quiet (before after : Server) : Prop
    extends Still before after where
  statuses : after.broker.shared.messageStatus =
    before.broker.shared.messageStatus

section Quiet

variable {before after : Server} {index : Nat} {next : Session}

theorem quiet_of_set
    (sessions : after.sessions = before.sessions.set index next)
    (settled : ∀ delivery point, next.activity ≠ .delivering delivery point)
    (delivers : before.broker.shared.DeliversNothing after.broker.shared)
    (statuses : after.broker.shared.messageStatus =
      before.broker.shared.messageStatus) :
    Quiet before after := by
  refine ⟨⟨?_, delivers⟩, statuses⟩
  intro other session delivery point found isDelivering
  rw [sessions] at found
  rcases getElem?_set_cases found with ⟨-, rfl⟩ | ⟨-, same⟩
  · exact absurd isDelivering (settled delivery point)
  · exact same

theorem still_of_sessions (sessions : after.sessions = before.sessions)
    (delivers : before.broker.shared.DeliversNothing after.broker.shared) :
    Still before after := by
  refine ⟨?_, delivers⟩
  intro other session delivery point found _
  rwa [sessions] at found

variable (server : Server) (index : Nat) (session : Session)
  (outcome : Outcome)

theorem quiet_reply (text : String) :
    Quiet server (server.reply index session outcome text) :=
  quiet_of_set rfl (by simp) (deliversNothing_of_same rfl rfl) rfl

theorem quiet_finish : Quiet server (server.finish index session) :=
  quiet_of_set rfl (by simp) (deliversNothing_of_same rfl rfl) rfl

theorem quiet_perform (action : Action) :
    Quiet server (server.perform index session outcome action) := by
  have nothing := deliversNothing_of_same (Eq.refl
    server.broker.shared.messageStatus) rfl
  cases action with
  | refuse text => exact quiet_of_set rfl (by simp) nothing rfl
  | write text => exact quiet_reply server index session outcome text
  | demand text =>
      simp only [perform]
      split
      · exact quiet_reply server index session outcome text
      · exact quiet_finish server index session
  | heartbeat text => exact quiet_of_set rfl (by simp) nothing rfl
  | call invocation next => exact quiet_of_set rfl (by simp) nothing rfl
  | query query => exact quiet_of_set rfl (by simp) nothing rfl

theorem quiet_proceed (result : Except String Unit)
    (continuation : Continuation) :
    Quiet server
      (server.proceed index session outcome result continuation) := by
  have nothing := deliversNothing_of_same (Eq.refl
    server.broker.shared.messageStatus) rfl
  cases continuation with
  | reply text => exact quiet_reply server index session outcome text
  | proceed => exact quiet_of_set rfl (by simp) nothing rfl
  | confirmAck messageId =>
      simp only [proceed]
      split
      · exact quiet_of_set rfl (by simp) nothing rfl
      · exact quiet_of_set rfl (by simp)
          (deliversNothing_of_same rfl rfl) rfl
  | confirmPublish messageId =>
      cases result with
      | ok _ => exact quiet_of_set rfl (by simp) nothing rfl
      | error error => exact quiet_reply server index session outcome _
  | confirmBatch batch =>
      cases result with
      | ok _ =>
          have moved := fun action =>
            quiet_perform server.countPublished index session outcome action
          exact { moved _ with }
      | error error => exact quiet_perform server index session outcome _

theorem quiet_answer (query : Query) :
    Quiet server (server.answer index session outcome query) := by
  cases query with
  | resend messageId =>
      exact quiet_of_set rfl (by simp)
        (deliversNothing_of_request rfl rfl (by simp)) rfl
  | registerPublicKey publicKey =>
      exact quiet_of_set rfl (by simp)
        (deliversNothing_of_request rfl rfl (by simp)) rfl
  | getPublicKey clientId =>
      exact quiet_of_set rfl (by simp)
        (deliversNothing_of_request rfl rfl (by simp)) rfl

end Quiet

/-- A new connection starts without a delivery. -/
theorem quiet_connect (config : ServerConfig) (server : Server)
    (clientId ip : String) (outcome : Outcome) :
    Quiet server (server.connect config clientId ip outcome) := by
  have joined : ∀ (after : Server) (session : Session),
      after.sessions = server.sessions ++ [session] →
        (∀ delivery point, session.activity ≠ .delivering delivery point) →
          server.broker.shared.DeliversNothing after.broker.shared →
            after.broker.shared.messageStatus =
                server.broker.shared.messageStatus →
              Quiet server after := by
    intro after session sessions settled delivers statuses
    refine ⟨⟨?_, delivers⟩, statuses⟩
    intro index other delivery point found isDelivering
    rw [sessions] at found
    rcases getElem?_concat_cases found with old | ⟨-, rfl⟩
    · exact old
    · exact absurd isDelivering (settled delivery point)
  unfold connect
  dsimp only
  split
  · exact joined _ _ rfl (by simp [Session.new])
      (deliversNothing_of_same rfl rfl) rfl
  · split
    · exact joined _ _ rfl (by simp [Session.new])
        (deliversNothing_of_same rfl rfl) rfl
    · exact joined _ _ rfl (by simp [Session.new])
        (deliversNothing_of_same rfl rfl) rfl

inductive DeliveryMove (before : Server) : Event → Server → Prop
  | quiet {event : Event} {after : Server}
      (isOther : event.isDelivery = false) (quiet : Quiet before after) :
      DeliveryMove before event after
  | advance {call : Nat} {reading : Reading} {made : Call} {after : Server}
      (found : before.broker.calls[call]? = some made)
      (running : made.isReturned = false)
      (isAfter : after = { before with
        broker :=
          ⟨(made.advance reading before.broker.shared).1,
            before.broker.calls.set call
              (made.advance reading before.broker.shared).2⟩ }) :
      DeliveryMove before (.advance call reading) after
  | receive {index : Nat} {session : Session} {delivery : Delivery}
      {after : Server}
      (found : before.sessions[index]? = some session)
      (isWaiting : session.activity = .waiting)
      (isAfter : after = before.setSession index
        { session with
          received := session.received + 1
          activity := .delivering delivery .checkStatus }) :
      DeliveryMove before (.handler index .receive) after
  | deliver {index : Nat} {session : Session} {outcome : Outcome}
      {delivery : Delivery} {point : DeliveryPoint} {after : Server}
      (found : before.sessions[index]? = some session)
      (isDelivering : session.activity = .delivering delivery point)
      (isAfter : after =
        before.deliver index session outcome delivery point) :
      DeliveryMove before (.handler index (.deliver outcome)) after

theorem still_of_advance {before after : Server} {call : Nat}
    {reading : Reading} {made : Call}
    (isAfter : after = { before with
      broker :=
        ⟨(made.advance reading before.broker.shared).1,
          before.broker.calls.set call
            (made.advance reading before.broker.shared).2⟩ }) :
    Still before after := by
  subst isAfter
  exact still_of_sessions rfl
    (deliversNothing_advance reading before.broker.shared made)

theorem deliveryMove_of_handle {config : ServerConfig}
    {before after : Server} {index : Nat} {session : Session}
    {event : HandlerEvent} (found : before.sessions[index]? = some session)
    (handles : before.handle config index session event = some after) :
    DeliveryMove before (.handler index event) after := by
  unfold handle at handles
  split at handles
  · rename_i result outcome isWaiting
    cases handles
    refine .quiet rfl ?_
    match result with
    | none =>
        exact quiet_of_set rfl (by simp) (deliversNothing_of_same rfl rfl) rfl
    | some [] =>
        exact quiet_of_set rfl (by simp) (deliversNothing_of_same rfl rfl) rfl
    | some (byte :: bytes) =>
        have moved := quiet_perform
          (before.recordHeartbeat session.clientId outcome.now) index
          { session with intake := session.intake.receive (byte :: bytes) }
          outcome
          ((session.client index).handleRequest config.codec outcome.limited
            outcome.now
            (requestOf (session.intake.buffer ++ byte :: bytes)))
        exact { moved with }
  · rename_i isWaiting
    obtain ⟨delivery, -, rfl⟩ := Option.map_eq_some_iff.mp handles
    exact .receive found isWaiting rfl
  · cases handles
    exact .quiet rfl
      (quiet_of_set rfl (by simp) (deliversNothing_of_same rfl rfl) rfl)
  · rename_i call continuation outcome isCalling
    obtain ⟨result, -, rfl⟩ := Option.map_eq_some_iff.mp handles
    exact .quiet rfl
      (quiet_proceed before index session outcome result continuation)
  · rename_i query outcome isQuerying
    cases handles
    exact .quiet rfl (quiet_answer before index session outcome query)
  · rename_i delivery point outcome isDelivering
    cases handles
    exact .deliver found isDelivering rfl
  · cases handles
    exact .quiet rfl
      (quiet_of_set rfl (by simp) (deliversNothing_of_same rfl rfl) rfl)
  · cases handles

theorem deliveryMove_of_step {config : ServerConfig} {before after : Server}
    {event : Event} (stepTo : before.step config event = some after) :
    DeliveryMove before event after := by
  cases event with
  | handshakeFailed =>
      cases stepTo
      exact .quiet rfl
        ⟨still_of_sessions rfl (deliversNothing_of_same rfl rfl), rfl⟩
  | connect clientId ip outcome =>
      cases stepTo
      exact .quiet rfl (quiet_connect config before clientId ip outcome)
  | handler index handlerEvent =>
      obtain ⟨session, found, handles⟩ := Option.bind_eq_some_iff.mp stepTo
      exact deliveryMove_of_handle found handles
  | advance call reading =>
      obtain ⟨broker, stepped, rfl⟩ := Option.map_eq_some_iff.mp stepTo
      obtain ⟨made, found, running, rfl⟩ := Broker.advance_cases stepped
      exact .advance found running rfl
  | runDeliveryTask task =>
      cases stepTo
      obtain ⟨channels, deliveryTasks, ran⟩ :=
        ServerState.runDeliveryTask_frame before.broker.shared task
      refine .quiet rfl ⟨still_of_sessions rfl ?_, ?_⟩
      · dsimp only
        rw [ran]
        exact deliversNothing_of_same rfl rfl
      · dsimp only
        rw [ran]
  | shutdown =>
      cases stepTo
      exact .quiet rfl
        ⟨still_of_sessions rfl (deliversNothing_of_same rfl rfl), rfl⟩

end Server

end CipherMQ
