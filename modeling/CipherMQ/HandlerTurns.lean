import CipherMQ.CallOwners
import CipherMQ.RequestService

/-!
# The turns of a handler

What a step of a handler does to its own connection: which requests have been
read from the client, and why a call is made.  A call is what the request just
read asks for, or the publish of the next message of a batch.
-/

namespace CipherMQ

namespace Server

/-! ## What a handler has read -/

/-- What has been read from a client once something has happened to its
handler. -/
def intakeAfter (session : Session) : HandlerEvent → Intake
  | .read (some (byte :: bytes)) _ => session.intake.receive (byte :: bytes)
  | _ => session.intake

theorem prefix_intakeAfter (session : Session) (event : HandlerEvent) :
    session.intake.requests <+: (intakeAfter session event).requests := by
  unfold intakeAfter
  split
  · exact List.prefix_append _ _
  · exact List.prefix_refl _

/-- A request that is carried out is the last that has been read. -/
theorem request_of_requestAction {config : ServerConfig} {index : Nat}
    {session : Session} {event : HandlerEvent} {action : Action}
    (acts : requestAction config index session event = some action) :
    ∃ request outcome result, event = .read result outcome ∧
      (session.client index).handleRequest config.codec outcome.limited
        outcome.now request = action ∧
      (intakeAfter session event).requests =
        session.intake.requests ++ [request] := by
  unfold requestAction at acts
  split at acts
  · split at acts
    · exact ⟨_, _, _, rfl, Option.some.inj acts, rfl⟩
    · cases acts
  · cases acts

/-- A handler that reads something carries out a request. -/
theorem intakeAfter_cases {config : ServerConfig} {before after : Server}
    {index : Nat} {session : Session} {event : HandlerEvent}
    (handles : before.handle config index session event = some after) :
    (∃ action, requestAction config index session event = some action) ∨
      intakeAfter session event = session.intake := by
  unfold intakeAfter
  split
  · left
    unfold handle at handles
    split at handles
    all_goals simp_all [requestAction]
  · exact Or.inr rfl

/-- The handler at `index` stands with this intake. -/
def Leaves (intake : Intake) (before : Server) (index : Nat)
    (after : Server) : Prop :=
  ∃ next, after.sessions = before.sessions.set index next ∧
    next.intake = intake

section Leaves

variable (server : Server) (index : Nat) (session : Session)
  (outcome : Outcome)

theorem leaves_reply (text : String) :
    Leaves session.intake server index
      (server.reply index session outcome text) := by
  refine ⟨_, rfl, ?_⟩
  unfold Session.write
  split <;> rfl

theorem leaves_finish :
    Leaves session.intake server index (server.finish index session) :=
  ⟨_, rfl, rfl⟩

theorem leaves_perform (action : Action) :
    Leaves session.intake server index
      (server.perform index session outcome action) := by
  cases action with
  | refuse text | write text | heartbeat text =>
      exact leaves_reply server index session outcome text
  | demand text =>
      simp only [perform]
      split
      · exact leaves_reply server index session outcome text
      · exact leaves_finish server index session
  | call invocation continuation => exact ⟨_, rfl, rfl⟩
  | query query => exact ⟨_, rfl, rfl⟩

theorem leaves_proceed (result : Except String Unit)
    (continuation : Continuation) :
    Leaves session.intake server index
      (server.proceed index session outcome result continuation) := by
  cases continuation with
  | reply text => exact leaves_reply server index session outcome text
  | proceed => exact ⟨_, rfl, rfl⟩
  | confirmAck messageId =>
      have kept : (session.write
          (.reply ("ACK confirmed " ++ messageId ++ "\n"))
          outcome.written).intake = session.intake := by
        unfold Session.write
        split <;> rfl
      simp only [proceed]
      split <;> exact ⟨_, rfl, kept⟩
  | confirmPublish messageId =>
      cases result <;> exact leaves_reply server index session outcome _
  | confirmBatch batch =>
      cases result with
      | ok _ =>
          exact leaves_perform server.countPublished index session outcome _
      | error error => exact leaves_perform server index session outcome _

theorem leaves_deliver (delivery : Delivery) (point : DeliveryPoint) :
    Leaves session.intake server index
      (server.deliver index session outcome delivery point) := by
  cases point with
  | write retryCount =>
      simp only [deliver]
      split
      · exact ⟨_, rfl, rfl⟩
      · split <;> exact ⟨_, rfl, rfl⟩
  | checkStatus | checkDeliverable | flush | markWritten | markDelivered =>
      exact ⟨_, rfl, rfl⟩

end Leaves

theorem leaves_handle {config : ServerConfig} {before after : Server}
    {index : Nat} {session : Session} {event : HandlerEvent}
    (handles : before.handle config index session event = some after) :
    Leaves (intakeAfter session event) before index after := by
  unfold handle at handles
  split at handles
  · rename_i result outcome isWaiting
    cases handles
    rcases result with _ | ⟨_ | ⟨byte, bytes⟩⟩
    · exact ⟨_, rfl, rfl⟩
    · exact ⟨_, rfl, rfl⟩
    · exact leaves_perform (before.recordHeartbeat session.clientId
        outcome.now) index _ outcome _
  · obtain ⟨delivery, -, rfl⟩ := Option.map_eq_some_iff.mp handles
    exact ⟨_, rfl, rfl⟩
  · cases handles
    exact ⟨_, rfl, rfl⟩
  · rename_i call continuation outcome isCalling
    obtain ⟨result, -, rfl⟩ := Option.map_eq_some_iff.mp handles
    exact leaves_proceed before index session outcome result continuation
  · rename_i query outcome isQuerying
    cases handles
    cases query <;> exact leaves_reply _ index session outcome _
  · rename_i delivery point outcome isDelivering
    cases handles
    exact leaves_deliver before index session outcome delivery point
  · cases handles
    exact ⟨_, rfl, rfl⟩
  · cases handles

/-- Nothing has been read from a client that has just connected. -/
theorem intake_connect {config : ServerConfig} {before : Server}
    {clientId ip : String} {outcome : Outcome} {session : Session}
    (sessions : (before.connect config clientId ip outcome).sessions =
      before.sessions ++ [session]) : session.intake = Intake.new := by
  unfold connect at sessions
  dsimp only at sessions
  split at sessions
  · have isSession := List.append_cancel_left sessions
    rw [← List.singleton_inj.mp isSession]
    unfold Session.write
    split <;> rfl
  · split at sessions
    all_goals
      have isSession := List.append_cancel_left sessions
      rw [← List.singleton_inj.mp isSession]
      rfl

/-- The session of a handler after one of its steps. -/
theorem next_of_handle {config : ServerConfig} {before after : Server}
    {index : Nat} {session : Session} {event : HandlerEvent}
    (found : before.sessions[index]? = some session)
    (handles : before.handle config index session event = some after) :
    ∃ next, after.sessions = before.sessions.set index next ∧
      next.client index = session.client index ∧
      next.intake = intakeAfter session event := by
  obtain ⟨next, sessions, intake⟩ := leaves_handle handles
  obtain ⟨other, handled⟩ := handled_handle handles
  have same : other = next := by
    have here := getElem?_set_moved found next
    rw [← sessions, handled.sessions, getElem?_set_moved found] at here
    exact Option.some.inj here
  subst same
  refine ⟨other, sessions, ?_, intake⟩
  unfold Session.client
  rw [handled.clientId, handled.role]

/-! ## Why a handler makes a call -/

/-- Why a handler makes a call: its client asks for it, or it publishes the
next message of a batch. -/
def Prompted (config : ServerConfig) (index : Nat) (session : Session)
    (event : HandlerEvent) (invocation : Invocation)
    (continuation : Continuation) : Prop :=
  requestAction config index session event =
      some (.call invocation continuation) ∨
    ∃ call batch message remaining acks now,
      session.activity = .calling call (.confirmBatch batch) ∧
      batch.remaining = message :: remaining ∧
      invocation = .publish ((session.client index).publishRequest
        batch.exchangeName batch.routingKey message now) ∧
      continuation = .confirmBatch
        ⟨batch.exchangeName, batch.routingKey, message, remaining, acks⟩

theorem prompted_handle {config : ServerConfig} {before after : Server}
    {index : Nat} {session : Session} {event : HandlerEvent}
    (handles : before.handle config index session event = some after) :
    Moves (Prompted config index session event) before index after := by
  by_cases inBatch : ∃ call batch,
      session.activity = .calling call (.confirmBatch batch)
  · obtain ⟨call, batch, isCalling⟩ := inBatch
    cases event with
    | resume outcome =>
        simp only [handle, isCalling, Option.map_eq_some_iff] at handles
        obtain ⟨result, -, rfl⟩ := handles
        obtain ⟨going, sameBroker, sameSessions, proceeds⟩ :=
          proceed_confirmBatch index before session outcome result batch
        rw [proceeds]
        have moves : Moves (Prompted config index session (.resume outcome))
            going index (going.perform index session outcome
              ((session.client index).nextOfBatch batch.exchangeName
                batch.routingKey
                (batch.acks ++ [batchLine batch.current result]) outcome.now
                batch.remaining)) := by
          apply moves_perform
          intro invocation continuation isCall
          cases isNext : batch.remaining with
          | nil =>
              rw [isNext] at isCall
              cases isCall
          | cons message remaining =>
              rw [isNext] at isCall
              cases isCall
              exact Or.inr ⟨call, batch, message, remaining, _, _, isCalling,
                isNext, rfl, rfl⟩
        rcases moves with ⟨next, sessions, settled, calls, maps⟩ |
          ⟨next, invocation, continuation, why, sessions, waits, calls,
            shared⟩
        · rw [sameSessions] at sessions
          rw [sameBroker] at calls maps
          exact .settles next sessions settled calls maps
        · rw [sameSessions] at sessions
          rw [sameBroker] at waits calls shared
          exact .calls next invocation continuation why sessions waits calls
            shared
    | read result outcome | receive | deliver outcome | channelClosed |
      close => simp [handle, isCalling] at handles
  · rcases moves_handle handles with
      ⟨next, sessions, settled, calls, maps⟩ |
      ⟨next, invocation, continuation, why, sessions, waits, calls, shared⟩
    · exact .settles next sessions settled calls maps
    · refine .calls next invocation continuation (Or.inl ?_) sessions waits
        calls shared
      rcases why with isRequest | ⟨call, batch, -, -, isCalling, -⟩
      · exact isRequest
      · exact (inBatch ⟨call, batch, isCalling⟩).elim

theorem handle_of_call {config : ServerConfig} {before after : Server}
    {index : Nat} {session : Session} {event : HandlerEvent}
    {invocation : Invocation} {continuation : Continuation}
    (acts : requestAction config index session event =
      some (.call invocation continuation))
    (handles : before.handle config index session event = some after) :
    after.sessions = before.sessions.set index
        { session with
          intake := intakeAfter session event
          activity := .calling before.broker.calls.length continuation } ∧
      after.broker.calls = before.broker.calls ++ [invocation.start] := by
  unfold requestAction at acts
  split at acts
  · split at acts
    · rename_i isWaiting
      simp only [handle, isWaiting, read, Option.some.inj acts,
        Option.some.injEq] at handles
      subst handles
      exact ⟨rfl, rfl⟩
    · cases acts
  · cases acts

end Server

end CipherMQ
