import CipherMQ.CallOwners

/-!
# The calls handlers wait for

A handler that waits for a call has made that call itself, for a command that
asks for such a call.  So what it does when the call returns fits what the
call was asked to do.
-/

namespace CipherMQ

/-- The call is of the kind that the handler goes on from. -/
def Continuation.Fits : Continuation → Invocation → Prop
  | .confirmAck messageId, .acknowledge other => messageId = other
  | .confirmPublish _, .publish _ => True
  | .confirmBatch _, .publish _ => True
  | .reply _, .declareQueue _ => True
  | .reply _, .declareExchange _ => True
  | .reply _, .bindQueue _ _ _ => True
  | .proceed, .registerConsumer _ _ => True
  | _, _ => False

namespace Client

variable {codec : Codec} {client : Client} {now : Nat}

/-- The branch of a command makes a call it can go on from. -/
theorem Calls.fits {command : String} {args : List Char}
    {invocation : Invocation} {next : Continuation}
    (calls : Calls codec client now args command invocation next) :
    next.Fits invocation := by
  cases calls with
  | ack => rfl
  | _ => trivial

theorem fits_of_handleRequest {limited : Bool} {request : List Char}
    {invocation : Invocation} {next : Continuation}
    (isCall : client.handleRequest codec limited now request =
      .call invocation next) :
    next.Fits invocation :=
  (calls_of_handleRequest isCall).2.fits

end Client

namespace Server

def Awaits (server : Server) : Prop :=
  ∀ (index : Nat) (session : Session) call continuation,
    server.sessions[index]? = some session →
      session.activity = .calling call continuation →
        ∃ made : Call, server.broker.calls[call]? = some made ∧
          continuation.Fits made.invocation

theorem fits_of_madeFor {config : ServerConfig} {index : Nat}
    {session : Session} {event : HandlerEvent} {invocation : Invocation}
    {continuation : Continuation}
    (madeFor : MadeFor config index session event invocation continuation) :
    continuation.Fits invocation := by
  rcases madeFor with isCall | ⟨call, batch, request, later, -, rfl, rfl⟩
  · unfold requestAction at isCall
    split at isCall
    · split at isCall
      · exact Client.fits_of_handleRequest (Option.some.inj isCall)
      · cases isCall
    · cases isCall
  · trivial

theorem Awaits.handle {config : ServerConfig} {before after : Server}
    {index : Nat} {session : Session} {event : HandlerEvent}
    (awaits : before.Awaits)
    (handles : before.handle config index session event = some after) :
    after.Awaits := by
  intro other otherSession call continuation found isCalling
  cases moves_handle handles with
  | settles next sessions settled calls _ =>
      rw [sessions] at found
      rw [calls]
      rcases getElem?_set_cases found with ⟨-, rfl⟩ | ⟨-, same⟩
      · exact absurd isCalling (settled call continuation)
      · exact awaits other otherSession call continuation same isCalling
  | calls next invocation newContinuation madeFor sessions waits calls _ =>
      rw [sessions] at found
      rw [calls]
      rcases getElem?_set_cases found with ⟨-, rfl⟩ | ⟨-, same⟩
      · rw [waits] at isCalling
        cases isCalling
        refine ⟨invocation.start, by simp, ?_⟩
        rw [Invocation.invocation_start]
        exact fits_of_madeFor madeFor
      · obtain ⟨made, callFound, fits⟩ :=
          awaits other otherSession call continuation same isCalling
        exact ⟨made, getElem?_append_kept callFound _, fits⟩

theorem Awaits.step {config : ServerConfig} {before after : Server}
    {event : Event} (awaits : before.Awaits)
    (stepTo : before.step config event = some after) : after.Awaits := by
  cases event with
  | handshakeFailed =>
      cases stepTo
      exact awaits
  | connect clientId ip outcome =>
      cases stepTo
      obtain ⟨session, joins⟩ :=
        joins_connect config before clientId ip outcome
      intro index other call continuation found isCalling
      rw [joins.sessions] at found
      rw [joins.calls]
      rcases getElem?_concat_cases found with old | ⟨-, rfl⟩
      · exact awaits index other call continuation old isCalling
      · exact absurd isCalling (joins.settled call continuation)
  | handler index handlerEvent =>
      obtain ⟨session, -, handles⟩ := Option.bind_eq_some_iff.mp stepTo
      exact awaits.handle handles
  | advance call reading =>
      obtain ⟨broker, stepped, rfl⟩ := Option.map_eq_some_iff.mp stepTo
      obtain ⟨made, found, -, rfl⟩ := Broker.advance_cases stepped
      intro index session other continuation atIndex isCalling
      obtain ⟨otherMade, otherFound, fits⟩ :=
        awaits index session other continuation atIndex isCalling
      by_cases same : other = call
      · subst same
        rw [found] at otherFound
        cases otherFound
        refine ⟨_, getElem?_set_moved found _, ?_⟩
        rwa [Call.invocation_advance]
      · refine ⟨otherMade, ?_, fits⟩
        dsimp only
        rw [List.getElem?_set_ne (Ne.symm same)]
        exact otherFound
  | runDeliveryTask task =>
      cases stepTo
      exact awaits
  | shutdown =>
      cases stepTo
      exact awaits

end Server

end CipherMQ
