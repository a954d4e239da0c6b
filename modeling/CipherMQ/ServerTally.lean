import CipherMQ.AwaitedCalls
import CipherMQ.DeliverySteps
import CipherMQ.HandlerBooks

/-!
# A tally beside the counters

The handlers count published and acknowledged messages and rejected requests.
A tally kept beside the server counts the events these counters are named
after.  The number of published messages is right until its counter
overflows.  The others are not: an acknowledgement is counted whether or not
there was a message to remove, and maybe before the publish of its message, a
command the access control denies is counted as rejected by the rate limiter,
and deliveries are not counted at all.  A step keeps the counters right
exactly if it is none of these.
-/

namespace CipherMQ

namespace Client

variable {codec : Codec} {client : Client} {now : Nat}

theorem counter_runCommand (command : String) (args : List Char) :
    (client.runCommand codec now command args).counter = none := by
  have guarded : ∀ queueName action, Action.counter action = none →
      (client.guardQueue queueName action).counter = none := by
    intro queueName action uncounted
    unfold guardQueue
    split
    · rfl
    · exact uncounted
  have batch : ∀ exchangeName routingKey messages,
      (client.nextOfBatch exchangeName routingKey [] now
        messages).counter = none := by
    intro exchangeName routingKey messages
    cases messages <;> rfl
  unfold runCommand
  dsimp only
  split
  · split
    · exact guarded _ _ rfl
    · rfl
  · split <;> rfl
  · split
    · exact guarded _ _ rfl
    · rfl
  · split
    · split <;> rfl
    · rfl
  · split
    · split
      · exact batch _ _ _
      · rfl
    · rfl
  · split <;> rfl
  · split <;> rfl
  · split <;> rfl
  · split <;> rfl
  · split <;> rfl
  · rfl
  · rfl

theorem counter_handleRequest (limited : Bool) (request : List Char) :
    (client.handleRequest codec limited now request).counter =
      if AclManager.checkCommand client.role (splitRequest request).1 =
          .allowed ∧ limited = false then
        none
      else
        some .limited := by
  unfold handleRequest
  dsimp only
  split
  · rename_i reason denied
    simp [denied, Action.counter]
  · rename_i permitted
    cases limited with
    | true => simp [Action.counter]
    | false => simp [permitted, counter_runCommand]

end Client

/-! ## The tally -/

/-- The events that the counters are named after.  `removing` are the
acknowledgements that have removed a message and not yet returned to their
handlers. -/
structure Tally where
  published : Nat
  acked : Nat
  removing : List Nat
  delivered : Nat
  limited : Nat
  deriving DecidableEq, Repr

def Activity.updates : Activity → Option String
  | .delivering delivery .markWritten => some delivery.messageId
  | .delivering delivery .markDelivered => some delivery.messageId
  | _ => none

namespace Server

/-- The next step of the delivery marks a message as delivered. -/
def marks (server : Server) (session : Session) : Bool :=
  session.activity.updates.any server.broker.shared.isUndelivered

/-- The next access of the call removes a message that is still there. -/
def removesLive (server : Server) (call : Nat) : Bool :=
  match server.broker.calls[call]? with
  | some (.acknowledge messageId .removeStatus) =>
      server.broker.shared.messageStatus.containsKey messageId
  | _ => false

def permits (session : Session) (bytes : List UInt8) : Bool :=
  AclManager.checkCommand session.role
    (splitRequest (requestOf (session.intake.buffer ++ bytes))).1 = .allowed

end Server

namespace Tally

def new : Tally :=
  ⟨0, 0, [], 0, 0⟩

def noteReturn (call : Nat) (tally : Tally) : Call → Tally
  | .publish _ (.returned (.ok ())) =>
      { tally with published := tally.published + 1 }
  | .acknowledge _ .returned =>
      if call ∈ tally.removing then
        { tally with
          acked := tally.acked + 1
          removing := tally.removing.erase call }
      else
        tally
  | _ => tally

def noteHandler (server : Server) (session : Session) (tally : Tally) :
    Server.HandlerEvent → Tally
  | .read (some (byte :: bytes)) outcome =>
      if Server.permits session (byte :: bytes) && outcome.limited then
        { tally with limited := tally.limited + 1 }
      else
        tally
  | .resume _ =>
      match session.activity with
      | .calling call _ =>
          ((server.broker.calls[call]?).map (tally.noteReturn call)).getD
            tally
      | _ => tally
  | .deliver _ =>
      if server.marks session then
        { tally with delivered := tally.delivered + 1 }
      else
        tally
  | _ => tally

def note (server : Server) : Server.Event → Tally → Tally
  | .handler index event, tally =>
      match server.sessions[index]? with
      | some session => tally.noteHandler server session event
      | none => tally
  | .advance call _, tally =>
      if server.removesLive call then
        { tally with removing := call :: tally.removing }
      else
        tally
  | _, tally => tally

end Tally

namespace Server

abbrev Audit := Recorded Server Tally

/-- Every counter is the number of the events it is named after, and not more
messages are acknowledged than published. -/
structure CountsTruly (audit : Audit) : Prop where
  published :
    audit.state.metrics.messagesPublished.toNat = audit.ledger.published
  acked : audit.state.metrics.messagesAcked.toNat = audit.ledger.acked
  delivered :
    audit.state.metrics.messagesDelivered.toNat = audit.ledger.delivered
  limited :
    audit.state.metrics.requestsRateLimited.toNat = audit.ledger.limited
  ordered : audit.state.metrics.messagesAcked ≤
    audit.state.metrics.messagesPublished

/-- A publish that returns does not overflow its counter, and an
acknowledgement that returns has removed a message, when fewer messages have
been acknowledged than published. -/
def CountsReturn (call : Nat) (tally : Tally) : Call → Prop
  | .publish _ (.returned (.ok ())) => tally.published + 1 < UInt64.size
  | .acknowledge _ .returned =>
      call ∈ tally.removing ∧ tally.acked < tally.published
  | _ => True

/-- The access control permits the request, the calls that return are counted
rightly, no message is marked as delivered, and the rejected requests do not
overflow their counter. -/
def CountsRightly (server : Server) (session : Session) (tally : Tally) :
    HandlerEvent → Prop
  | .read (some (byte :: bytes)) outcome =>
      permits session (byte :: bytes) = true ∧
        (outcome.limited = true → tally.limited + 1 < UInt64.size)
  | .resume _ =>
      match session.activity with
      | .calling call _ =>
          ∀ made ∈ server.broker.calls[call]?, CountsReturn call tally made
      | _ => True
  | .deliver _ => server.marks session = false
  | _ => True

def AuditsRightly (audit : Audit) : Event → Prop
  | .handler index event =>
      ∀ session ∈ audit.state.sessions[index]?,
        CountsRightly audit.state session audit.ledger event
  | _ => True

/-! ## One step -/

theorem count_eq (metrics : Metrics) (counter : Option Counter) :
    metrics.count counter =
      { metrics with
        messagesPublished :=
          if counter = some .published then metrics.messagesPublished + 1
          else metrics.messagesPublished
        messagesAcked :=
          if counter = some .acked then metrics.messagesAcked + 1
          else metrics.messagesAcked
        requestsRateLimited :=
          if counter = some .limited then metrics.requestsRateLimited + 1
          else metrics.requestsRateLimited } := by
  match counter with
  | none => rfl
  | some .published => rfl
  | some .acked => rfl
  | some .limited => rfl

theorem toNat_counted (counter : UInt64) (counts : Prop) [Decidable counts] :
    (if counts then counter + 1 else counter).toNat =
      if counts then (counter.toNat + 1) % UInt64.size
      else counter.toNat := by
  split
  · exact UInt64.toNat_add counter 1
  · rfl

/-- The counters stay right exactly if the tally moves with them. -/
theorem CountsTruly.counted_iff {before after : Audit}
    {counter : Option Counter} (truly : CountsTruly before)
    (metrics : after.state.metrics = before.state.metrics.count counter) :
    CountsTruly after ↔
      (if counter = some .published then
          (before.ledger.published + 1) % UInt64.size
        else before.ledger.published) = after.ledger.published ∧
      (if counter = some .acked then (before.ledger.acked + 1) % UInt64.size
        else before.ledger.acked) = after.ledger.acked ∧
      before.ledger.delivered = after.ledger.delivered ∧
      (if counter = some .limited then
          (before.ledger.limited + 1) % UInt64.size
        else before.ledger.limited) = after.ledger.limited ∧
      after.ledger.acked ≤ after.ledger.published := by
  rw [count_eq] at metrics
  rw [← truly.published, ← truly.acked, ← truly.delivered, ← truly.limited,
    ← toNat_counted, ← toNat_counted, ← toNat_counted]
  constructor
  · rintro ⟨published, acked, delivered, limited, ordered⟩
    rw [UInt64.le_iff_toNat_le, acked, published] at ordered
    rw [metrics] at published acked delivered limited
    exact ⟨published, acked, delivered, limited, ordered⟩
  · rintro ⟨published, acked, delivered, limited, ordered⟩
    rw [← acked, ← published] at ordered
    constructor
    · rw [metrics]
      exact published
    · rw [metrics]
      exact acked
    · rw [metrics]
      exact delivered
    · rw [metrics]
      exact limited
    · rw [UInt64.le_iff_toNat_le, metrics]
      exact ordered

theorem CountsTruly.uncounted {before after : Audit}
    (truly : CountsTruly before)
    (metrics : after.state.metrics = before.state.metrics)
    (tally : after.ledger = before.ledger) : CountsTruly after := by
  constructor
  · rw [metrics, tally, truly.published]
  · rw [metrics, tally, truly.acked]
  · rw [metrics, tally, truly.delivered]
  · rw [metrics, tally, truly.limited]
  · rw [metrics]
    exact truly.ordered

/-- A counter that is counted up shows the next number unless it is full, and
never the old one. -/
theorem succ_mod_size {number : Nat} (inRange : number < UInt64.size) :
    ((number + 1) % UInt64.size = number + 1 ↔
        number + 1 < UInt64.size) ∧
      (number + 1) % UInt64.size ≠ number := by
  unfold UInt64.size at inRange ⊢
  omega

theorem CountsTruly.bounds {audit : Audit} (truly : CountsTruly audit) :
    audit.ledger.acked ≤ audit.ledger.published ∧
      audit.ledger.published < UInt64.size ∧
      audit.ledger.limited < UInt64.size := by
  rw [← truly.published, ← truly.acked, ← truly.limited]
  exact ⟨UInt64.le_iff_toNat_le.mp truly.ordered, UInt64.toNat_lt_size _,
    UInt64.toNat_lt_size _⟩

/-- A returned call is counted by what it is and not by what its handler goes
on to do. -/
theorem counter_of_fits {continuation : Continuation} {made : Call}
    {result : Except String Unit}
    (fits : continuation.Fits made.invocation)
    (returned : made.result = some result) :
    continuation.counter result =
      match made with
      | .publish _ (.returned (.ok ())) => some .published
      | .acknowledge _ .returned => some .acked
      | _ => none := by
  cases made with
  | publish request point =>
      cases point with
      | returned published =>
          cases returned
          cases continuation with
          | confirmPublish messageId => cases result <;> rfl
          | confirmBatch batch => cases result <;> rfl
          | reply text => cases fits
          | proceed => cases fits
          | confirmAck messageId => cases fits
      | _ => cases returned
  | acknowledge messageId point =>
      cases continuation with
      | confirmAck other =>
          cases point with
          | returned => rfl
          | _ => cases returned
      | _ => cases fits
  | declareQueue queueName point =>
      cases continuation with
      | reply text => rfl
      | _ => cases fits
  | declareExchange exchangeName point =>
      cases continuation with
      | reply text => rfl
      | _ => cases fits
  | bindQueue queueName exchangeName routingKey point =>
      cases continuation with
      | reply text => rfl
      | _ => cases fits
  | registerConsumer queueName sender point =>
      cases continuation with
      | proceed => rfl
      | _ => cases fits

theorem isWaiting_of_handle_read {config : ServerConfig}
    {before after : Server} {index : Nat} {session : Session}
    {result : Option (List UInt8)} {outcome : Outcome}
    (handles : before.handle config index session (.read result outcome) =
      some after) :
    session.activity = .waiting := by
  cases isActivity : session.activity with
  | waiting => rfl
  | _ => simp [handle, isActivity] at handles

theorem handle_resume_cases {config : ServerConfig} {before after : Server}
    {index : Nat} {session : Session} {outcome : Outcome}
    (handles : before.handle config index session (.resume outcome) =
      some after) :
    (∃ call continuation made result,
      session.activity = .calling call continuation ∧
        before.broker.calls[call]? = some made ∧
        made.result = some result) ∨
      ∃ query, session.activity = .querying query := by
  cases isActivity : session.activity with
  | calling call continuation =>
      simp only [handle, isActivity] at handles
      obtain ⟨result, returned, -⟩ := Option.map_eq_some_iff.mp handles
      obtain ⟨made, found, isResult⟩ := Option.bind_eq_some_iff.mp returned
      exact .inl ⟨call, continuation, made, result, rfl, found, isResult⟩
  | querying query => exact .inr ⟨query, rfl⟩
  | _ => simp [handle, isActivity] at handles

section Handler

variable {config : ServerConfig} {before after : Audit} {index : Nat}
  {session : Session} (truly : CountsTruly before)

include truly

theorem CountsTruly.read_iff {byte : UInt8} {bytes : List UInt8}
    {outcome : Outcome} (isWaiting : session.activity = .waiting)
    (metrics : after.state.metrics = before.state.metrics.count
      (counted config before.state index session
        (.read (some (byte :: bytes)) outcome)))
    (tally : after.ledger = before.ledger.noteHandler before.state session
      (.read (some (byte :: bytes)) outcome)) :
    CountsTruly after ↔
      CountsRightly before.state session before.ledger
        (.read (some (byte :: bytes)) outcome) := by
  have isCounter : counted config before.state index session
      (.read (some (byte :: bytes)) outcome) =
        if permits session (byte :: bytes) = true ∧
            outcome.limited = false then none
        else some .limited := by
    simp [counted, requestAction, isWaiting, Client.counter_handleRequest,
      permits, Session.client]
  obtain ⟨ordered, -, inRange⟩ := truly.bounds
  obtain ⟨next, moved⟩ := succ_mod_size inRange
  rw [truly.counted_iff metrics, isCounter, tally]
  cases permitted : permits session (byte :: bytes) <;>
    cases limited : outcome.limited <;>
      simp [CountsRightly, Tally.noteHandler, permitted, limited, ordered,
        next, moved]

/-- An acknowledgement is counted whether or not it has removed a message. -/
theorem CountsTruly.resume_iff {outcome : Outcome} {call : Nat}
    {continuation : Continuation} {made : Call}
    {result : Except String Unit}
    (isCalling : session.activity = .calling call continuation)
    (found : before.state.broker.calls[call]? = some made)
    (fits : continuation.Fits made.invocation)
    (returned : made.result = some result)
    (metrics : after.state.metrics = before.state.metrics.count
      (counted config before.state index session (.resume outcome)))
    (tally : after.ledger =
      before.ledger.noteHandler before.state session (.resume outcome)) :
    CountsTruly after ↔
      CountsRightly before.state session before.ledger
        (.resume outcome) := by
  have isCounter : counted config before.state index session
      (.resume outcome) = continuation.counter result := by
    simp [counted, isCalling, found, returned]
  have isTally : after.ledger = before.ledger.noteReturn call made := by
    rw [tally]
    simp [Tally.noteHandler, isCalling, found]
  rw [truly.counted_iff metrics, isCounter, isTally,
    counter_of_fits fits returned]
  have isCondition : CountsRightly before.state session before.ledger
      (.resume outcome) ↔ CountsReturn call before.ledger made := by
    simp [CountsRightly, isCalling, found]
  obtain ⟨ordered, inRange, -⟩ := truly.bounds
  obtain ⟨nextPublished, -⟩ := succ_mod_size inRange
  obtain ⟨nextAcked, movedAcked⟩ :=
    succ_mod_size (Nat.lt_of_le_of_lt ordered inRange)
  rw [isCondition]
  cases made with
  | acknowledge messageId point =>
      cases point with
      | returned =>
          by_cases removed : call ∈ before.ledger.removing
          · have fits : before.ledger.acked < before.ledger.published →
                before.ledger.acked + 1 < UInt64.size := by
              omega
            simpa [CountsReturn, Tally.noteReturn, removed, nextAcked,
              Nat.add_one_le_iff] using fits
          · simp [CountsReturn, Tally.noteReturn, removed, movedAcked]
      | _ => cases returned
  | publish request point =>
      cases point with
      | returned published =>
          cases published with
          | ok _ =>
              simp [CountsReturn, Tally.noteReturn, nextPublished,
                Nat.le_succ_of_le ordered]
          | error error => simp [CountsReturn, Tally.noteReturn, ordered]
      | _ => cases returned
  | _ => simp [CountsReturn, Tally.noteReturn, ordered]

theorem CountsTruly.deliver_iff {outcome : Outcome}
    (metrics : after.state.metrics = before.state.metrics.count
      (counted config before.state index session (.deliver outcome)))
    (tally : after.ledger =
      before.ledger.noteHandler before.state session (.deliver outcome)) :
    CountsTruly after ↔ before.state.marks session = false := by
  have isCounter : counted config before.state index session
      (.deliver outcome) = none :=
    rfl
  rw [truly.counted_iff metrics, isCounter, tally]
  cases marks : before.state.marks session <;>
    simp [Tally.noteHandler, marks, truly.bounds.1]

theorem CountsTruly.handle_iff {event : HandlerEvent}
    (awaits : before.state.Awaits)
    (found : before.state.sessions[index]? = some session)
    (handles : before.state.handle config index session event =
      some after.state)
    (tally : after.ledger =
      before.ledger.noteHandler before.state session event) :
    CountsTruly after ↔
      CountsRightly before.state session before.ledger event := by
  obtain ⟨next, -, accounted⟩ := accounted_handle handles
  have metrics := accounted.metrics
  have uncounted : counted config before.state index session event = none →
      after.ledger = before.ledger → CountsTruly after := by
    intro isNone sameTally
    rw [isNone] at metrics
    exact truly.uncounted metrics sameTally
  cases event with
  | read result outcome =>
      match result with
      | none => exact iff_of_true (uncounted rfl tally) trivial
      | some [] => exact iff_of_true (uncounted rfl tally) trivial
      | some (byte :: bytes) =>
          exact truly.read_iff (isWaiting_of_handle_read handles) metrics
            tally
  | resume outcome =>
      rcases handle_resume_cases handles with
        ⟨call, continuation, made, result, isCalling, callFound, isResult⟩ |
        ⟨query, isQuerying⟩
      · obtain ⟨awaited, awaitedFound, fits⟩ :=
          awaits index session call continuation found isCalling
        rw [callFound] at awaitedFound
        cases awaitedFound
        exact truly.resume_iff isCalling callFound fits isResult metrics tally
      · refine iff_of_true (uncounted ?_ ?_) ?_
        · simp [counted, isQuerying]
        · rw [tally]
          simp [Tally.noteHandler, isQuerying]
        · simp [CountsRightly, isQuerying]
  | deliver outcome => exact truly.deliver_iff metrics tally
  | receive => exact iff_of_true (uncounted rfl tally) trivial
  | channelClosed => exact iff_of_true (uncounted rfl tally) trivial
  | close => exact iff_of_true (uncounted rfl tally) trivial

end Handler

theorem connect_metrics (config : ServerConfig) (server : Server)
    (clientId ip : String) (outcome : Outcome) :
    ∃ total rejected,
      (server.connect config clientId ip outcome).metrics =
        { server.metrics with
          connectionsTotal := total
          connectionsRejectedConnLimit := rejected } := by
  unfold connect
  dsimp only
  split
  · exact ⟨_, _, rfl⟩
  · split
    · exact ⟨_, _, rfl⟩
    · exact ⟨_, _, rfl⟩

/-- A step keeps the counters right exactly if it counts rightly. -/
theorem countsTruly_step_iff {config : ServerConfig} {before after : Audit}
    {event : Event} (awaits : before.state.Awaits)
    (truly : CountsTruly before)
    (stepTo : Recorded.step (step config) Tally.note before event =
      some after) :
    CountsTruly after ↔ AuditsRightly before event := by
  obtain ⟨stepped, noted⟩ := Recorded.step_cases stepTo
  cases event with
  | handler index handlerEvent =>
      obtain ⟨session, found, handles⟩ := Option.bind_eq_some_iff.mp stepped
      simp only [Tally.note, found] at noted
      rw [truly.handle_iff awaits found handles noted]
      simp [AuditsRightly, found]
  | connect clientId ip outcome =>
      refine iff_of_true ?_ trivial
      have isAfter := (Option.some.inj stepped).symm
      obtain ⟨total, rejected, metrics⟩ :=
        connect_metrics config before.state clientId ip outcome
      constructor
      · rw [isAfter, metrics, noted]
        exact truly.published
      · rw [isAfter, metrics, noted]
        exact truly.acked
      · rw [isAfter, metrics, noted]
        exact truly.delivered
      · rw [isAfter, metrics, noted]
        exact truly.limited
      · rw [isAfter, metrics]
        exact truly.ordered
  | advance call reading =>
      refine iff_of_true ?_ trivial
      obtain ⟨broker, isAfter, -⟩ := brokers_step rfl stepped
      have sameCounts : after.ledger.published = before.ledger.published ∧
          after.ledger.acked = before.ledger.acked ∧
          after.ledger.delivered = before.ledger.delivered ∧
          after.ledger.limited = before.ledger.limited := by
        rw [noted, Tally.note]
        split <;> exact ⟨rfl, rfl, rfl, rfl⟩
      obtain ⟨published, acked, delivered, limited⟩ := sameCounts
      constructor
      · rw [isAfter, published, truly.published]
      · rw [isAfter, acked, truly.acked]
      · rw [isAfter, delivered, truly.delivered]
      · rw [isAfter, limited, truly.limited]
      · rw [isAfter]
        exact truly.ordered
  | runDeliveryTask task =>
      obtain ⟨broker, isAfter, -⟩ := brokers_step rfl stepped
      exact iff_of_true (truly.uncounted (by rw [isAfter]) noted) trivial
  | handshakeFailed =>
      have isAfter := (Option.some.inj stepped).symm
      exact iff_of_true (truly.uncounted (by rw [isAfter]; rfl) noted) trivial
  | shutdown =>
      have isAfter := (Option.some.inj stepped).symm
      exact iff_of_true (truly.uncounted (by rw [isAfter]; rfl) noted) trivial

end Server

end CipherMQ
