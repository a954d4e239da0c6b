import CipherMQ.CallOwners
import CipherMQ.ReceiverIsolation

/-!
# What each role can change

A sender leaves the topology of the broker alone, a receiver puts nothing into
a queue, and a request that is refused has no effect on the broker at all.
The effects of a request are spread over the steps of its handler, the
accesses of the calls the handler waits for and the tasks those calls spawn,
so the results are about every step taken on behalf of a connection.
-/

namespace CipherMQ

open ServerState

namespace ServerState

structure KeepsTopology (before after : ServerState) : Prop where
  queueKeys : ∀ queueName,
    (after.queues queueName).isSome = (before.queues queueName).isSome
  exchanges : after.exchanges = before.exchanges
  bindings : after.bindings = before.bindings
  consumers : ∀ queueName,
    ((after.consumers queueName).getD []).Sublist
      ((before.consumers queueName).getD [])

def GainsNoEntry (before after : ServerState) : Prop :=
  ∀ queueName, ((after.queues queueName).getD []).Sublist
    ((before.queues queueName).getD [])

structure Untouched (before after : ServerState) : Prop where
  maps : before.SameMaps after
  messageStatus : after.messageStatus = before.messageStatus
  storage : after.storage = before.storage

variable {before after : ServerState}

theorem SameMaps.keepsTopology (same : before.SameMaps after) :
    before.KeepsTopology after where
  queueKeys _ := by rw [same.queues]
  exchanges := same.exchanges
  bindings := same.bindings
  consumers _ := by rw [same.consumers]

theorem SameMaps.gainsNoEntry (same : before.SameMaps after) :
    before.GainsNoEntry after := by
  intro queueName
  rw [same.queues]

theorem untouched_refl (state : ServerState) : state.Untouched state :=
  ⟨state.sameMaps_refl, rfl, rfl⟩

theorem untouched_runDeliveryTask (state : ServerState) (task : Nat) :
    state.Untouched (state.runDeliveryTask task) := by
  obtain ⟨channels, deliveryTasks, ran⟩ := runDeliveryTask_frame state task
  rw [ran]
  exact ⟨⟨rfl, rfl, rfl, rfl, rfl⟩, rfl, rfl⟩

end ServerState

/-! ## The calls of a sender -/

/-- A publish appends to queues that exist and drops consumers that are
gone. -/
theorem keepsTopology_publish (state : ServerState)
    (request : PublishRequest) (reading : Reading) (point : PublishPoint) :
    state.KeepsTopology (state.publishStep request reading point).1 := by
  have same := (state.sameMaps_refl).keepsTopology
  cases point with
  | checkDuplicate =>
      simp only [publishStep]
      split <;> exact same
  | saveMetadata =>
      simp only [publishStep]
      split <;> exact ⟨fun _ => rfl, rfl, rfl, fun _ => .refl _⟩
  | findTargets =>
      simp only [publishStep]
      split <;> exact same
  | enqueue targets queueSet remaining =>
      cases remaining with
      | nil => exact ⟨fun _ => rfl, rfl, rfl, fun _ => .refl _⟩
      | cons queueName remaining =>
          simp only [publishStep]
          split
          · exact same
          · rename_i queue found
            have queueKeys : ∀ entries other,
                ((state.queues.insert queueName entries) other).isSome =
                  (state.queues other).isSome := by
              intro entries other
              by_cases isTarget : other = queueName
              · simp [isTarget, found]
              · simp [isTarget]
            split <;> exact ⟨queueKeys _, rfl, rfl, fun _ => .refl _⟩
  | evictIndex => exact ⟨fun _ => rfl, rfl, rfl, fun _ => .refl _⟩
  | evictStatus => exact ⟨fun _ => rfl, rfl, rfl, fun _ => .refl _⟩
  | insertStatus => exact ⟨fun _ => rfl, rfl, rfl, fun _ => .refl _⟩
  | notify remaining =>
      cases remaining with
      | nil => exact same
      | cons queueName remaining =>
          simp only [publishStep, notifyConsumers_eq]
          refine ⟨fun _ => rfl, rfl, rfl, ?_⟩
          intro other
          simp only [notified]
          split
          · cases state.consumers other with
            | none => exact .refl _
            | some senders => exact List.filter_sublist
          · exact .refl _
  | returned => exact same

theorem keepsTopology_acknowledge (state : ServerState)
    (messageId : String) (reading : Reading) (point : AcknowledgePoint) :
    state.KeepsTopology (state.acknowledgeStep messageId reading point).1 := by
  have same := (state.sameMaps_refl).keepsTopology
  cases point with
  | checkStatus =>
      simp only [acknowledgeStep]
      split <;> exact same
  | removeFrom remaining =>
      cases remaining with
      | nil => exact same
      | cons queueName remaining =>
          simp only [acknowledgeStep]
          split
          · refine ⟨?_, rfl, rfl, fun _ => .refl _⟩
            intro other
            simp only [removeFromQueue, KeyMap.modify_apply]
            split <;> simp
          · exact same
  | _ => exact ⟨fun _ => rfl, rfl, rfl, fun _ => .refl _⟩

/-- Whatever point it has reached, a call a sender may ask for leaves the
topology alone. -/
theorem Call.keepsTopology_advance {call : Call}
    (made : (∃ request, call.invocation = .publish request) ∨
      ∃ messageId, call.invocation = .acknowledge messageId)
    (reading : Reading) (state : ServerState) :
    state.KeepsTopology (call.advance reading state).1 := by
  cases call with
  | publish request point =>
      exact keepsTopology_publish state request reading point
  | acknowledge messageId point =>
      exact keepsTopology_acknowledge state messageId reading point
  | declareQueue => simp [Call.invocation] at made
  | declareExchange => simp [Call.invocation] at made
  | bindQueue => simp [Call.invocation] at made
  | registerConsumer => simp [Call.invocation] at made

/-! ## The calls of a receiver -/

theorem Call.gainsNoEntry_advance {call : Call}
    (made : ∀ request, call.invocation ≠ .publish request)
    (reading : Reading) (state : ServerState) :
    state.GainsNoEntry (call.advance reading state).1 := by
  intro queueName
  have access := access_advance reading state call
  generalize (call.advance reading state).1 = after at access ⊢
  cases access with
  | declareQueue _ other =>
      by_cases same : queueName = other
      · subst same
        simp [ServerState.declareQueue]
      · simp [ServerState.declareQueue, same]
  | append request targets queueSet other remaining queue found =>
      exact (made request rfl).elim
  | removeFrom messageId other remaining =>
      simp only [removeFromQueue, KeyMap.modify_apply]
      split
      · cases state.queues queueName with
        | none => exact .refl _
        | some queue => exact List.filter_sublist
      · exact .refl _
  | _ => exact .refl _

namespace Client

variable {client : Client} {invocation : Invocation}

theorem invocation_of_sender (isSender : client.role = .sender)
    (mayInvoke : client.MayInvoke invocation) :
    (∃ request, invocation = .publish request) ∨
      ∃ messageId, invocation = .acknowledge messageId := by
  cases invocation with
  | publish request => exact Or.inl ⟨request, rfl⟩
  | acknowledge messageId => exact Or.inr ⟨messageId, rfl⟩
  | declareQueue =>
      simp [MayInvoke, isSender, AclManager.checkResource] at mayInvoke
  | declareExchange => simp [MayInvoke, isSender] at mayInvoke
  | bindQueue =>
      simp [MayInvoke, isSender, AclManager.checkResource] at mayInvoke
  | registerConsumer => simp [MayInvoke, isSender] at mayInvoke

theorem not_publish_of_receiver (isReceiver : client.role = .receiver)
    (mayInvoke : client.MayInvoke invocation) (request : PublishRequest) :
    invocation ≠ .publish request := by
  rintro rfl
  simp [MayInvoke, isReceiver] at mayInvoke

end Client

namespace Server

/-- The step is taken on behalf of the connection at `index`: by its handler,
by a call its handler waits for, or by a task that hands it a backlog. -/
def ActsFor (server : Server) (index : Nat) : Event → Prop
  | .handler other _ => other = index
  | .advance call _ =>
      ∃ session continuation, server.sessions[index]? = some session ∧
        session.activity = .calling call continuation
  | .runDeliveryTask task =>
      ∃ spawned, server.broker.shared.deliveryTasks[task]? = some spawned ∧
        spawned.channel = index
  | _ => False

def Refused (session : Session) (bytes : List UInt8) (outcome : Outcome) :
    Prop :=
  AclManager.checkCommand session.role
      (splitRequest (requestOf (session.intake.buffer ++ bytes))).1 ≠
    .allowed ∨ outcome.limited = true

/-- What each role is granted, whichever connection uses it. -/
def granted : Rights :=
  fun clientId role invocation =>
    Client.MayInvoke ⟨clientId, role, 0⟩ invocation

theorem granted_publishesAny : granted.PublishesAny :=
  fun _ _ _ _ mayPublish => mayPublish

theorem asksWithin_granted (config : ServerConfig) (server : Server)
    (event : Event) : AsksWithin granted config server event := by
  intro index handlerEvent _ session _ invocation continuation isCall
  have mayInvoke := (asks_of_requestAction isCall).mayInvoke
  cases invocation <;> exact mayInvoke

/-- Connections of clients no role is configured for stay closed. -/
def UnknownClosed (server : Server) : Prop :=
  ∀ session ∈ server.sessions, session.role = .unknown →
    session.isOpen = false

section Runs

variable {config : ServerConfig} {before after server : Server}

theorem owned_of_reached
    (reached : Reachable (step config) (new config) server) :
    Owned granted server := by
  apply owned_of_reachable granted_publishesAny
  exact reached.mono fun state event _ => asksWithin_granted config state event

theorem UnknownClosed.step {event : Event} (closed : UnknownClosed before)
    (stepTo : before.step config event = some after) :
    UnknownClosed after := by
  intro session member isUnknown
  cases event with
  | connect clientId ip outcome =>
      cases stepTo
      obtain ⟨joining, joins⟩ :=
        joins_connect config before clientId ip outcome
      rw [joins.sessions] at member
      rcases List.mem_append.mp member with old | isNew
      · exact closed session old isUnknown
      · rw [List.mem_singleton] at isNew
        subst isNew
        exact (joins.rejected isUnknown).1
  | handler index handlerEvent =>
      obtain ⟨moving, found, handles⟩ := Option.bind_eq_some_iff.mp stepTo
      obtain ⟨next, handled⟩ := handled_handle handles
      rw [handled.sessions] at member
      rcases List.mem_or_eq_of_mem_set member with old | rfl
      · exact closed session old isUnknown
      · rw [handled.role] at isUnknown
        have wasClosed :=
          closed moving (List.mem_of_getElem? found) isUnknown
        by_contra isOpen
        have wasOpen := handled.stays_closed (by simpa using isOpen)
        rw [wasClosed] at wasOpen
        cases wasOpen
  | advance call reading =>
      obtain ⟨broker, -, rfl⟩ := Option.map_eq_some_iff.mp stepTo
      exact closed session member isUnknown
  | runDeliveryTask task =>
      cases stepTo
      exact closed session member isUnknown
  | handshakeFailed =>
      cases stepTo
      exact closed session member isUnknown
  | shutdown =>
      cases stepTo
      exact closed session member isUnknown

theorem unknownClosed_of_reached
    (reached : Reachable (step config) (new config) server) :
    UnknownClosed server := by
  apply reached.invariant UnknownClosed
  · simp [UnknownClosed, new]
  · intro before event after closed _ stepTo
    exact closed.step stepTo

/-- A handler by itself changes none of the maps that calls change. -/
theorem sameMaps_of_handle {index : Nat} {session : Session}
    {event : HandlerEvent}
    (handles : before.handle config index session event = some after) :
    before.broker.shared.SameMaps after.broker.shared := by
  cases moves_handle handles with
  | settles _ _ _ _ maps => exact maps
  | calls _ _ _ _ _ _ _ shared =>
      rw [shared]
      exact before.broker.shared.sameMaps_refl

theorem untouched_of_closed {index : Nat} {session : Session}
    {event : HandlerEvent} (isClosed : session.isOpen = false)
    (handles : before.handle config index session event = some after) :
    before.broker.shared.Untouched after.broker.shared := by
  unfold handle at handles
  unfold Session.isOpen at isClosed
  split at handles <;> rename_i isActive <;>
    simp only [isActive, ne_eq, reduceCtorEq, not_false_eq_true, and_self,
      decide_true, Bool.true_eq_false] at isClosed
  · cases handles
    exact untouched_refl _
  · cases handles

/-- A request that is refused is answered and has no other effect. -/
theorem untouched_of_refused {index : Nat} {session : Session}
    {bytes : List UInt8} {outcome : Outcome}
    (refused : Refused session bytes outcome)
    (handles : before.handle config index session
      (.read (some bytes) outcome) = some after) :
    before.broker.shared.Untouched after.broker.shared := by
  have refuses : ∃ text, (session.client index).handleRequest config.codec
      outcome.limited outcome.now
      (requestOf (session.intake.buffer ++ bytes)) = .refuse text := by
    rcases Client.handleRequest_cases config.codec (session.client index)
      outcome.limited outcome.now
      (requestOf (session.intake.buffer ++ bytes)) with
      refuses | ⟨permitted, unlimited, -⟩
    · exact refuses
    · rcases refused with denied | limited
      · exact (denied permitted).elim
      · rw [limited] at unlimited
        cases unlimited
  obtain ⟨text, refuses⟩ := refuses
  cases isWaiting : session.activity with
  | waiting =>
      simp only [handle, isWaiting, Option.some.injEq] at handles
      subst handles
      cases bytes with
      | nil => exact ⟨⟨rfl, rfl, rfl, rfl, rfl⟩, rfl, rfl⟩
      | cons byte bytes =>
          simp only [read, refuses]
          exact untouched_refl _
  | calling => simp [handle, isWaiting] at handles
  | querying => simp [handle, isWaiting] at handles
  | delivering => simp [handle, isWaiting] at handles
  | returned => simp [handle, isWaiting] at handles
  | ended => simp [handle, isWaiting] at handles

/-- A call that advances on behalf of a connection is one its role was
granted. -/
theorem granted_of_advance {index call : Nat} {session : Session}
    {reading : Reading} (owned : Owned granted before)
    (found : before.sessions[index]? = some session)
    (actsFor : before.ActsFor index (.advance call reading))
    (stepTo : before.step config (.advance call reading) = some after) :
    ∃ made : Call, granted session.clientId session.role made.invocation ∧
      after.broker.shared = (made.advance reading before.broker.shared).1 ∧
      ∃ continuation, session.activity = .calling call continuation := by
  obtain ⟨calling, continuation, callingFound, isCalling⟩ := actsFor
  rw [found] at callingFound
  cases callingFound
  obtain ⟨made, madeFound, hasRight, -⟩ :=
    owned.asked index session call continuation found isCalling
  obtain ⟨broker, stepped, rfl⟩ := Option.map_eq_some_iff.mp stepTo
  obtain ⟨advanced, advancedFound, -, rfl⟩ := Broker.advance_cases stepped
  rw [madeFound] at advancedFound
  cases advancedFound
  exact ⟨made, hasRight, rfl, continuation, isCalling⟩

/-- Every step that changes a map is taken on behalf of some connection. -/
theorem actsFor_or_sameMaps {event : Event}
    (reached : Reachable (step config) (new config) before)
    (stepTo : before.step config event = some after) :
    (∃ index session, before.sessions[index]? = some session ∧
      before.ActsFor index event) ∨
      before.broker.shared.SameMaps after.broker.shared := by
  cases event with
  | connect clientId ip outcome =>
      cases stepTo
      obtain ⟨session, joins⟩ :=
        joins_connect config before clientId ip outcome
      exact Or.inr joins.maps
  | handler index handlerEvent =>
      obtain ⟨session, found, -⟩ := Option.bind_eq_some_iff.mp stepTo
      exact Or.inl ⟨index, session, found, rfl⟩
  | advance call reading =>
      obtain ⟨broker, stepped, -⟩ := Option.map_eq_some_iff.mp stepTo
      obtain ⟨made, found, running, -⟩ := Broker.advance_cases stepped
      obtain ⟨index, session, continuation, atIndex, isCalling⟩ :=
        (owned_of_reached reached).owner call made found running
      exact Or.inl ⟨index, session, atIndex, session, continuation, atIndex,
        isCalling⟩
  | runDeliveryTask task =>
      cases stepTo
      exact Or.inr (untouched_runDeliveryTask _ task).maps
  | handshakeFailed =>
      cases stepTo
      exact Or.inr ⟨rfl, rfl, rfl, rfl, rfl⟩
  | shutdown =>
      cases stepTo
      exact Or.inr ⟨rfl, rfl, rfl, rfl, rfl⟩

theorem keepsTopology_of_sender {event : Event} {index : Nat}
    {session : Session} (owned : Owned granted before)
    (found : before.sessions[index]? = some session)
    (actsFor : before.ActsFor index event)
    (stepTo : before.step config event = some after)
    (isSender : session.role = .sender) :
    before.broker.shared.KeepsTopology after.broker.shared := by
  cases event with
  | handler other handlerEvent =>
      obtain ⟨moving, -, handles⟩ := Option.bind_eq_some_iff.mp stepTo
      exact (sameMaps_of_handle handles).keepsTopology
  | advance call reading =>
      obtain ⟨made, hasRight, shared, -⟩ :=
        granted_of_advance owned found actsFor stepTo
      rw [shared]
      exact Call.keepsTopology_advance
        (Client.invocation_of_sender isSender hasRight) reading _
  | runDeliveryTask task =>
      cases stepTo
      exact (untouched_runDeliveryTask _ task).maps.keepsTopology
  | connect => exact actsFor.elim
  | handshakeFailed => exact actsFor.elim
  | shutdown => exact actsFor.elim

theorem gainsNoEntry_of_receiver {event : Event} {index : Nat}
    {session : Session} (owned : Owned granted before)
    (found : before.sessions[index]? = some session)
    (actsFor : before.ActsFor index event)
    (stepTo : before.step config event = some after)
    (isReceiver : session.role = .receiver) :
    before.broker.shared.GainsNoEntry after.broker.shared := by
  cases event with
  | handler other handlerEvent =>
      obtain ⟨moving, -, handles⟩ := Option.bind_eq_some_iff.mp stepTo
      exact (sameMaps_of_handle handles).gainsNoEntry
  | advance call reading =>
      obtain ⟨made, hasRight, shared, -⟩ :=
        granted_of_advance owned found actsFor stepTo
      rw [shared]
      exact Call.gainsNoEntry_advance
        (Client.not_publish_of_receiver isReceiver hasRight) reading _
  | runDeliveryTask task =>
      cases stepTo
      exact (untouched_runDeliveryTask _ task).maps.gainsNoEntry
  | connect => exact actsFor.elim
  | handshakeFailed => exact actsFor.elim
  | shutdown => exact actsFor.elim

theorem untouched_of_unknown {event : Event} {index : Nat}
    {session : Session} (owned : Owned granted before)
    (closed : UnknownClosed before)
    (found : before.sessions[index]? = some session)
    (actsFor : before.ActsFor index event)
    (stepTo : before.step config event = some after)
    (isUnknown : session.role = .unknown) :
    before.broker.shared.Untouched after.broker.shared := by
  have isClosed := closed session (List.mem_of_getElem? found) isUnknown
  cases event with
  | handler other handlerEvent =>
      cases actsFor
      obtain ⟨moving, movingFound, handles⟩ :=
        Option.bind_eq_some_iff.mp stepTo
      rw [found] at movingFound
      cases movingFound
      exact untouched_of_closed isClosed handles
  | advance call reading =>
      obtain ⟨-, -, -, continuation, isCalling⟩ :=
        granted_of_advance owned found actsFor stepTo
      simp [Session.isOpen, isCalling] at isClosed
  | runDeliveryTask task =>
      cases stepTo
      exact untouched_runDeliveryTask _ task
  | connect => exact actsFor.elim
  | handshakeFailed => exact actsFor.elim
  | shutdown => exact actsFor.elim

/-- In every run, a step on behalf of a sender leaves the topology alone, one
on behalf of a receiver puts nothing into a queue, and a client of no known
role and a refused request change nothing. -/
theorem role_separation {event : Event}
    (reached : Reachable (step config) (new config) before)
    (stepTo : before.step config event = some after) :
    (∀ index session, before.sessions[index]? = some session →
      before.ActsFor index event →
        (session.role = .sender →
          before.broker.shared.KeepsTopology after.broker.shared) ∧
        (session.role = .receiver →
          before.broker.shared.GainsNoEntry after.broker.shared) ∧
        (session.role = .unknown →
          before.broker.shared.Untouched after.broker.shared)) ∧
    (∀ clientId ip outcome, event = .connect clientId ip outcome →
      config.acl.resolveRole clientId = .unknown →
        before.broker.shared.Untouched after.broker.shared) ∧
    ∀ index session bytes outcome,
      event = .handler index (.read (some bytes) outcome) →
        before.sessions[index]? = some session →
          Refused session bytes outcome →
            before.broker.shared.Untouched after.broker.shared := by
  have owned := owned_of_reached reached
  have closed := unknownClosed_of_reached reached
  refine ⟨?_, ?_, ?_⟩
  · intro index session found actsFor
    exact ⟨keepsTopology_of_sender owned found actsFor stepTo,
      gainsNoEntry_of_receiver owned found actsFor stepTo,
      untouched_of_unknown owned closed found actsFor stepTo⟩
  · rintro clientId ip outcome rfl isUnknown
    cases stepTo
    obtain ⟨session, joins⟩ := joins_connect config before clientId ip outcome
    have unchanged := (joins.rejected (joins.role.trans isUnknown)).2
    rw [unchanged]
    exact untouched_refl _
  · rintro index session bytes outcome rfl found refused
    obtain ⟨moving, movingFound, handles⟩ :=
      Option.bind_eq_some_iff.mp stepTo
    rw [found] at movingFound
    cases movingFound
    exact untouched_of_refused refused handles

end Runs

/-- `receiver_1` sets up its queue, and a publish of `sender_1` has found
it. -/
def routedRun : List Event :=
  [.connect "receiver_1" "10.0.0.1" .smooth,
    .connect "sender_1" "10.0.0.3" .smooth] ++
  request 0 "declare_queue receiver_1_queue\n" 0 1 ++
  request 0 "declare_exchange e\n" 1 1 ++
  request 0 "bind receiver_1_queue e receiver_1_key\n" 2 3 ++
  [.handler 1 (.read (some (Utf8.encode
    ("publish e receiver_1_key " ++ sampleJson ++ "\n"))) .smooth)] ++
  List.replicate 3 (.advance 3 ⟨.ok (), 1, "t"⟩)

/-- The access with which the publish fills the queue leaves the topology
alone. -/
theorem role_separation_publish :
    ∃ before after,
      Reachable (step sampleConfig) (new sampleConfig) before ∧
      before.step sampleConfig (.advance 3 ⟨.ok (), 1, "t"⟩) = some after ∧
      (before.broker.shared.queues "receiver_1_queue").map List.length =
        some 0 ∧
      (after.broker.shared.queues "receiver_1_queue").map List.length =
        some 1 ∧
      before.broker.shared.KeepsTopology after.broker.shared := by
  have ran : ((executeWhile (step sampleConfig) (fun _ _ => True)
      (new sampleConfig) routedRun).bind fun before =>
        (before.step sampleConfig (.advance 3 ⟨.ok (), 1, "t"⟩)).map
          fun after =>
            (before.sessions[1]?.map fun session =>
                (session.role, session.activity),
              (before.broker.shared.queues "receiver_1_queue").map
                List.length,
              (after.broker.shared.queues "receiver_1_queue").map
                List.length)) =
      some (some (.sender, .calling 3 (.confirmPublish "m1")), some 0,
        some 1) := by
    decide +kernel
  obtain ⟨before, executed, stepped⟩ := Option.bind_eq_some_iff.mp ran
  obtain ⟨after, stepTo, data⟩ := Option.map_eq_some_iff.mp stepped
  simp only [Prod.mk.injEq] at data
  obtain ⟨atOne, wasEmpty, isFilled⟩ := data
  obtain ⟨session, found, isSession⟩ := Option.map_eq_some_iff.mp atOne
  simp only [Prod.mk.injEq] at isSession
  obtain ⟨isSender, isCalling⟩ := isSession
  have reached : Reachable (step sampleConfig) (new sampleConfig) before :=
    reachableWhile_of_executeWhile executed
  have separated := (role_separation reached stepTo).1 1 session found
    ⟨session, _, found, isCalling⟩
  exact ⟨before, after, reached, stepTo, wasEmpty, isFilled,
    separated.1 isSender⟩

end Server

end CipherMQ
