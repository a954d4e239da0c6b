import CipherMQ.RoleSeparation

/-!
# Which routing keys a receiver is bound under

A publish copies its message into every queue bound under its routing key, so
the bindings decide whose messages a receiver gets.  The access control knows
which queues and which routing keys belong to a receiver, but `bind` asks it
about the queue only.  While receivers bind under their own routing keys,
every binding was made by an administrator or by a receiver that owns both the
queue and the routing key.
-/

namespace CipherMQ

open ServerState

namespace Server

def OwnsKey (clientId : String) (role : Role) (routingKey : String) : Prop :=
  role = .receiver →
    AclManager.checkResource .receiver clientId "routing_key" routingKey =
      .allowed

instance (clientId : String) (role : Role) (routingKey : String) :
    Decidable (OwnsKey clientId role routingKey) :=
  inferInstanceAs (Decidable (_ → _))

def boundKey : Action → Option String
  | .call (.bindQueue _ _ routingKey) _ => some routingKey
  | _ => none

/-- No receiver binds a queue under a routing key of another client. -/
def BindsOwn (config : ServerConfig) (server : Server) : Event → Prop
  | .handler index event =>
      ∀ session ∈ server.sessions[index]?,
        ∀ action ∈ requestAction config index session event,
          ∀ routingKey ∈ boundKey action,
            OwnsKey session.clientId session.role routingKey
  | _ => True

instance (config : ServerConfig) (server : Server) (event : Event) :
    Decidable (BindsOwn config server event) :=
  match event with
  | .handler index event =>
      inferInstanceAs (Decidable (∀ session ∈ server.sessions[index]?,
        ∀ action ∈ requestAction config index session event,
          ∀ routingKey ∈ boundKey action,
            OwnsKey session.clientId session.role routingKey))
  | .handshakeFailed => instDecidableTrue
  | .connect _ _ _ => instDecidableTrue
  | .advance _ _ => instDecidableTrue
  | .runDeliveryTask _ => instDecidableTrue
  | .shutdown => instDecidableTrue

/-- What the access control grants, with binds under own routing keys only. -/
def grantedOwnKeys : Rights :=
  fun clientId role invocation =>
    granted clientId role invocation ∧
      ∀ queueName exchangeName routingKey,
        invocation = .bindQueue queueName exchangeName routingKey →
          OwnsKey clientId role routingKey

theorem grantedOwnKeys_publishesAny : grantedOwnKeys.PublishesAny := by
  intro clientId role request other mayPublish
  exact ⟨mayPublish.1, by simp⟩

theorem asksWithin_of_bindsOwn {config : ServerConfig} {server : Server}
    {event : Event} (bindsOwn : BindsOwn config server event) :
    AsksWithin grantedOwnKeys config server event := by
  rintro index handlerEvent rfl session found invocation continuation isCall
  refine ⟨asksWithin_granted config server _ index handlerEvent rfl session
    found invocation continuation isCall, ?_⟩
  rintro queueName exchangeName routingKey rfl
  exact bindsOwn session found _ isCall routingKey rfl

/-- The connections whose binding a queue is under a routing key keeps
receivers apart. -/
def MayBind (session : Session) (queueName routingKey : String) : Prop :=
  session.role = .admin ∨
    session.role = .receiver ∧
      AclManager.checkResource .receiver session.clientId "queue" queueName =
        .allowed ∧
      AclManager.checkResource .receiver session.clientId "routing_key"
        routingKey = .allowed

theorem mayBind_of_granted {session : Session}
    {queueName exchangeName routingKey : String}
    (hasRight : grantedOwnKeys session.clientId session.role
      (.bindQueue queueName exchangeName routingKey)) :
    MayBind session queueName routingKey := by
  obtain ⟨ownQueue, ownKeys⟩ := hasRight
  have ownKey := ownKeys queueName exchangeName routingKey rfl
  change AclManager.checkResource session.role session.clientId "queue"
    queueName = .allowed at ownQueue
  cases isRole : session.role with
  | admin => exact Or.inl isRole
  | receiver =>
      rw [isRole] at ownQueue
      exact Or.inr ⟨isRole, ownQueue, ownKey isRole⟩
  | sender => simp [isRole, AclManager.checkResource] at ownQueue
  | unknown => simp [isRole, AclManager.checkResource] at ownQueue

section Runs

variable {config : ServerConfig} {before after server : Server}

/-- A binding is gained only by a call that some connection waits for, and
every connection the step acts for has the right to bind so. -/
theorem right_of_gained {rights : Rights} {event : Event}
    {exchangeName routingKey queueName : String}
    (owned : Owned rights before)
    (stepTo : before.step config event = some after)
    (bound : after.broker.shared.Bound exchangeName routingKey queueName)
    (fresh : ¬ before.broker.shared.Bound exchangeName routingKey
      queueName) :
    (∃ index session, before.sessions[index]? = some session ∧
      before.ActsFor index event) ∧
      ∀ index session, before.sessions[index]? = some session →
        before.ActsFor index event →
          rights session.clientId session.role
            (.bindQueue queueName exchangeName routingKey) := by
  -- a step that keeps the bindings gains none
  have changes : after.broker.shared.bindings ≠
      before.broker.shared.bindings := by
    intro same
    apply fresh
    unfold Bound
    rw [← same]
    exact bound
  cases event with
  | advance call reading =>
      obtain ⟨broker, stepped, rfl⟩ := Option.map_eq_some_iff.mp stepTo
      obtain ⟨made, found, running, rfl⟩ := Broker.advance_cases stepped
      have access := access_advance reading before.broker.shared made
      by_cases binds : ∃ queue exchange key,
          made = .bindQueue queue exchange key .insertBinding
      · obtain ⟨queue, exchange, key, rfl⟩ := binds
        rcases (bound_insertBinding _ _ _ _ _ _ _).mp bound with
          old | ⟨rfl, rfl, rfl⟩
        · exact (fresh old).elim
        constructor
        · obtain ⟨index, session, continuation, atIndex, isCalling⟩ :=
            owned.owner call _ found running
          exact ⟨index, session, atIndex, session, continuation, atIndex,
            isCalling⟩
        · intro index session atIndex actsFor
          obtain ⟨calling, continuation, callingFound, isCalling⟩ := actsFor
          rw [atIndex] at callingFound
          cases callingFound
          obtain ⟨asked, askedFound, hasRight, -⟩ :=
            owned.asked index session call continuation atIndex isCalling
          rw [found] at askedFound
          cases askedFound
          exact hasRight
      · refine (changes (access.bindings_eq ?_)).elim
        intro queue exchange key isBind
        exact binds ⟨queue, exchange, key, isBind⟩
  | connect clientId ip outcome =>
      cases stepTo
      obtain ⟨session, joins⟩ :=
        joins_connect config before clientId ip outcome
      exact (changes joins.maps.bindings).elim
  | handler index handlerEvent =>
      obtain ⟨session, -, handles⟩ := Option.bind_eq_some_iff.mp stepTo
      exact (changes (sameMaps_of_handle handles).bindings).elim
  | runDeliveryTask task =>
      cases stepTo
      exact (changes (untouched_runDeliveryTask _ task).maps.bindings).elim
  | handshakeFailed =>
      cases stepTo
      exact (changes rfl).elim
  | shutdown =>
      cases stepTo
      exact (changes rfl).elim

theorem mayBind_of_gained {event : Event}
    {exchangeName routingKey queueName : String}
    (owned : Owned grantedOwnKeys before)
    (stepTo : before.step config event = some after)
    (bound : after.broker.shared.Bound exchangeName routingKey queueName)
    (fresh : ¬ before.broker.shared.Bound exchangeName routingKey
      queueName) :
    (∃ index session, before.sessions[index]? = some session ∧
      before.ActsFor index event) ∧
      ∀ index session, before.sessions[index]? = some session →
        before.ActsFor index event →
          MayBind session queueName routingKey := by
  obtain ⟨acts, hasRight⟩ := right_of_gained owned stepTo bound fresh
  refine ⟨acts, ?_⟩
  intro index session atIndex actsFor
  exact mayBind_of_granted (hasRight index session atIndex actsFor)

theorem session_kept {event : Event} {session : Session}
    (stepTo : before.step config event = some after)
    (member : session ∈ before.sessions) :
    ∃ next ∈ after.sessions,
      next.role = session.role ∧ next.clientId = session.clientId := by
  rcases step_cases stepTo with ⟨joining, connected⟩ |
    ⟨index, handlerEvent, moving, next, -, found, handled⟩ | ⟨sessions, -, -⟩
  · rw [connected.sessions]
    exact ⟨session, List.mem_append_left _ member, rfl, rfl⟩
  · obtain ⟨position, atPosition⟩ := List.mem_iff_getElem?.mp member
    by_cases same : position = index
    · subst same
      rw [found] at atPosition
      cases atPosition
      have moved := getElem?_set_moved found next
      rw [← handled.sessions] at moved
      exact ⟨next, List.mem_of_getElem? moved, handled.role,
        handled.clientId⟩
    · refine ⟨session, ?_, rfl, rfl⟩
      rw [handled.sessions]
      have stays := (List.getElem?_set_ne (a := next)
        (Ne.symm same)).trans atPosition
      exact List.mem_of_getElem? stays
  · rw [sessions]
    exact ⟨session, member, rfl, rfl⟩

def BoundByOwners (server : Server) : Prop :=
  ∀ exchangeName routingKey queueName,
    server.broker.shared.Bound exchangeName routingKey queueName →
      ∃ session ∈ server.sessions, MayBind session queueName routingKey

theorem BoundByOwners.step {event : Event}
    (boundBy : BoundByOwners before)
    (owned : Owned grantedOwnKeys before)
    (stepTo : before.step config event = some after) :
    BoundByOwners after := by
  intro exchangeName routingKey queueName bound
  have binder : ∃ session ∈ before.sessions,
      MayBind session queueName routingKey := by
    by_cases old :
        before.broker.shared.Bound exchangeName routingKey queueName
    · exact boundBy exchangeName routingKey queueName old
    · obtain ⟨⟨index, session, found, actsFor⟩, mayBind⟩ :=
        mayBind_of_gained owned stepTo bound old
      exact ⟨session, List.mem_of_getElem? found,
        mayBind index session found actsFor⟩
  obtain ⟨session, member, mayBind⟩ := binder
  obtain ⟨next, nextMember, role, clientId⟩ := session_kept stepTo member
  refine ⟨next, nextMember, ?_⟩
  unfold MayBind
  rwa [role, clientId]

/-- In every run in which receivers bind under their own routing keys, every
binding that is gained belongs to the connection it is gained for, and a
message is copied only into queues that an administrator, or a receiver that
owns both the queue and the routing key, has bound. -/
theorem routes_own_of_bindsOwn
    (reached : ReachableWhile (step config) (BindsOwn config) (new config)
      server) :
    (∀ event after exchangeName routingKey queueName,
      server.step config event = some after →
        after.broker.shared.Bound exchangeName routingKey queueName →
          ¬ server.broker.shared.Bound exchangeName routingKey queueName →
            (∃ index session, server.sessions[index]? = some session ∧
              server.ActsFor index event) ∧
            ∀ index session, server.sessions[index]? = some session →
              server.ActsFor index event →
                MayBind session queueName routingKey) ∧
    ∀ exchangeName routingKey,
      ∀ queueName ∈
          server.broker.shared.targetQueues exchangeName routingKey,
        ∃ session ∈ server.sessions,
          MayBind session queueName routingKey := by
  have both : Owned grantedOwnKeys server ∧ BoundByOwners server := by
    apply reached.invariant fun server =>
      Owned grantedOwnKeys server ∧ BoundByOwners server
    · refine ⟨owned_new _ config, ?_⟩
      simp [BoundByOwners, Bound, new, Broker.new, ServerState.new]
    · rintro before event after ⟨owned, boundBy⟩ bindsOwn stepTo
      exact ⟨owned.step grantedOwnKeys_publishesAny
        (asksWithin_of_bindsOwn bindsOwn) stepTo,
        boundBy.step owned stepTo⟩
  obtain ⟨owned, boundBy⟩ := both
  constructor
  · intro event after exchangeName routingKey queueName stepTo bound fresh
    exact mayBind_of_gained owned stepTo bound fresh
  · intro exchangeName routingKey queueName member
    exact boundBy exchangeName routingKey queueName
      ((mem_targetQueues _ _ _ _).mp member)

end Runs

def bindingRun (routingKey : String) : List Event :=
  [.connect "receiver_1" "10.0.0.1" .smooth] ++
  request 0 "declare_queue receiver_1_queue\n" 0 1 ++
  request 0 "declare_exchange e\n" 1 1 ++
  [.handler 0 (.read (some (Utf8.encode
    ("bind receiver_1_queue e " ++ routingKey ++ "\n"))) .smooth)] ++
  List.replicate 2 (.advance 2 ⟨.ok (), 1, "t"⟩)

/-- What can be seen of the bind of `bindingRun`: the connection it is for,
and the queues bound under the routing key before and after. -/
def bindingSeen (routingKey : String) (before after : Server) :
    Option (String × Role × Activity) × List String × List String :=
  (before.sessions[0]?.map fun session =>
      (session.clientId, session.role, session.activity),
    before.broker.shared.targetQueues "e" routingKey,
    after.broker.shared.targetQueues "e" routingKey)

theorem exists_binding (condition : Server → Event → Prop)
    [∀ server event, Decidable (condition server event)]
    (routingKey : String)
    (ran : ((executeWhile (step sampleConfig) condition (new sampleConfig)
      (bindingRun routingKey)).bind fun before =>
        (before.step sampleConfig (.advance 2 ⟨.ok (), 1, "t"⟩)).map
          (bindingSeen routingKey before)) =
      some (some ("receiver_1", .receiver, .calling 2 (.reply
        "Queue bound\n")), [], ["receiver_1_queue"])) :
    ∃ before after session,
      ReachableWhile (step sampleConfig) condition (new sampleConfig)
        before ∧
      before.step sampleConfig (.advance 2 ⟨.ok (), 1, "t"⟩) = some after ∧
      before.sessions[0]? = some session ∧
      session.clientId = "receiver_1" ∧ session.role = .receiver ∧
      before.ActsFor 0 (.advance 2 ⟨.ok (), 1, "t"⟩) ∧
      before.broker.shared.targetQueues "e" routingKey = [] ∧
      after.broker.shared.targetQueues "e" routingKey =
        ["receiver_1_queue"] := by
  obtain ⟨before, executed, stepped⟩ := Option.bind_eq_some_iff.mp ran
  obtain ⟨after, stepTo, seen⟩ := Option.map_eq_some_iff.mp stepped
  simp only [bindingSeen, Prod.mk.injEq] at seen
  obtain ⟨atZero, noneBefore, boundAfter⟩ := seen
  obtain ⟨session, found, isSession⟩ := Option.map_eq_some_iff.mp atZero
  simp only [Prod.mk.injEq] at isSession
  obtain ⟨isFirst, isReceiver, isCalling⟩ := isSession
  exact ⟨before, after, session, reachableWhile_of_executeWhile executed,
    stepTo, found, isFirst, isReceiver, ⟨session, _, found, isCalling⟩,
    noneBefore, boundAfter⟩

/-- A bind of `receiver_1` under its own routing key. -/
theorem routes_own_of_bindsOwn_receiver :
    ∃ before after session,
      ReachableWhile (step sampleConfig) (BindsOwn sampleConfig)
        (new sampleConfig) before ∧
      before.step sampleConfig (.advance 2 ⟨.ok (), 1, "t"⟩) = some after ∧
      before.sessions[0]? = some session ∧ session.role = .receiver ∧
      "receiver_1_queue" ∈
        after.broker.shared.targetQueues "e" "receiver_1_key" ∧
      MayBind session "receiver_1_queue" "receiver_1_key" := by
  obtain ⟨before, after, session, reached, stepTo, found, -, isReceiver,
    actsFor, noneBefore, boundAfter⟩ :=
    exists_binding (BindsOwn sampleConfig) "receiver_1_key"
      (by decide +kernel)
  have member : "receiver_1_queue" ∈
      after.broker.shared.targetQueues "e" "receiver_1_key" := by
    rw [boundAfter]
    exact List.mem_singleton_self _
  have fresh : ¬ before.broker.shared.Bound "e" "receiver_1_key"
      "receiver_1_queue" := by
    rw [← mem_targetQueues, noneBefore]
    exact List.not_mem_nil
  have gained := (routes_own_of_bindsOwn reached).1 _ after "e"
    "receiver_1_key" "receiver_1_queue" stepTo
    ((mem_targetQueues _ _ _ _).mp member) fresh
  exact ⟨before, after, session, reached, stepTo, found, isReceiver, member,
    gained.2 0 session found actsFor⟩

/-- `receiver_1` binds its queue under a routing key of `receiver_2`, and
messages published under that key go to its queue from then on. -/
theorem foreign_routing_key_bound :
    ∃ before after session,
      Reachable (step sampleConfig) (new sampleConfig) before ∧
      before.step sampleConfig (.advance 2 ⟨.ok (), 1, "t"⟩) = some after ∧
      before.sessions[0]? = some session ∧
      session.clientId = "receiver_1" ∧ session.role = .receiver ∧
      before.ActsFor 0 (.advance 2 ⟨.ok (), 1, "t"⟩) ∧
      before.broker.shared.targetQueues "e" "receiver_2_key" = [] ∧
      after.broker.shared.targetQueues "e" "receiver_2_key" =
        ["receiver_1_queue"] ∧
      AclManager.checkResource .receiver "receiver_1" "routing_key"
        "receiver_2_key" =
          .denied "resource access denied for this role" := by
  obtain ⟨before, after, session, reached, stepTo, found, isFirst,
    isReceiver, actsFor, noneBefore, boundAfter⟩ :=
    exists_binding (fun _ _ => True) "receiver_2_key" (by decide +kernel)
  exact ⟨before, after, session, reached, stepTo, found, isFirst, isReceiver,
    actsFor, noneBefore, boundAfter, by decide⟩

end Server

end CipherMQ
