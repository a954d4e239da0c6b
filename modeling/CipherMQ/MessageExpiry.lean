import CipherMQ.DeliveryAttempts
import CipherMQ.HandlerBooks

/-!
# Expiry of delivered messages

A task is to remove the messages that were delivered long ago and never
acknowledged.  It is started with a clone of the broker's state, and cloning
the maps copies their contents.  So the task works on maps of its own, which
were empty when they were copied and which no handler ever fills: it finds
nothing to remove, and it never touches the maps of the handlers.  A pass is
certain to remove the messages that are due exactly if there are none.
-/

namespace CipherMQ

namespace MessageStatus

/-- The message was delivered more than `maxAge` ago and not acknowledged. -/
def isExpired (maxAge now : Nat) (status : MessageStatus) : Bool :=
  match status.deliveredTime with
  | some deliveredTime =>
      decide (now - deliveredTime > maxAge) && status.acknowledgedTime.isNone
  | none => false

end MessageStatus

namespace ServerState

structure Gone (state : ServerState) (messageId : String) : Prop where
  queues : ∀ queueName queue, state.queues queueName = some queue →
    ∀ message, (messageId, message) ∉ queue
  messageQueues : state.messageQueues messageId = none
  messageStatus : state.messageStatus messageId = none

end ServerState

/-- Where the task stands.  The accesses by which it removes a message are
those of an acknowledgement that has found its message. -/
inductive ExpiryPoint where
  | sleeping
  | scanning (now : Nat) (visited expired : List String)
  | expiring (expired : List String)
  | removing (messageId : String) (point : AcknowledgePoint)
      (expired : List String)
  deriving DecidableEq, Repr

/-- The task has not come upon an expired message in its pass. -/
def ExpiryPoint.foundNothing : ExpiryPoint → Bool
  | .sleeping => true
  | .scanning _ _ expired => expired.isEmpty
  | .expiring expired => expired.isEmpty
  | .removing _ _ _ => false

/-- The server with its clock and the task, which has a copy of the broker's
state. -/
structure ExpiringServer where
  server : Server
  clock : Nat
  copy : ServerState
  task : ExpiryPoint

namespace ExpiringServer

/-- The state of the broker is cloned when it is new. -/
def new (config : ServerConfig) : ExpiringServer where
  server := .new config
  clock := 0
  copy := (Server.new config).broker.shared
  task := .sleeping

/-- What can happen next: something in the server, time passes, or the task
goes on. -/
inductive Event where
  | server (event : Server.Event)
  | tick (elapsed : Nat)
  | startPass
  | visit (messageId : String)
  | endScan
  | expireNext
  | remove

def step (maxAge : Nat) (config : ServerConfig) (state : ExpiringServer) :
    Event → Option ExpiringServer
  | .server event =>
      (state.server.step config (event.atTime state.clock)).map fun server =>
        { state with server := server }
  | .tick elapsed => some { state with clock := state.clock + elapsed }
  | .startPass =>
      match state.task with
      | .sleeping => some { state with task := .scanning state.clock [] [] }
      | _ => none
  | .visit messageId =>
      match state.task, state.copy.messageStatus messageId with
      | .scanning now visited expired, some status =>
          if messageId ∈ visited then
            none
          else
            some { state with
              task := .scanning now (visited ++ [messageId])
                (if status.isExpired maxAge now then expired ++ [messageId]
                  else expired) }
      | _, _ => none
  | .endScan =>
      match state.task with
      | .scanning _ _ expired => some { state with task := .expiring expired }
      | _ => none
  | .expireNext =>
      match state.task with
      | .expiring (messageId :: expired) =>
          some { state with
            task := .removing messageId .readQueueSet expired }
      | .expiring [] => some { state with task := .sleeping }
      | _ => none
  | .remove =>
      match state.task with
      | .removing messageId point expired =>
          let removed := state.copy.acknowledgeStep messageId
            ⟨.ok (), state.clock, ""⟩ point
          some { state with
            copy := removed.1
            task :=
              if removed.2 = .returned then .expiring expired
              else .removing messageId removed.2 expired }
      | _ => none

def IsDue (maxAge : Nat) (state : ExpiringServer) (messageId : String) :
    Prop :=
  ∃ status, state.server.broker.shared.messageStatus messageId =
    some status ∧ status.isExpired maxAge state.clock = true

/-- A run from the start of a pass to its end, with whatever the server does
in between. -/
def CompletesPass (maxAge : Nat) (config : ServerConfig)
    (started final : ExpiringServer) : Prop :=
  ReachableWhile (step maxAge config)
      (fun state _ => state.task ≠ .sleeping) started final ∧
    final.task = .sleeping

/-- There is nothing in the copy, and the task has found nothing. -/
structure FindsNothing (config : ServerConfig) (state : ExpiringServer) :
    Prop where
  copy : state.copy = .new config.maxQueueSize
  task : state.task.foundNothing = true

theorem FindsNothing.step_cases {maxAge : Nat} {config : ServerConfig}
    {before after : ExpiringServer} {event : Event}
    (nothing : FindsNothing config before)
    (stepTo : before.step maxAge config event = some after) :
    FindsNothing config after ∧
      ((∃ serverEvent, event = .server serverEvent) ∨
        after.server = before.server) := by
  obtain ⟨copy, task⟩ := nothing
  cases event with
  | server serverEvent =>
      obtain ⟨server, -, rfl⟩ := Option.map_eq_some_iff.mp stepTo
      exact ⟨⟨copy, task⟩, .inl ⟨serverEvent, rfl⟩⟩
  | tick elapsed =>
      cases stepTo
      exact ⟨⟨copy, task⟩, .inr rfl⟩
  | startPass =>
      simp only [step] at stepTo
      split at stepTo
      · cases stepTo
        exact ⟨⟨copy, rfl⟩, .inr rfl⟩
      · cases stepTo
  | visit messageId =>
      -- There is nothing to look at in the copy.
      have missing : before.copy.messageStatus messageId = none := by
        rw [copy]
        rfl
      simp [step, missing] at stepTo
  | endScan =>
      simp only [step] at stepTo
      split at stepTo
      · rename_i now visited expired isScanning
        cases stepTo
        rw [isScanning] at task
        exact ⟨⟨copy, task⟩, .inr rfl⟩
      · cases stepTo
  | expireNext =>
      simp only [step] at stepTo
      split at stepTo
      · rename_i messageId expired isExpiring
        rw [isExpiring] at task
        cases task
      · cases stepTo
        exact ⟨⟨copy, rfl⟩, .inr rfl⟩
      · cases stepTo
  | remove =>
      simp only [step] at stepTo
      split at stepTo
      · rename_i messageId point expired isRemoving
        rw [isRemoving] at task
        cases task
      · cases stepTo

theorem findsNothing_of_reachable {maxAge : Nat} {config : ServerConfig}
    {state : ExpiringServer}
    (reached : Reachable (step maxAge config) (new config) state) :
    FindsNothing config state := by
  apply reached.invariant (FindsNothing config)
  · exact ⟨rfl, rfl⟩
  · intro before event after nothing _ stepTo
    exact (nothing.step_cases stepTo).1

theorem completesPass_alone {maxAge : Nat} {config : ServerConfig}
    {state started : ExpiringServer}
    (starts : state.step maxAge config .startPass = some started) :
    CompletesPass maxAge config started
      { started with task := .sleeping } ∧
    started.server = state.server := by
  simp only [step] at starts
  split at starts
  · cases starts
    refine ⟨⟨?_, rfl⟩, rfl⟩
    have scanned : ReachableWhile (step maxAge config)
        (fun state _ => state.task ≠ .sleeping)
        { state with task := .scanning state.clock [] [] }
        { state with task := .expiring [] } :=
      .single .endScan (by simp) rfl
    exact .next .expireNext scanned (by simp) rfl
  · cases starts

/-- In every run the copy stays empty and the task leaves the server as it is.
So a pass is certain to remove the messages that are due when it starts
exactly if there are none. -/
theorem pass_expires_iff {maxAge : Nat} {config : ServerConfig}
    {state : ExpiringServer}
    (reached : Reachable (step maxAge config) (new config) state) :
    state.copy = .new config.maxQueueSize ∧
    (∀ event after, state.step maxAge config event = some after →
      (∃ serverEvent, event = .server serverEvent) ∨
        after.server = state.server) ∧
    ∀ started, state.step maxAge config .startPass = some started →
      ((∀ final, CompletesPass maxAge config started final →
          ∀ messageId, IsDue maxAge state messageId →
            final.server.broker.shared.Gone messageId) ↔
        ∀ messageId, ¬ IsDue maxAge state messageId) := by
  have nothing := findsNothing_of_reachable reached
  refine ⟨nothing.copy, ?_, ?_⟩
  · intro event after stepTo
    exact (nothing.step_cases stepTo).2
  intro started starts
  constructor
  · intro expires messageId isDue
    obtain ⟨completes, sameServer⟩ := completesPass_alone starts
    have gone := (expires _ completes messageId isDue).messageStatus
    obtain ⟨status, found, -⟩ := isDue
    dsimp only at gone
    rw [sameServer, found] at gone
    cases gone
  · intro noneDue final _ messageId isDue
    exact absurd isDue (noneDue messageId)

theorem not_isDue_of_clock_le {maxAge : Nat} {state : ExpiringServer}
    (early : state.clock ≤ maxAge) (messageId : String) :
    ¬ IsDue maxAge state messageId := by
  rintro ⟨status, -, expired⟩
  unfold MessageStatus.isExpired at expired
  split at expired
  · simp only [Bool.and_eq_true, decide_eq_true_eq] at expired
    omega
  · cases expired

def deliveredThen (elapsed : Nat) : List Event :=
  Server.deliveringRun.map .server ++ [.tick elapsed]

/-- A pass soon after the delivery has nothing to do. -/
theorem pass_expires_soon :
    ∃ state started,
      Reachable (step 3000 Server.sampleConfig) (new Server.sampleConfig)
        state ∧
      state.server.broker.shared.IsTimed "m1" ∧
      state.step 3000 Server.sampleConfig .startPass = some started ∧
      ∀ final, CompletesPass 3000 Server.sampleConfig started final →
        ∀ messageId, IsDue 3000 state messageId →
          final.server.broker.shared.Gone messageId := by
  have ran : (executeWhile (step 3000 Server.sampleConfig) (fun _ _ => True)
      (new Server.sampleConfig) (deliveredThen 60)).map
        (fun state => (state.clock, state.task,
          state.server.broker.shared.messageStatus "m1")) =
      some (60, .sleeping, some ⟨some 0, some 0, none⟩) := by
    decide +kernel
  obtain ⟨state, reached, seen⟩ := exists_reachableWhile_of_map ran
  simp only [Prod.mk.injEq] at seen
  obtain ⟨clock, isSleeping, status⟩ := seen
  have starts : state.step 3000 Server.sampleConfig .startPass =
      some { state with task := .scanning state.clock [] [] } := by
    simp [step, isSleeping]
  refine ⟨state, _, reached, ⟨_, status, rfl⟩, starts, ?_⟩
  apply ((pass_expires_iff reached).2.2 _ starts).mpr
  apply not_isDue_of_clock_le
  omega

/-- A pass long after the delivery leaves the message in its queue. -/
theorem not_pass_expires_late :
    ∃ state started final,
      Reachable (step 3000 Server.sampleConfig) (new Server.sampleConfig)
        state ∧
      state.step 3000 Server.sampleConfig .startPass = some started ∧
      CompletesPass 3000 Server.sampleConfig started final ∧
      IsDue 3000 state "m1" ∧
      final.server.broker.shared.queues "receiver_1_queue" =
        some [("m1", ServerState.sampleMessage "m1")] ∧
      ¬ final.server.broker.shared.Gone "m1" := by
  have ran : (executeWhile (step 3000 Server.sampleConfig) (fun _ _ => True)
      (new Server.sampleConfig) (deliveredThen 4000)).map
        (fun state => decide (state.clock = 4000 ∧ state.task = .sleeping ∧
          state.server.broker.shared.messageStatus "m1" =
            some ⟨some 0, some 0, none⟩ ∧
          state.server.broker.shared.queues "receiver_1_queue" =
            some [("m1", ServerState.sampleMessage "m1")])) = some true := by
    decide +kernel
  obtain ⟨state, reached, seen⟩ := exists_reachableWhile_of_map ran
  rw [decide_eq_true_eq] at seen
  obtain ⟨clock, isSleeping, status, queue⟩ := seen
  have starts : state.step 3000 Server.sampleConfig .startPass =
      some { state with task := .scanning state.clock [] [] } := by
    simp [step, isSleeping]
  obtain ⟨completes, -⟩ := completesPass_alone starts
  refine ⟨state, _, _, reached, starts, completes, ⟨_, status, ?_⟩, queue,
    ?_⟩
  · rw [clock]
    decide
  · intro gone
    exact gone.queues _ _ queue (ServerState.sampleMessage "m1")
      (List.mem_singleton_self _)

end ExpiringServer

end CipherMQ
