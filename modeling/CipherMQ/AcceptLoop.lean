import CipherMQ.TransitionSystem

/-!
# The accept loop and the shutdown signal

The main task waits for the next connection and for the shutdown signal at
once.  Another task waits for SIGTERM or SIGINT, once, and then notifies those
who wait at that moment; nothing is kept for those who do not.  The handlers of
the two signals stay installed, so that a signal nobody waits for does nothing.
-/

namespace CipherMQ

inductive LoopPoint where
  /-- Before the next wait, with the branches of the last one dropped. -/
  | between
  | waiting
  /-- The shutdown branch of the current wait is ready. -/
  | notified
  | ended
  deriving DecidableEq, Repr

/-- The task that `wait_for_signal` spawns. -/
inductive SignalTask where
  | listening
  | received
  | finished
  deriving DecidableEq, Repr

/-- The two tasks, what the listener has to return, and the number of clients
that were given a task of their own. -/
structure AcceptLoop where
  point : LoopPoint
  signals : SignalTask
  backlog : List (Except String Unit)
  accepted : Nat

namespace AcceptLoop

inductive Event where
  /-- The listener has something to return. -/
  | offer (result : Except String Unit)
  /-- The process gets SIGTERM or SIGINT. -/
  | signal
  | trigger
  /-- The main task runs; `shutdownFirst` is the random choice of the branch
  that is looked at first. -/
  | poll (shutdownFirst : Bool)
  deriving DecidableEq

def new : AcceptLoop :=
  ⟨.between, .listening, [], 0⟩

/-- Take the result of the listener, if there is one.  This ends the wait, and
the shutdown branch is dropped also when it was notified. -/
def accept (server : AcceptLoop) : AcceptLoop :=
  match server.backlog with
  | [] => { server with point := .waiting }
  | .ok () :: backlog =>
      { server with
        point := .between, backlog, accepted := server.accepted + 1 }
  | .error _ :: backlog => { server with point := .between, backlog }

def trigger (server : AcceptLoop) : AcceptLoop :=
  { server with
    signals := .finished
    point := if server.point = .waiting then .notified else server.point }

def poll (server : AcceptLoop) (shutdownFirst : Bool) : AcceptLoop :=
  match server.point with
  | .ended => server
  | .notified =>
      if shutdownFirst = true ∨ server.backlog = [] then
        { server with point := .ended }
      else
        server.accept
  | .between | .waiting => server.accept

def step (server : AcceptLoop) : Event → AcceptLoop
  | .offer result => { server with backlog := server.backlog ++ [result] }
  | .signal =>
      if server.signals = .listening then
        { server with signals := .received }
      else
        server
  | .trigger =>
      if server.signals = .received then server.trigger else server
  | .poll shutdownFirst => server.poll shutdownFirst

/-! ## One step -/

/-- The main task does not know of a signal. -/
def Unaware (server : AcceptLoop) : Prop :=
  server.point = .between ∨ server.point = .waiting

theorem accept_spec (server : AcceptLoop) :
    server.accept.Unaware ∧ server.accept.signals = server.signals := by
  unfold accept
  split
  · exact ⟨Or.inr rfl, rfl⟩
  · exact ⟨Or.inl rfl, rfl⟩
  · exact ⟨Or.inl rfl, rfl⟩

theorem Unaware.poll_eq {server : AcceptLoop} (unaware : server.Unaware)
    (shutdownFirst : Bool) : server.poll shutdownFirst = server.accept := by
  unfold poll
  rcases unaware with isPoint | isPoint <;> rw [isPoint]

@[simp]
theorem signals_poll (server : AcceptLoop) (shutdownFirst : Bool) :
    (server.poll shutdownFirst).signals = server.signals := by
  unfold poll
  repeat' split
  all_goals first | rfl | exact (accept_spec server).2

theorem unaware_step (server : AcceptLoop) (event : Event)
    (holds : server.signals = .finished ∨ server.Unaware) :
    (server.step event).signals = .finished ∨
      (server.step event).Unaware := by
  cases event with
  | offer result => exact holds
  | signal =>
      simp only [step]
      split
      · rename_i isListening
        exact Or.inr (holds.resolve_left (by simp [isListening]))
      · exact holds
  | trigger =>
      simp only [step]
      split
      · exact Or.inl rfl
      · exact holds
  | poll shutdownFirst =>
      simp only [step, signals_poll]
      refine holds.imp_right fun unaware => ?_
      rw [unaware.poll_eq]
      exact (accept_spec server).1

/-- The task is done, and the main task does not know. -/
def Missed (server : AcceptLoop) : Prop :=
  server.signals = .finished ∧ server.Unaware

theorem missed_step (server : AcceptLoop) (event : Event)
    (missed : server.Missed) : (server.step event).Missed := by
  obtain ⟨isFinished, unaware⟩ := missed
  cases event with
  | offer result => exact ⟨isFinished, unaware⟩
  | signal => simpa [step, isFinished, Missed] using unaware
  | trigger => simpa [step, isFinished, Missed] using unaware
  | poll shutdownFirst =>
      simp only [step, Missed, signals_poll]
      rw [unaware.poll_eq]
      exact ⟨isFinished, (accept_spec server).1⟩

theorem ended_step (server : AcceptLoop) (event : Event)
    (isEnded : server.point = .ended) : (server.step event).point = .ended := by
  cases event with
  | offer result => exact isEnded
  | signal =>
      simp only [step]
      split <;> exact isEnded
  | trigger =>
      simp only [step, trigger, isEnded]
      split <;> simp [isEnded]
  | poll shutdownFirst => simp [step, poll, isEnded]

theorem notified_step {server : AcceptLoop} {event : Event}
    (isFinished : server.signals = .finished)
    (isNotified : server.point = .notified)
    (isQuiet : ∀ first, event ≠ .poll first) :
    (server.step event).signals = .finished ∧
      (server.step event).point = .notified := by
  cases event with
  | offer result => exact ⟨isFinished, isNotified⟩
  | signal | trigger => simp [step, isFinished, isNotified]
  | poll shutdownFirst => exact absurd rfl (isQuiet shutdownFirst)

/-- When the notified task runs the loop ends, or the signal is lost. -/
theorem poll_of_notified {server : AcceptLoop}
    (isFinished : server.signals = .finished)
    (isNotified : server.point = .notified) (shutdownFirst : Bool) :
    if shutdownFirst = true ∨ server.backlog = [] then
      (server.poll shutdownFirst).point = .ended
    else
      (server.poll shutdownFirst).Missed := by
  simp only [poll, isNotified]
  split
  · rfl
  · exact ⟨(accept_spec server).2.trans isFinished, (accept_spec server).1⟩

/-! ## Whole runs -/

/-- A main task that does not know when the other task is done never will. -/
theorem Missed.not_ended {server : AcceptLoop} (missed : server.Missed)
    (events : List Event) : (runFrom step server events).point ≠ .ended := by
  have stillMissed := runFrom_invariant Missed missed missed_step events
  rcases stillMissed.2 with isPoint | isPoint <;> simp [isPoint]

/-- Once notified, the loop ends when the main task runs next, unless the
listener has something to return and is looked at first. -/
theorem ended_iff_of_notified {server : AcceptLoop}
    (isFinished : server.signals = .finished)
    (isNotified : server.point = .notified) (events : List Event) :
    (runFrom step server events).point = .ended ↔
      ∃ quiet shutdownFirst rest,
        events = quiet ++ .poll shutdownFirst :: rest ∧
        (∀ event ∈ quiet, ∀ first, event ≠ .poll first) ∧
        (shutdownFirst = true ∨ (runFrom step server quiet).backlog = []) := by
  induction events generalizing server with
  | nil => simp [isNotified]
  | cons event events ih =>
      change (runFrom step (server.step event) events).point = .ended ↔ _
      by_cases isPoll : ∃ first, event = .poll first
      · obtain ⟨first, rfl⟩ := isPoll
        constructor
        · intro isEnded
          refine ⟨[], first, events, rfl, by simp, ?_⟩
          rw [runFrom_nil]
          by_contra acceptsFirst
          have missed := poll_of_notified isFinished isNotified first
          rw [if_neg acceptsFirst] at missed
          exact missed.not_ended events isEnded
        · rintro ⟨quiet, other, rest, isSplit, isQuiet, ends⟩
          cases quiet with
          | nil =>
              cases isSplit
              rw [runFrom_nil] at ends
              have isEnded := poll_of_notified isFinished isNotified first
              rw [if_pos ends] at isEnded
              exact runFrom_invariant (fun server : AcceptLoop =>
                server.point = .ended) isEnded ended_step events
          | cons head quiet =>
              cases isSplit
              exact absurd rfl (isQuiet _ List.mem_cons_self first)
      · have isQuiet : ∀ first, event ≠ .poll first := fun first isEvent =>
          isPoll ⟨first, isEvent⟩
        obtain ⟨stillFinished, stillNotified⟩ :=
          notified_step isFinished isNotified isQuiet
        rw [ih stillFinished stillNotified]
        constructor
        · rintro ⟨quiet, first, rest, rfl, areQuiet, ends⟩
          exact ⟨event :: quiet, first, rest, rfl,
            List.forall_mem_cons.mpr ⟨isQuiet, areQuiet⟩, ends⟩
        · rintro ⟨quiet, first, rest, isSplit, areQuiet, ends⟩
          cases quiet with
          | nil =>
              cases isSplit
              exact absurd rfl (isQuiet first)
          | cons head quiet =>
              cases isSplit
              exact ⟨quiet, first, rest, rfl,
                (List.forall_mem_cons.mp areQuiet).2, ends⟩

/-- Whether a signal ends the server is settled by the moment at which the
task passes it on.  The main task has to be waiting then, and when it runs next
the listener must have nothing to return or not be looked at first.  Otherwise
the loop goes on for ever, whatever signals follow. -/
theorem ended_iff_of_received {before : List Event}
    (isReceived : (runFrom step new before).signals = .received)
    (events : List Event) :
    (runFrom step new (before ++ .trigger :: events)).point = .ended ↔
      (runFrom step new before).point = .waiting ∧
      ∃ quiet shutdownFirst rest,
        events = quiet ++ .poll shutdownFirst :: rest ∧
        (∀ event ∈ quiet, ∀ first, event ≠ .poll first) ∧
        (shutdownFirst = true ∨
          (runFrom step new (before ++ .trigger :: quiet)).backlog = []) := by
  have isTrigger : ∀ events, runFrom step new (before ++ .trigger :: events) =
      runFrom step (runFrom step new before).trigger events := by
    intro events
    unfold runFrom at isReceived ⊢
    rw [List.foldl_append, List.foldl_cons, step, if_pos isReceived]
  have starts : new.signals = .finished ∨ new.Unaware := Or.inr (Or.inl rfl)
  have unaware : (runFrom step new before).Unaware :=
    (runFrom_invariant (fun server : AcceptLoop =>
      server.signals = .finished ∨ server.Unaware) starts unaware_step
        before).resolve_left (by simp [isReceived])
  simp only [isTrigger]
  rcases unaware with isBetween | isWaiting
  · have missed : (runFrom step new before).trigger.Missed :=
      ⟨rfl, Or.inl (by simp [trigger, isBetween])⟩
    simp [missed.not_ended events, isBetween]
  · rw [ended_iff_of_notified rfl (by simp [trigger, isWaiting])]
    simp [isWaiting]

theorem ended_iff_of_received_waiting :
    (runFrom step new ([.poll true, .signal] ++ .trigger ::
      [.offer (.ok ()), .poll true])).point = .ended :=
  (ended_iff_of_received rfl _).mpr
    ⟨rfl, [.offer (.ok ())], true, [], rfl, by simp, Or.inl rfl⟩

-- A connection that comes with the signal makes the server miss it, and it
-- does not hear the next one.
example :
    (runFrom step new [.poll true, .signal, .trigger, .offer (.ok ()),
      .poll false, .poll true, .signal, .trigger, .poll true]).point =
        .waiting :=
  rfl

end AcceptLoop

end CipherMQ
