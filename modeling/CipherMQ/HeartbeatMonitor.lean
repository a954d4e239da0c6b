import CipherMQ.ClientCount
import CipherMQ.HandlerBooks

/-!
# The heartbeat monitor

The server keeps one time for each name: every read from a client enters the
current time, and a task takes off the names that have not been heard of for
too long.  All connections of a name share the entry, and each of them takes
it off when it ends.  So a name with a second connection is forgotten although
data has just arrived on that connection.  The task forgets a name as well
that was heard of again after it had been found to be late.

Apart from the two a name is alive while one of its open sessions is fed: the
entry is never older than the data that has arrived.
-/

namespace CipherMQ

/-- The task that takes late names off the monitor: it reads the clock, looks
at the entries and then removes those it has found to be late. -/
inductive MonitorPoint where
  | waiting
  | scanning (now : Nat) (timedOut : List String)
  | removing (timedOut : List String)
  deriving DecidableEq, Repr

structure Monitored where
  server : Server
  clock : Nat
  monitor : MonitorPoint

namespace Monitored

def new (config : ServerConfig) : Monitored :=
  ⟨.new config, 0, .waiting⟩

/-- What can happen next: something in the server, time passes, or the task
goes on.  An entry that comes or goes while the task looks at the entries may
be looked at or not. -/
inductive Event where
  | server (event : Server.Event)
  | tick (elapsed : Nat)
  | startPass
  | visit (clientId : String)
  | endScan
  | removeNext

def recent (timeout clock time : Nat) : Bool :=
  clock - time < timeout

def isAlive (timeout : Nat) (monitored : Monitored) (clientId : String) :
    Bool :=
  match monitored.server.heartbeats clientId with
  | some time => recent timeout monitored.clock time
  | none => false

def step (timeout : Nat) (config : ServerConfig) (monitored : Monitored) :
    Event → Option Monitored
  | .server event =>
      (monitored.server.step config (event.atTime monitored.clock)).map
        fun server => { monitored with server := server }
  | .tick elapsed =>
      some { monitored with clock := monitored.clock + elapsed }
  | .startPass =>
      match monitored.monitor with
      | .waiting =>
          some { monitored with monitor := .scanning monitored.clock [] }
      | _ => none
  | .visit clientId =>
      match monitored.monitor, monitored.server.heartbeats clientId with
      | .scanning now timedOut, some time =>
          some { monitored with
            monitor := .scanning now
              (if now - time > timeout then timedOut ++ [clientId]
                else timedOut) }
      | _, _ => none
  | .endScan =>
      match monitored.monitor with
      | .scanning _ timedOut =>
          some { monitored with monitor := .removing timedOut }
      | _ => none
  | .removeNext =>
      match monitored.monitor with
      | .removing (clientId :: timedOut) =>
          some { monitored with
            server := monitored.server.removeClient clientId
            monitor := .removing timedOut }
      | .removing [] => some { monitored with monitor := .waiting }
      | _ => none

/-- The times at which data last arrived, by the position of the session. -/
abbrev Arrivals := KeyMap Nat Nat

def note (monitored : Monitored) : Event → Arrivals → Arrivals
  | .server (.handler index (.read (some (_ :: _)) _)), arrivals =>
      arrivals.insert index monitored.clock
  | _, arrivals => arrivals

abbrev Watch := Recorded Monitored Arrivals

/-- Data has arrived lately on the open session at `index`, which is one of
the client's. -/
def FedBy (timeout : Nat) (watch : Watch) (index : Nat) (clientId : String) :
    Prop :=
  ∃ session time, watch.state.server.sessions[index]? = some session ∧
    session.isOpen = true ∧ session.clientId = clientId ∧
    watch.ledger index = some time ∧
    recent timeout watch.state.clock time = true

def Fed (timeout : Nat) (watch : Watch) (clientId : String) : Prop :=
  ∃ index, FedBy timeout watch index clientId

def FedAlive (timeout : Nat) (watch : Watch) : Prop :=
  ∀ clientId, Fed timeout watch clientId →
    watch.state.isAlive timeout clientId = true

/-- The step takes no client off the monitor that is fed by a session which
stays open. -/
def SparesFed (timeout : Nat) (watch : Watch) : Event → Prop
  | .server (.handler index event) =>
      event.drops = true → ∀ session,
        watch.state.server.sessions[index]? = some session →
          ∀ other, other ≠ index →
            ¬ FedBy timeout watch other session.clientId
  | .removeNext => ∀ clientId timedOut,
      watch.state.monitor = .removing (clientId :: timedOut) →
        ¬ Fed timeout watch clientId
  | _ => True

/-! ## The entry is as late as the data -/

/-- Nothing has happened in the future, and an entry is not older than the
data that has arrived on a session of its client. -/
structure Timely (watch : Watch) : Prop where
  arrived : ∀ index time, watch.ledger index = some time →
    index < watch.state.server.sessions.length
  entry_le : ∀ clientId time,
    watch.state.server.heartbeats clientId = some time →
      time ≤ watch.state.clock
  data_le : ∀ index time, watch.ledger index = some time →
    time ≤ watch.state.clock
  data_le_entry : ∀ index session time last,
    watch.state.server.sessions[index]? = some session →
      watch.ledger index = some time →
        watch.state.server.heartbeats session.clientId = some last →
          time ≤ last

theorem timely_new (config : ServerConfig) :
    Timely ⟨new config, KeyMap.empty⟩ := by
  constructor
  · intro index time isNoted
    cases isNoted
  · intro clientId time isEntry
    cases isEntry
  · intro index time isNoted
    cases isNoted
  · intro index session time last found
    cases found

/-- The shapes of a step: the server moves, time passes, the task looks around
or removes an entry. -/
theorem step_cases {timeout : Nat} {config : ServerConfig}
    {before after : Monitored} {event : Event}
    (stepTo : before.step timeout config event = some after) :
    (∃ serverEvent server, event = .server serverEvent ∧
      before.server.step config (serverEvent.atTime before.clock) =
        some server ∧
      after = { before with server := server }) ∨
    (∃ elapsed, event = .tick elapsed ∧
      after = { before with clock := before.clock + elapsed }) ∨
    (∃ monitor, (event = .removeNext → before.monitor = .removing []) ∧
      (∀ serverEvent, event ≠ .server serverEvent) ∧
      after = { before with monitor := monitor }) ∨
    (∃ clientId timedOut, event = .removeNext ∧
      before.monitor = .removing (clientId :: timedOut) ∧
      after = { before with
        server := before.server.removeClient clientId
        monitor := .removing timedOut }) := by
  cases event with
  | server serverEvent =>
      obtain ⟨server, stepped, rfl⟩ := Option.map_eq_some_iff.mp stepTo
      exact .inl ⟨serverEvent, server, rfl, stepped, rfl⟩
  | tick elapsed =>
      cases stepTo
      exact .inr (.inl ⟨elapsed, rfl, rfl⟩)
  | startPass =>
      simp only [step] at stepTo
      split at stepTo
      · cases stepTo
        exact .inr (.inr (.inl ⟨_, by simp, by simp, rfl⟩))
      · cases stepTo
  | visit clientId =>
      simp only [step] at stepTo
      split at stepTo
      · cases stepTo
        exact .inr (.inr (.inl ⟨_, by simp, by simp, rfl⟩))
      · cases stepTo
  | endScan =>
      simp only [step] at stepTo
      split at stepTo
      · cases stepTo
        exact .inr (.inr (.inl ⟨_, by simp, by simp, rfl⟩))
      · cases stepTo
  | removeNext =>
      simp only [step] at stepTo
      split at stepTo
      · rename_i clientId timedOut isRemoving
        cases stepTo
        exact .inr (.inr (.inr ⟨clientId, timedOut, rfl, isRemoving, rfl⟩))
      · rename_i isRemoving
        cases stepTo
        exact .inr (.inr (.inl ⟨_, fun _ => isRemoving, by simp, rfl⟩))
      · cases stepTo

theorem connect_heartbeats (config : ServerConfig) (server : Server)
    (clientId ip : String) (outcome : Outcome) :
    (∃ session, (server.connect config clientId ip outcome).sessions =
      server.sessions ++ [session]) ∧
    ((server.connect config clientId ip outcome).heartbeats =
        server.heartbeats ∨
      (server.connect config clientId ip outcome).heartbeats =
        server.heartbeats.insert clientId outcome.now) := by
  unfold Server.connect
  dsimp only
  split
  · exact ⟨⟨_, rfl⟩, .inl rfl⟩
  · split
    · exact ⟨⟨_, rfl⟩, .inl rfl⟩
    · exact ⟨⟨_, rfl⟩, .inr rfl⟩

/-! ## What becomes of fed clients -/

theorem Fed.positive {timeout : Nat} {watch : Watch} {clientId : String}
    (fed : Fed timeout watch clientId) : 0 < timeout := by
  obtain ⟨index, session, time, -, -, -, -, isRecent⟩ := fed
  simp only [recent, decide_eq_true_eq] at isRecent
  omega

section Entries

variable {timeout : Nat} {before after : Watch}
  (sameClock : after.state.clock = before.state.clock)

include sameClock

theorem fedAlive_kept (alive : FedAlive timeout before)
    (sameEntries : after.state.server.heartbeats =
      before.state.server.heartbeats)
    (fedBefore : ∀ clientId, Fed timeout after clientId →
      Fed timeout before clientId) :
    FedAlive timeout after := by
  intro clientId isFed
  have wasAlive := alive clientId (fedBefore clientId isFed)
  unfold isAlive at wasAlive ⊢
  rw [sameEntries, sameClock]
  exact wasAlive

theorem fedAlive_entered (alive : FedAlive timeout before)
    {entered : String}
    (entries : after.state.server.heartbeats =
      before.state.server.heartbeats.insert entered before.state.clock)
    (fedBefore : ∀ clientId, Fed timeout after clientId →
      clientId = entered ∨ Fed timeout before clientId) :
    FedAlive timeout after := by
  intro clientId isFed
  unfold isAlive
  rw [entries, sameClock]
  by_cases isEntered : clientId = entered
  · simpa [isEntered, recent] using isFed.positive
  · have wasFed := (fedBefore clientId isFed).resolve_left isEntered
    have wasAlive := alive clientId wasFed
    unfold isAlive at wasAlive
    simpa [isEntered] using wasAlive

/-- Taking an entry off is harmless exactly if its client is not fed. -/
theorem fedAlive_dropped_iff (alive : FedAlive timeout before)
    {dropped : String}
    (entries : after.state.server.heartbeats =
      before.state.server.heartbeats.remove dropped)
    (fedBefore : ∀ clientId, Fed timeout after clientId →
      Fed timeout before clientId) :
    FedAlive timeout after ↔ ¬ Fed timeout after dropped := by
  constructor
  · intro aliveAfter isFed
    have isAliveStill := aliveAfter dropped isFed
    unfold isAlive at isAliveStill
    simp [entries] at isAliveStill
  · intro notFed clientId isFed
    have different : clientId ≠ dropped := by
      rintro rfl
      exact notFed isFed
    have wasAlive := alive clientId (fedBefore clientId isFed)
    unfold isAlive at wasAlive ⊢
    rw [entries, sameClock]
    simpa [different] using wasAlive

end Entries

/-- A session that moves on stays with its client and does not open again. -/
theorem FedBy.of_set {timeout : Nat} {before after : Watch} {index : Nat}
    {session next : Session} {counter : Option Counter}
    {heartbeats : KeyMap String Nat}
    (found : before.state.server.sessions[index]? = some session)
    (accounted : Server.Accounted before.state.server index session next
      counter heartbeats after.state.server)
    (sameClock : after.state.clock = before.state.clock)
    {other : Nat} {clientId : String}
    (sameArrival : after.ledger other = before.ledger other)
    (fed : FedBy timeout after other clientId) :
    FedBy timeout before other clientId ∧
      (other = index → next.isOpen = true) := by
  obtain ⟨moved, time, foundAfter, isOpen, isClient, arrived, isRecent⟩ := fed
  rw [accounted.sessions] at foundAfter
  rw [sameArrival] at arrived
  rw [sameClock] at isRecent
  rcases getElem?_set_cases foundAfter with ⟨rfl, rfl⟩ | ⟨isOther, unchanged⟩
  · exact ⟨⟨session, time, found, accounted.stays_closed isOpen,
      accounted.clientId.symm.trans isClient, arrived, isRecent⟩,
      fun _ => isOpen⟩
  · exact ⟨⟨moved, time, unchanged, isOpen, isClient, arrived, isRecent⟩,
      fun same => absurd same isOther⟩

theorem FedBy.of_other {timeout : Nat} {before after : Watch} {index : Nat}
    {session next : Session} {counter : Option Counter}
    {heartbeats : KeyMap String Nat}
    (accounted : Server.Accounted before.state.server index session next
      counter heartbeats after.state.server)
    (sameClock : after.state.clock = before.state.clock)
    {other : Nat} {clientId : String} (isOther : other ≠ index)
    (sameArrival : after.ledger other = before.ledger other)
    (fed : FedBy timeout before other clientId) :
    FedBy timeout after other clientId := by
  obtain ⟨moved, time, found, isOpen, isClient, arrived, isRecent⟩ := fed
  refine ⟨moved, time, ?_, isOpen, isClient, ?_, ?_⟩
  · rw [accounted.sessions, List.getElem?_set_ne (Ne.symm isOther)]
    exact found
  · rw [sameArrival]
    exact arrived
  · rw [sameClock]
    exact isRecent

/-! ## One step -/

/-- Entries and arrivals are kept or have the current time, and an arrival of
the current time has entered it as well. -/
theorem Timely.moved {before after : Watch} (timely : Timely before)
    (clock_le : before.state.clock ≤ after.state.clock)
    (length_le : before.state.server.sessions.length ≤
      after.state.server.sessions.length)
    (sameClient : ∀ index session,
      index < before.state.server.sessions.length →
        after.state.server.sessions[index]? = some session →
          ∃ old, before.state.server.sessions[index]? = some old ∧
            old.clientId = session.clientId)
    (entries : ∀ clientId time,
      after.state.server.heartbeats clientId = some time →
        before.state.server.heartbeats clientId = some time ∨
          time = after.state.clock)
    (arrivals : ∀ index time, after.ledger index = some time →
      before.ledger index = some time ∨
        (index < after.state.server.sessions.length ∧
          time = after.state.clock ∧
          ∀ session, after.state.server.sessions[index]? = some session →
            after.state.server.heartbeats session.clientId =
              some after.state.clock)) :
    Timely after := by
  constructor
  · intro index time isNoted
    rcases arrivals index time isNoted with old | ⟨inRange, -, -⟩
    · exact (timely.arrived index time old).trans_le length_le
    · exact inRange
  · intro clientId time isEntry
    rcases entries clientId time isEntry with old | rfl
    · exact (timely.entry_le clientId time old).trans clock_le
    · exact le_rfl
  · intro index time isNoted
    rcases arrivals index time isNoted with old | ⟨-, rfl, -⟩
    · exact (timely.data_le index time old).trans clock_le
    · exact le_rfl
  · intro index session time last found isNoted isEntry
    rcases arrivals index time isNoted with old | ⟨-, rfl, entered⟩
    · rcases entries session.clientId last isEntry with oldEntry | rfl
      · obtain ⟨earlier, foundEarlier, isClient⟩ := sameClient index session
          (timely.arrived index time old) found
        rw [← isClient] at oldEntry
        exact timely.data_le_entry index earlier time last foundEarlier old
          oldEntry
      · exact (timely.data_le index time old).trans clock_le
    · rw [entered session found] at isEntry
      exact (Option.some.inj isEntry).le

theorem note_other {monitored : Monitored} {event : Event}
    (notData : ∀ index byte bytes outcome, event ≠
      .server (.handler index (.read (some (byte :: bytes)) outcome)))
    (arrivals : Arrivals) : note monitored event arrivals = arrivals := by
  unfold note
  split
  · rename_i index byte bytes outcome
    exact absurd rfl (notData index byte bytes outcome)
  · rfl

/-- A handler reads data, takes its client off, or leaves the entries and the
arrivals alone. -/
theorem beat_cases (monitored : Monitored) (index : Nat) (clientId : String)
    (event : Server.HandlerEvent) (arrivals : Arrivals) :
    (event.drops = false ∧
      note monitored (.server (.handler index event)) arrivals =
        arrivals.insert index monitored.clock ∧
      Server.beat monitored.server.heartbeats clientId
          (event.atTime monitored.clock) =
        monitored.server.heartbeats.insert clientId monitored.clock) ∨
    (event.drops = true ∧
      note monitored (.server (.handler index event)) arrivals = arrivals ∧
      Server.beat monitored.server.heartbeats clientId
          (event.atTime monitored.clock) =
        monitored.server.heartbeats.remove clientId) ∨
    (event.drops = false ∧
      note monitored (.server (.handler index event)) arrivals = arrivals ∧
      Server.beat monitored.server.heartbeats clientId
          (event.atTime monitored.clock) =
        monitored.server.heartbeats) := by
  cases event with
  | read result outcome =>
      match result with
      | none => exact .inr (.inl ⟨rfl, rfl, rfl⟩)
      | some [] => exact .inr (.inl ⟨rfl, rfl, rfl⟩)
      | some (_ :: _) => exact .inl ⟨rfl, rfl, rfl⟩
  | receive => exact .inr (.inr ⟨rfl, rfl, rfl⟩)
  | resume outcome => exact .inr (.inr ⟨rfl, rfl, rfl⟩)
  | deliver outcome => exact .inr (.inr ⟨rfl, rfl, rfl⟩)
  | channelClosed => exact .inr (.inl ⟨rfl, rfl, rfl⟩)
  | close => exact .inr (.inl ⟨rfl, rfl, rfl⟩)

/-- What a step does to the clock, the sessions, the entries and the
arrivals. -/
inductive Move (timeout : Nat) (before : Watch) : Event → Watch → Prop
  | idle {event : Event} {after : Watch}
      (spares : SparesFed timeout before event)
      (clock : after.state.clock = before.state.clock)
      (sessions : after.state.server.sessions =
        before.state.server.sessions)
      (entries : after.state.server.heartbeats =
        before.state.server.heartbeats)
      (arrivals : after.ledger = before.ledger) :
      Move timeout before event after
  | connect {event : Event} {after : Watch} {session : Session}
      {clientId : String}
      (spares : SparesFed timeout before event)
      (clock : after.state.clock = before.state.clock)
      (sessions : after.state.server.sessions =
        before.state.server.sessions ++ [session])
      (entries : after.state.server.heartbeats =
          before.state.server.heartbeats ∨
        after.state.server.heartbeats =
          before.state.server.heartbeats.insert clientId before.state.clock)
      (arrivals : after.ledger = before.ledger) :
      Move timeout before event after
  | handler {index : Nat} {event : Server.HandlerEvent} {after : Watch}
      {session next : Session} {counter : Option Counter}
      (clock : after.state.clock = before.state.clock)
      (found : before.state.server.sessions[index]? = some session)
      (closes : event.drops = true → next.isOpen = false)
      (accounted : Server.Accounted before.state.server index session next
        counter (Server.beat before.state.server.heartbeats session.clientId
          (event.atTime before.state.clock)) after.state.server)
      (arrivals : after.ledger =
        note before.state (.server (.handler index event)) before.ledger) :
      Move timeout before (.server (.handler index event)) after
  | tick {elapsed : Nat} {after : Watch}
      (clock : after.state.clock = before.state.clock + elapsed)
      (server : after.state.server = before.state.server)
      (arrivals : after.ledger = before.ledger) :
      Move timeout before (.tick elapsed) after
  | remove {clientId : String} {timedOut : List String} {after : Watch}
      (removing : before.state.monitor = .removing (clientId :: timedOut))
      (clock : after.state.clock = before.state.clock)
      (server : after.state.server = before.state.server.removeClient clientId)
      (arrivals : after.ledger = before.ledger) :
      Move timeout before .removeNext after

theorem move_of_serverStep {timeout : Nat} {config : ServerConfig}
    {before after : Watch} {event : Server.Event} {server : Server}
    (moved : before.state.server.step config
      (event.atTime before.state.clock) = some server)
    (isAfter : after.state = { before.state with server := server })
    (noted : after.ledger =
      note before.state (.server event) before.ledger) :
    Move timeout before (.server event) after := by
  have sameClock : after.state.clock = before.state.clock := by
    rw [isAfter]
  have isServer : after.state.server = server := by
    rw [isAfter]
  subst isServer
  cases event with
  | handler index handlerEvent =>
      rcases Server.step_books moved with ⟨isOther | isOther, -⟩ |
        ⟨_, _, _, isOther, -⟩ |
        ⟨_, _, session, next, isHandler, found, -, closes, accounted⟩ |
        ⟨_, isOther, -⟩
      · cases isOther
      · cases isOther
      · cases isOther
      · cases isHandler
        rw [Server.HandlerEvent.drops_atTime] at closes
        exact .handler sameClock found closes accounted noted
      · cases isOther
  | connect clientId ip outcome =>
      obtain ⟨⟨session, sessions⟩, entries⟩ := connect_heartbeats config
        before.state.server clientId ip
        { outcome with now := before.state.clock }
      rw [Option.some.inj moved] at sessions entries
      exact .connect trivial sameClock sessions entries noted
  | handshakeFailed =>
      have isMoved := (Option.some.inj moved).symm
      exact .idle trivial sameClock (by rw [isMoved]; rfl)
        (by rw [isMoved]; rfl) noted
  | shutdown =>
      have isMoved := (Option.some.inj moved).symm
      exact .idle trivial sameClock (by rw [isMoved]; rfl)
        (by rw [isMoved]; rfl) noted
  | advance call reading =>
      obtain ⟨broker, isMoved, -⟩ := Server.brokers_step rfl moved
      exact .idle trivial sameClock (by rw [isMoved]) (by rw [isMoved]) noted
  | runDeliveryTask task =>
      obtain ⟨broker, isMoved, -⟩ := Server.brokers_step rfl moved
      exact .idle trivial sameClock (by rw [isMoved]) (by rw [isMoved]) noted

theorem move_of_step {timeout : Nat} {config : ServerConfig}
    {before after : Watch} {event : Event}
    (stepTo : Recorded.step (step timeout config) note before event =
      some after) :
    Move timeout before event after := by
  obtain ⟨stepped, noted⟩ := Recorded.step_cases stepTo
  rcases step_cases stepped with ⟨serverEvent, server, rfl, moved, isAfter⟩ |
    ⟨elapsed, rfl, isAfter⟩ | ⟨monitor, notRemoving, notServer, isAfter⟩ |
    ⟨clientId, timedOut, rfl, isRemoving, isAfter⟩
  · exact move_of_serverStep moved isAfter noted
  · exact .tick (by rw [isAfter]) (by rw [isAfter]) noted
  · have spares : SparesFed timeout before event := by
      cases event with
      | server serverEvent => exact absurd rfl (notServer serverEvent)
      | removeNext =>
          intro clientId timedOut isRemoving
          rw [notRemoving rfl] at isRemoving
          cases isRemoving
      | _ => trivial
    have sameArrivals : after.ledger = before.ledger :=
      noted.trans (note_other (by
        intro index byte bytes outcome isServer
        exact notServer _ isServer) _)
    exact .idle spares (by rw [isAfter]) (by rw [isAfter]) (by rw [isAfter])
      sameArrivals
  · exact .remove isRemoving (by rw [isAfter]) (by rw [isAfter]) noted

theorem timely_step {timeout : Nat} {before after : Watch} {event : Event}
    (timely : Timely before) (move : Move timeout before event after) :
    Timely after := by
  cases move with
  | idle spares clock sessions entries arrivals =>
      apply timely.moved
      · exact clock.ge
      · rw [sessions]
      · intro index session _ found
        rw [sessions] at found
        exact ⟨session, found, rfl⟩
      · intro clientId time isEntry
        rw [entries] at isEntry
        exact .inl isEntry
      · intro index time isNoted
        rw [arrivals] at isNoted
        exact .inl isNoted
  | connect spares clock sessions entries arrivals =>
      apply timely.moved
      · exact clock.ge
      · rw [sessions]
        simp
      · intro index session inRange found
        rw [sessions, List.getElem?_append_left inRange] at found
        exact ⟨session, found, rfl⟩
      · intro other time isEntry
        rcases entries with same | entered
        · rw [same] at isEntry
          exact .inl isEntry
        · rw [entered, KeyMap.insert_apply] at isEntry
          split at isEntry
          · right
            rw [clock]
            exact (Option.some.inj isEntry).symm
          · exact .inl isEntry
      · intro index time isNoted
        rw [arrivals] at isNoted
        exact .inl isNoted
  | handler clock found closes accounted arrivals =>
      rename_i index handlerEvent session next counter
      have sessions := accounted.sessions
      have entries := accounted.heartbeats
      have inRange := (List.getElem?_eq_some_iff.mp found).1
      have sameClient : ∀ (other : Nat) (moved : Session),
          after.state.server.sessions[other]? = some moved →
            ∃ old, before.state.server.sessions[other]? = some old ∧
              old.clientId = moved.clientId := by
        intro other moved foundAfter
        rw [sessions] at foundAfter
        rcases getElem?_set_cases foundAfter with ⟨rfl, rfl⟩ | ⟨-, same⟩
        · exact ⟨session, found, accounted.clientId.symm⟩
        · exact ⟨moved, same, rfl⟩
      apply timely.moved
      · exact clock.ge
      · rw [sessions, List.length_set]
      · intro other moved _ foundAfter
        exact sameClient other moved foundAfter
      · intro other time isEntry
        rw [entries] at isEntry
        rcases beat_cases before.state index session.clientId handlerEvent
          before.ledger with ⟨-, -, entered⟩ | ⟨-, -, dropped⟩ | ⟨-, -, same⟩
        · rw [entered, KeyMap.insert_apply] at isEntry
          split at isEntry
          · right
            rw [clock]
            exact (Option.some.inj isEntry).symm
          · exact .inl isEntry
        · rw [dropped, KeyMap.remove_apply] at isEntry
          split at isEntry
          · cases isEntry
          · exact .inl isEntry
        · rw [same] at isEntry
          exact .inl isEntry
      · intro other time isNoted
        rw [arrivals] at isNoted
        rcases beat_cases before.state index session.clientId handlerEvent
          before.ledger with ⟨-, noted, entered⟩ | ⟨-, noted, -⟩ |
          ⟨-, noted, -⟩
        · rw [noted, KeyMap.insert_apply] at isNoted
          split at isNoted
          · rename_i same
            subst same
            right
            refine ⟨?_, ?_, ?_⟩
            · rw [sessions, List.length_set]
              exact inRange
            · rw [clock]
              exact (Option.some.inj isNoted).symm
            · intro moved foundAfter
              obtain ⟨old, foundOld, isClient⟩ :=
                sameClient _ moved foundAfter
              rw [found] at foundOld
              cases foundOld
              rw [entries, entered, ← isClient, clock]
              exact KeyMap.insert_self _ _ _
          · exact .inl isNoted
        · rw [noted] at isNoted
          exact .inl isNoted
        · rw [noted] at isNoted
          exact .inl isNoted
  | tick clock server arrivals =>
      apply timely.moved
      · rw [clock]
        exact Nat.le_add_right _ _
      · rw [server]
      · intro index session _ found
        rw [server] at found
        exact ⟨session, found, rfl⟩
      · intro clientId time isEntry
        rw [server] at isEntry
        exact .inl isEntry
      · intro index time isNoted
        rw [arrivals] at isNoted
        exact .inl isNoted
  | remove removing clock server arrivals =>
      apply timely.moved
      · exact clock.ge
      · rw [server]
        rfl
      · intro index session _ found
        rw [server] at found
        exact ⟨session, found, rfl⟩
      · intro other time isEntry
        rw [server] at isEntry
        simp only [Server.removeClient, KeyMap.remove_apply] at isEntry
        split at isEntry
        · cases isEntry
        · exact .inl isEntry
      · intro index time isNoted
        rw [arrivals] at isNoted
        exact .inl isNoted

/-- A step leaves every fed client alive exactly if it spares them. -/
theorem fedAlive_step_iff {timeout : Nat} {before after : Watch}
    {event : Event} (timely : Timely before)
    (alive : FedAlive timeout before)
    (move : Move timeout before event after) :
    FedAlive timeout after ↔ SparesFed timeout before event := by
  cases move with
  | idle spares clock sessions entries arrivals =>
      refine iff_of_true (fedAlive_kept clock alive entries ?_) spares
      rintro clientId ⟨index, session, time, found, rest⟩
      rw [sessions] at found
      rw [arrivals, clock] at rest
      exact ⟨index, session, time, found, rest⟩
  | connect spares clock sessions entries arrivals =>
      -- No data has arrived on the new session.
      have fedBefore : ∀ clientId, Fed timeout after clientId →
          Fed timeout before clientId := by
        rintro clientId ⟨index, session, time, found, isOpen, isClient,
          arrived, isRecent⟩
        rw [arrivals] at arrived
        rw [clock] at isRecent
        rw [sessions, List.getElem?_append_left
          (timely.arrived index time arrived)] at found
        exact ⟨index, session, time, found, isOpen, isClient, arrived,
          isRecent⟩
      refine iff_of_true ?_ spares
      rcases entries with same | entered
      · exact fedAlive_kept clock alive same fedBefore
      · exact fedAlive_entered clock alive entered fun clientId isFed =>
          .inr (fedBefore clientId isFed)
  | handler clock found closes accounted arrivals =>
      rename_i index handlerEvent session next counter
      have entries := accounted.heartbeats
      rcases beat_cases before.state index session.clientId handlerEvent
        before.ledger with ⟨stays, noted, entered⟩ |
        ⟨drops, noted, dropped⟩ | ⟨stays, noted, same⟩
      · refine iff_of_true (fedAlive_entered clock alive
          (entries.trans entered) ?_) (by simp [SparesFed, stays])
        rintro clientId ⟨other, fed⟩
        by_cases isThis : other = index
        · subst isThis
          left
          obtain ⟨moved, time, foundAfter, -, isClient, -, -⟩ := fed
          rw [accounted.sessions, getElem?_set_moved found] at foundAfter
          cases foundAfter
          exact isClient.symm.trans accounted.clientId
        · right
          have sameArrival : after.ledger other = before.ledger other := by
            rw [arrivals, noted, KeyMap.insert_apply, if_neg isThis]
          exact ⟨other, (fed.of_set found accounted clock sameArrival).1⟩
      · have sameArrival : ∀ other,
            after.ledger other = before.ledger other := by
          intro other
          rw [arrivals, noted]
        have fedBefore : ∀ clientId, Fed timeout after clientId →
            Fed timeout before clientId := by
          rintro clientId ⟨other, fed⟩
          exact ⟨other,
            (fed.of_set found accounted clock (sameArrival other)).1⟩
        rw [fedAlive_dropped_iff clock alive (entries.trans dropped)
          fedBefore]
        simp only [SparesFed]
        constructor
        · intro notFed _ other foundOther position isOther fed
          rw [found] at foundOther
          cases foundOther
          exact notFed ⟨position,
            fed.of_other accounted clock isOther (sameArrival position)⟩
        · rintro spares ⟨position, fed⟩
          obtain ⟨fedBefore, isOpen⟩ :=
            fed.of_set found accounted clock (sameArrival position)
          refine spares drops session found position ?_ fedBefore
          intro isThis
          rw [closes drops] at isOpen
          exact absurd (isOpen isThis) (by decide)
      · refine iff_of_true (fedAlive_kept clock alive (entries.trans same) ?_)
          (by simp [SparesFed, stays])
        rintro clientId ⟨other, fed⟩
        have sameArrival : after.ledger other = before.ledger other := by
          rw [arrivals, noted]
        exact ⟨other, (fed.of_set found accounted clock sameArrival).1⟩
  | tick clock server arrivals =>
      refine iff_of_true ?_ trivial
      rintro clientId ⟨index, session, time, found, isOpen, isClient, arrived,
        isRecent⟩
      rw [server] at found
      rw [arrivals] at arrived
      simp only [recent, decide_eq_true_eq, clock] at isRecent
      have wasRecent : recent timeout before.state.clock time = true := by
        simp only [recent, decide_eq_true_eq]
        omega
      have wasAlive := alive clientId ⟨index, session, time, found, isOpen,
        isClient, arrived, wasRecent⟩
      unfold isAlive at wasAlive ⊢
      rw [server, clock]
      cases isEntry : before.state.server.heartbeats clientId with
      | none => simp [isEntry] at wasAlive
      | some last =>
        rw [← isClient] at isEntry
        have later := timely.data_le_entry index session time last found
          arrived isEntry
        simp only [recent, decide_eq_true_eq]
        omega
  | remove removing clock server arrivals =>
      rename_i clientId timedOut
      have entries : after.state.server.heartbeats =
          before.state.server.heartbeats.remove clientId := by
        rw [server]
        rfl
      have sameFed : ∀ other, Fed timeout after other ↔
          Fed timeout before other := by
        intro other
        simp only [Fed, FedBy, server, clock, arrivals, Server.removeClient]
      rw [fedAlive_dropped_iff clock alive entries
        fun other isFed => (sameFed other).mp isFed, sameFed]
      simp only [SparesFed, removing]
      constructor
      · intro notFed other rest isRemoving
        cases isRemoving
        exact notFed
      · intro spares
        exact spares clientId timedOut rfl

theorem fedAlive_new (timeout : Nat) (config : ServerConfig) :
    FedAlive timeout ⟨new config, KeyMap.empty⟩ := by
  rintro clientId ⟨index, session, time, found, -⟩
  cases found

/-- While no step takes a client off the monitor that is fed on another
connection, every client that is fed is alive; the first such step makes the
monitor wrong. -/
theorem fedAlive_of_sparesFed {timeout : Nat} {config : ServerConfig}
    {watch : Watch}
    (reached : ReachableWhile (Recorded.step (step timeout config) note)
      (SparesFed timeout) ⟨new config, KeyMap.empty⟩ watch) :
    FedAlive timeout watch ∧ ∀ event after,
      Recorded.step (step timeout config) note watch event = some after →
        (FedAlive timeout after ↔ SparesFed timeout watch event) :=
  reached.exact_invariant Timely (fedAlive_new timeout config)
    (timely_new config)
    (fun _ _ _ timely stepTo => timely_step timely (move_of_step stepTo))
    (fun _ _ _ timely alive stepTo =>
      fedAlive_step_iff timely alive (move_of_step stepTo))

/-! ## Runs -/

theorem fedBy_iff (timeout : Nat) (watch : Watch) (index : Nat)
    (clientId : String) :
    FedBy timeout watch index clientId ↔
      (∃ session ∈ watch.state.server.sessions[index]?,
        session.isOpen = true ∧ session.clientId = clientId) ∧
      ∃ time ∈ watch.ledger index,
        recent timeout watch.state.clock time = true := by
  constructor
  · rintro ⟨session, time, found, isOpen, isClient, arrived, isRecent⟩
    exact ⟨⟨session, found, isOpen, isClient⟩, time, arrived, isRecent⟩
  · rintro ⟨⟨session, found, isOpen, isClient⟩, time, arrived, isRecent⟩
    exact ⟨session, time, found, isOpen, isClient, arrived, isRecent⟩

instance (timeout : Nat) (watch : Watch) (index : Nat) (clientId : String) :
    Decidable (FedBy timeout watch index clientId) :=
  decidable_of_iff' _ (fedBy_iff timeout watch index clientId)

theorem FedBy.inRange {timeout : Nat} {watch : Watch} {index : Nat}
    {clientId : String} (fed : FedBy timeout watch index clientId) :
    index < watch.state.server.sessions.length := by
  obtain ⟨session, time, found, -⟩ := fed
  exact (List.getElem?_eq_some_iff.mp found).1

instance (timeout : Nat) (watch : Watch) (clientId : String) :
    Decidable (Fed timeout watch clientId) :=
  decidable_of_iff
    (∃ index, index < watch.state.server.sessions.length ∧
      FedBy timeout watch index clientId)
    ⟨fun ⟨index, _, fed⟩ => ⟨index, fed⟩,
      fun ⟨index, fed⟩ => ⟨index, fed.inRange, fed⟩⟩

theorem sparesFed_handler_iff (timeout : Nat) (watch : Watch) (index : Nat)
    (event : Server.HandlerEvent) :
    SparesFed timeout watch (.server (.handler index event)) ↔
      (event.drops = true →
        ∀ session ∈ watch.state.server.sessions[index]?,
          ∀ other, other < watch.state.server.sessions.length →
            other ≠ index → ¬ FedBy timeout watch other session.clientId) := by
  constructor
  · intro spares drops session found other _ isOther
    exact spares drops session found other isOther
  · intro spares drops session found other isOther fed
    exact spares drops session found other fed.inRange isOther fed

instance (timeout : Nat) (watch : Watch) (event : Event) :
    Decidable (SparesFed timeout watch event) :=
  match event with
  | .server (.handler index event) =>
      decidable_of_iff' _ (sparesFed_handler_iff timeout watch index event)
  | .removeNext =>
      match isRemoving : watch.state.monitor with
      | .removing (clientId :: timedOut) =>
          decidable_of_iff (¬ Fed timeout watch clientId)
            (by simp [SparesFed, isRemoving])
      | .removing [] => isTrue (by simp [SparesFed, isRemoving])
      | .waiting => isTrue (by simp [SparesFed, isRemoving])
      | .scanning _ _ => isTrue (by simp [SparesFed, isRemoving])
  | .server .handshakeFailed => instDecidableTrue
  | .server (.connect _ _ _) => instDecidableTrue
  | .server (.advance _ _) => instDecidableTrue
  | .server (.runDeliveryTask _) => instDecidableTrue
  | .server .shutdown => instDecidableTrue
  | .tick _ => instDecidableTrue
  | .startPass => instDecidableTrue
  | .visit _ => instDecidableTrue
  | .endScan => instDecidableTrue

def oneSilent : List Event :=
  [.server (.connect "receiver_1" "10.0.0.1" .smooth),
    .server (.connect "receiver_2" "10.0.0.2" .smooth),
    .tick 20,
    .server (.handler 0 (.read (some (Utf8.encode "heartbeat\n")) .smooth)),
    .tick 15,
    .startPass, .visit "receiver_2", .visit "receiver_1", .endScan,
    .removeNext, .removeNext,
    .server (.handler 1 (.read none .smooth))]

theorem fedAlive_oneSilent :
    ∃ watch, ReachableWhile (Recorded.step (step 30 Server.twoReceivers) note)
        (SparesFed 30) ⟨new Server.twoReceivers, KeyMap.empty⟩ watch ∧
      Fed 30 watch "receiver_1" ∧
      watch.state.isAlive 30 "receiver_1" = true ∧
      watch.state.isAlive 30 "receiver_2" = false := by
  have ran : (executeWhile (Recorded.step (step 30 Server.twoReceivers) note)
      (SparesFed 30) ⟨new Server.twoReceivers, KeyMap.empty⟩ oneSilent).map
        (fun watch => (decide (Fed 30 watch "receiver_1"),
          watch.state.isAlive 30 "receiver_2")) = some (true, false) := by
    decide +kernel
  obtain ⟨watch, reached, facts⟩ := exists_reachableWhile_of_map ran
  simp only [Prod.mk.injEq, decide_eq_true_eq] at facts
  exact ⟨watch, reached, facts.1,
    (fedAlive_of_sparesFed reached).1 "receiver_1" facts.1, facts.2⟩

/-- A client connects twice, sends data on the first connection and ends the
second. -/
def secondConnectionEnds : List Event :=
  [.server (.connect "receiver_1" "10.0.0.1" .smooth),
    .server (.connect "receiver_1" "10.0.0.1" .smooth),
    .server (.handler 0 (.read (some (Utf8.encode "heartbeat\n")) .smooth)),
    .server (.handler 1 (.read (some []) .smooth))]

theorem not_fedAlive_secondConnectionEnds :
    ∃ watch, Reachable (Recorded.step (step 60 Server.twoReceivers) note)
        ⟨new Server.twoReceivers, KeyMap.empty⟩ watch ∧
      Fed 60 watch "receiver_1" ∧
      watch.state.isAlive 60 "receiver_1" = false := by
  have ran : (executeWhile (Recorded.step (step 60 Server.twoReceivers) note)
      (fun _ _ => True) ⟨new Server.twoReceivers, KeyMap.empty⟩
      secondConnectionEnds).map
        (fun watch => (decide (Fed 60 watch "receiver_1"),
          watch.state.isAlive 60 "receiver_1")) = some (true, false) := by
    decide +kernel
  obtain ⟨watch, reached, facts⟩ := exists_reachableWhile_of_map ran
  simp only [Prod.mk.injEq, decide_eq_true_eq] at facts
  exact ⟨watch, reached, facts⟩

end Monitored

end CipherMQ
