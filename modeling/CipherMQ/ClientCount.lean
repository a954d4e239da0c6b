import CipherMQ.HandlerBooks

/-!
# The number of connected clients

The server counts a client when its connection is admitted and takes it off
the count on every way out of the handler.  The accept loop takes off one more
after every handshake that fails and once more when the server shuts down,
although nothing was counted there.  So the count is the number of open
sessions in exactly those runs in which neither happens, as long as the
sessions do not outgrow the counter.
-/

namespace CipherMQ

namespace Server

def openSessions (server : Server) : Nat :=
  server.sessions.countP Session.isOpen

def CountsClients (server : Server) : Prop :=
  server.broker.shared.connectedClients = server.openSessions

/-- No handshake fails, the server does not shut down, and a new session still
fits into the counter. -/
def KeepsCount (config : ServerConfig) (server : Server) : Event → Prop
  | .handshakeFailed => False
  | .shutdown => False
  | .connect clientId ip outcome =>
      (server.connect config clientId ip outcome).openSessions ≤
        ServerState.usizeMax
  | _ => True

instance (config : ServerConfig) (server : Server) (event : Event) :
    Decidable (server.KeepsCount config event) :=
  match event with
  | .handshakeFailed => instDecidableFalse
  | .shutdown => instDecidableFalse
  | .connect _ _ _ => inferInstanceAs (Decidable (_ ≤ _))
  | .handler _ _ => instDecidableTrue
  | .advance _ _ => instDecidableTrue
  | .runDeliveryTask _ => instDecidableTrue

theorem connect_counts (config : ServerConfig) (server : Server)
    (clientId ip : String) (outcome : Outcome) :
    ((server.connect config clientId ip outcome).openSessions =
        server.openSessions ∧
      (server.connect config clientId ip
        outcome).broker.shared.connectedClients =
          server.broker.shared.connectedClients) ∨
    ((server.connect config clientId ip outcome).openSessions =
        server.openSessions + 1 ∧
      (server.connect config clientId ip
        outcome).broker.shared.connectedClients =
          server.broker.shared.incrementClientCount.connectedClients) := by
  unfold connect
  dsimp only
  split
  · left
    refine ⟨?_, rfl⟩
    simp [openSessions, Session.isOpen, Session.new]
  · split
    · left
      refine ⟨?_, rfl⟩
      simp [openSessions, Session.isOpen, Session.new]
    · right
      refine ⟨?_, rfl⟩
      simp [openSessions, recordHeartbeat, Session.isOpen, Session.new]

/-- The counter is increased exactly as long as it is not full. -/
theorem incrementClientCount_eq_iff {state : ServerState}
    (bounded : state.connectedClients ≤ ServerState.usizeMax) :
    state.incrementClientCount.connectedClients = state.connectedClients + 1 ↔
      state.connectedClients + 1 ≤ ServerState.usizeMax := by
  unfold ServerState.incrementClientCount
  dsimp only
  split <;> omega

theorem decrementClientCount_ne (state : ServerState) :
    state.decrementClientCount.connectedClients ≠ state.connectedClients := by
  unfold ServerState.decrementClientCount
  dsimp only
  split
  · rename_i isZero
    rw [isZero]
    decide
  · omega

theorem openSessions_set {server : Server} {index : Nat} {session : Session}
    (found : server.sessions[index]? = some session) (next : Session) :
    (server.sessions.set index next).countP Session.isOpen +
        (if session.isOpen then 1 else 0) =
      server.openSessions + if next.isOpen then 1 else 0 := by
  obtain ⟨inRange, isSession⟩ := List.getElem?_eq_some_iff.mp found
  have counted : session.isOpen = true → 0 < server.openSessions := by
    intro isOpen
    exact List.countP_pos_iff.mpr
      ⟨session, List.mem_of_getElem? found, isOpen⟩
  unfold openSessions at counted ⊢
  rw [List.countP_set inRange, isSession]
  split
  · rename_i isOpen
    have := counted isOpen
    omega
  · omega

/-- A handler counts its client down exactly when its session ends. -/
theorem CountsClients.handled {before after : Server} {index : Nat}
    {session next : Session} {counter : Option Counter}
    {heartbeats : KeyMap String Nat} (counts : before.CountsClients)
    (found : before.sessions[index]? = some session)
    (accounted : Accounted before index session next counter heartbeats
      after) :
    after.CountsClients := by
  have sessions := openSessions_set found next
  rw [← accounted.sessions] at sessions
  have staysClosed := accounted.stays_closed
  unfold CountsClients at counts ⊢
  rw [accounted.connectedClients]
  unfold openSessions at sessions ⊢
  unfold openSessions at counts
  cases wasOpen : session.isOpen <;> cases isOpen : next.isOpen
  · simp only [wasOpen, isOpen, Bool.false_eq_true, if_false] at sessions
    rw [if_pos rfl, counts]
    omega
  · rw [wasOpen] at staysClosed
    exact absurd (staysClosed isOpen) (by decide)
  · -- The session that ends was counted, so the counter is not zero.
    simp only [wasOpen, isOpen, Bool.false_eq_true, if_false, if_true]
      at sessions
    rw [if_neg (by decide), ServerState.decrementClientCount]
    dsimp only
    rw [if_neg (by omega), counts]
    omega
  · simp only [wasOpen, isOpen, if_true] at sessions
    rw [if_pos rfl, counts]
    omega

def FitsWord (server : Server) : Prop :=
  server.broker.shared.connectedClients ≤ ServerState.usizeMax

theorem decrementClientCount_le {state : ServerState}
    (fits : state.connectedClients ≤ ServerState.usizeMax) :
    state.decrementClientCount.connectedClients ≤ ServerState.usizeMax := by
  unfold ServerState.decrementClientCount
  dsimp only
  split <;> omega

theorem incrementClientCount_le {state : ServerState}
    (fits : state.connectedClients ≤ ServerState.usizeMax) :
    state.incrementClientCount.connectedClients ≤ ServerState.usizeMax := by
  unfold ServerState.incrementClientCount
  dsimp only
  split <;> omega

theorem fitsWord_step {config : ServerConfig} {before after : Server}
    {event : Event} (fits : before.FitsWord)
    (stepTo : before.step config event = some after) : after.FitsWord := by
  unfold FitsWord at fits ⊢
  rcases step_books stepTo with ⟨-, rfl⟩ | ⟨clientId, ip, outcome, -, rfl⟩ |
    ⟨index, handlerEvent, session, next, -, -, -, -, accounted⟩ |
    ⟨broker, -, rfl, same⟩
  · exact decrementClientCount_le fits
  · rcases connect_counts config before clientId ip outcome with
      ⟨-, same⟩ | ⟨-, increased⟩
    · rw [same]
      exact fits
    · rw [increased]
      exact incrementClientCount_le fits
  · rw [accounted.connectedClients]
    split
    · exact fits
    · exact decrementClientCount_le fits
  · rw [same]
    exact fits

/-- A step keeps the count right exactly if it is none of those that count
down without a session. -/
theorem countsClients_step_iff {config : ServerConfig}
    {before after : Server} {event : Event} (fits : before.FitsWord)
    (counts : before.CountsClients)
    (stepTo : before.step config event = some after) :
    after.CountsClients ↔ before.KeepsCount config event := by
  rcases step_books stepTo with ⟨isUncounted, rfl⟩ |
    ⟨clientId, ip, outcome, rfl, rfl⟩ |
    ⟨index, handlerEvent, session, next, rfl, found, -, -, accounted⟩ |
    ⟨broker, isBrokers, rfl, same⟩
  · have notCounted : ¬ before.KeepsCount config event := by
      rcases isUncounted with rfl | rfl
      · exact id
      · exact id
    refine iff_of_false ?_ notCounted
    intro countsAfter
    exact decrementClientCount_ne before.broker.shared
      (countsAfter.trans counts.symm)
  · unfold FitsWord at fits
    unfold CountsClients at counts
    simp only [CountsClients, KeepsCount]
    rcases connect_counts config before clientId ip outcome with
      ⟨sameSessions, sameCount⟩ | ⟨oneMore, increased⟩
    · rw [sameSessions, sameCount]
      omega
    · rw [oneMore, increased, ← counts]
      exact incrementClientCount_eq_iff fits
  · exact iff_of_true (counts.handled found accounted) trivial
  · refine iff_of_true (same.trans counts) ?_
    cases event with
    | advance call reading => trivial
    | runDeliveryTask task => trivial
    | handshakeFailed => cases isBrokers
    | connect clientId ip outcome => cases isBrokers
    | handler index handlerEvent => cases isBrokers
    | shutdown => cases isBrokers

theorem countsClients_new (config : ServerConfig) :
    (new config).CountsClients :=
  rfl

/-- While no handshake fails and the server does not shut down, the counter is
the number of open sessions; the first failed handshake or the shutdown makes
it wrong. -/
theorem countsClients_of_keepsCount {config : ServerConfig} {server : Server}
    (reached : ReachableWhile (step config) (KeepsCount config) (new config)
      server) :
    server.CountsClients ∧ ∀ event after,
      server.step config event = some after →
        (after.CountsClients ↔ server.KeepsCount config event) :=
  reached.exact_invariant FitsWord (countsClients_new config) (Nat.zero_le _)
    (fun _ _ _ fits stepTo => fitsWord_step fits stepTo)
    (fun _ _ _ fits counts stepTo => countsClients_step_iff fits counts stepTo)

def comingAndGoing : List Event :=
  [.connect "receiver_1" "10.0.0.1" .smooth,
    .connect "receiver_2" "10.0.0.2" .smooth,
    .connect "stranger" "10.0.0.3" .smooth,
    .handler 0 (.read none .smooth),
    .handler 0 .close]

def twoReceivers : ServerConfig where
  acl := ⟨[], ["receiver_1", "receiver_2"], []⟩
  limits := ⟨0, 0⟩
  maxQueueSize := 10
  codec := ⟨fun _ => .error "", fun _ => .error "", fun _ => ""⟩

theorem countsClients_comingAndGoing :
    ∃ server, ReachableWhile (step twoReceivers) (KeepsCount twoReceivers)
        (new twoReceivers) server ∧
      server.sessions.length = 3 ∧ server.openSessions = 1 ∧
      server.CountsClients := by
  have ran : (executeWhile (step twoReceivers) (KeepsCount twoReceivers)
      (new twoReceivers) comingAndGoing).map
        (fun server => (server.sessions.length, server.openSessions)) =
      some (3, 1) := by
    decide +kernel
  obtain ⟨server, reached, counts⟩ := exists_reachableWhile_of_map ran
  simp only [Prod.mk.injEq] at counts
  exact ⟨server, reached, counts.1, counts.2,
    (countsClients_of_keepsCount reached).1⟩

/-- A handshake fails before anyone has connected, and the counter wraps. -/
theorem not_countsClients_handshakeFailed :
    ∃ server, Reachable (step twoReceivers) (new twoReceivers) server ∧
      server.openSessions = 0 ∧
      server.broker.shared.connectedClients = 2 ^ 64 - 1 ∧
      ¬ server.CountsClients := by
  refine ⟨(new twoReceivers).updateShared
    (new twoReceivers).broker.shared.decrementClientCount,
    .next .handshakeFailed .start trivial rfl, rfl, rfl, ?_⟩
  exact decrementClientCount_ne (new twoReceivers).broker.shared

end Server

end CipherMQ
