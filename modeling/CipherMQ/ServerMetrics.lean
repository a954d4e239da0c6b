import CipherMQ.ReceiverIsolation
import CipherMQ.ServerTally
import Mathlib.Data.Finset.Card

/-!
# What the counters of the server mean

Along the runs in which every acknowledgement removes a message and is counted
after a publish of its own, no command is denied and nothing is marked as
delivered, the counters of the server are right until one is full, and every
other step makes one of them wrong.

A message can be acknowledged before its publish has returned, so the number
of acknowledged messages can overtake that of published ones.  It does not
while no publish is on its way back.  This comes from a balance: every message
removed by an acknowledgement and every message still there was announced by a
publish of its own.
-/

namespace CipherMQ

/-- The publish has recorded the status of its message, and succeeds. -/
def Call.isAnnounced : Call → Bool
  | .publish _ (.notify _) => true
  | .publish _ (.returned (.ok ())) => true
  | _ => false

theorem Call.isAnnounced_advance {call : Call}
    (announced : call.isAnnounced = true) (reading : Reading)
    (state : ServerState) :
    (call.advance reading state).2.isAnnounced = true := by
  cases call with
  | publish request point =>
      cases point with
      | notify remaining => cases remaining <;> rfl
      | returned result => exact announced
      | _ => cases announced
  | _ => cases announced

/-- A call adds or removes a status only in three of its accesses. -/
theorem Access.isSome_messageStatus {before after : ServerState} {call : Call}
    (access : Access before call after)
    (notInsert : ∀ request targets,
      call ≠ .publish request (.insertStatus targets))
    (notEvict : ∀ request targets queueSet remaining oldMessageId,
      call ≠ .publish request
        (.evictStatus targets queueSet remaining oldMessageId))
    (notRemove : ∀ messageId, call ≠ .acknowledge messageId .removeStatus)
    (messageId : String) :
    (after.messageStatus messageId).isSome =
      (before.messageStatus messageId).isSome := by
  cases access with
  | insertStatus request targets => exact absurd rfl (notInsert _ _)
  | evictStatus request targets queueSet remaining oldMessageId =>
      exact absurd rfl (notEvict _ _ _ _ _)
  | removeStatus other => exact absurd rfl (notRemove _)
  | markAcknowledged other now =>
      simp only [ServerState.markAcknowledged, KeyMap.modify_apply]
      split
      · exact Option.isSome_map
      · rfl
  | _ => rfl

namespace Server

def awaitsAnnounced (calls : List Call) (session : Session) : Bool :=
  match session.activity with
  | .calling call _ => (calls[call]?).any Call.isAnnounced
  | _ => false

def announced (server : Server) : Nat :=
  server.sessions.countP (awaitsAnnounced server.broker.calls)

/-- Every removed message and every message still there was announced by a
publish of its own, which has returned or is on its way back. -/
def Balanced (audit : Audit) : Prop :=
  ∃ live : Finset String,
    (∀ messageId, (audit.state.broker.shared.messageStatus messageId).isSome =
        true ↔ messageId ∈ live) ∧
      audit.ledger.acked + audit.ledger.removing.length + live.card ≤
        audit.ledger.published + audit.state.announced

theorem Balanced.of_same {before after : Audit} (balanced : Balanced before)
    (statuses : ∀ messageId,
      (after.state.broker.shared.messageStatus messageId).isSome =
        (before.state.broker.shared.messageStatus messageId).isSome)
    (acked : after.ledger.acked + after.ledger.removing.length =
      before.ledger.acked + before.ledger.removing.length)
    (published : before.ledger.published + before.state.announced ≤
      after.ledger.published + after.state.announced) :
    Balanced after := by
  obtain ⟨live, isLive, enough⟩ := balanced
  refine ⟨live, ?_, by omega⟩
  intro messageId
  rw [statuses]
  exact isLive messageId

theorem Balanced.of_insert {before after : Audit} {messageId : String}
    {status : MessageStatus} (balanced : Balanced before)
    (statuses : after.state.broker.shared.messageStatus =
      before.state.broker.shared.messageStatus.insert messageId status)
    (tally : after.ledger = before.ledger)
    (oneMore : before.state.announced + 1 ≤ after.state.announced) :
    Balanced after := by
  obtain ⟨live, isLive, enough⟩ := balanced
  refine ⟨insert messageId live, ?_, ?_⟩
  · intro other
    rw [statuses, KeyMap.insert_apply, Finset.mem_insert]
    by_cases same : other = messageId
    · simp [same]
    · simp [same, isLive other]
  · have card := Finset.card_insert_le messageId live
    rw [tally]
    omega

theorem Balanced.of_remove {before after : Audit} {messageId : String}
    (balanced : Balanced before)
    (statuses : after.state.broker.shared.messageStatus =
      before.state.broker.shared.messageStatus.remove messageId)
    (acked : after.ledger.acked + after.ledger.removing.length ≤
      before.ledger.acked + before.ledger.removing.length +
        if (before.state.broker.shared.messageStatus messageId).isSome then 1
        else 0)
    (published : before.ledger.published + before.state.announced ≤
      after.ledger.published + after.state.announced) :
    Balanced after := by
  obtain ⟨live, isLive, enough⟩ := balanced
  refine ⟨live.erase messageId, ?_, ?_⟩
  · intro other
    rw [statuses, KeyMap.remove_apply, Finset.mem_erase]
    by_cases same : other = messageId
    · simp [same]
    · simp [same, isLive other]
  · split at acked
    · rename_i wasLive
      have member := (isLive messageId).mp wasLive
      have card := Finset.card_erase_of_mem member
      have positive := Finset.card_pos.mpr ⟨messageId, member⟩
      omega
    · have card := Finset.card_erase_le (s := live) (a := messageId)
      omega

theorem awaitsAnnounced_mono {calls later : List Call}
    (kept : ∀ (call : Nat) made, calls[call]? = some made →
      made.isAnnounced = true →
        ∃ moved, later[call]? = some moved ∧ moved.isAnnounced = true)
    {session : Session} (awaits : awaitsAnnounced calls session = true) :
    awaitsAnnounced later session = true := by
  unfold awaitsAnnounced at awaits ⊢
  split at awaits
  · rename_i call continuation isCalling
    obtain ⟨made, found, isAnnounced⟩ := Option.any_eq_true _ _ |>.mp awaits
    obtain ⟨moved, movedFound, stillAnnounced⟩ :=
      kept call made found isAnnounced
    simp [movedFound, stillAnnounced]
  · cases awaits

/-- Taking a return into account, no publish on its way back is lost. -/
theorem announced_set {before after : Server} {index : Nat}
    {session next : Session}
    (found : before.sessions[index]? = some session)
    (sessions : after.sessions = before.sessions.set index next)
    (kept : ∀ (call : Nat) made, before.broker.calls[call]? = some made →
      made.isAnnounced = true → ∃ moved,
        after.broker.calls[call]? = some moved ∧ moved.isAnnounced = true) :
    before.announced ≤ after.announced +
      if awaitsAnnounced before.broker.calls session then 1 else 0 := by
  obtain ⟨inRange, isSession⟩ := List.getElem?_eq_some_iff.mp found
  have counted : (before.sessions.set index next).countP
      (awaitsAnnounced before.broker.calls) ≤ after.announced := by
    unfold announced
    rw [sessions]
    apply List.countP_mono_left
    intro other _ awaits
    exact awaitsAnnounced_mono kept awaits
  rw [List.countP_set inRange, isSession] at counted
  unfold announced at counted ⊢
  omega

/-- A handler that goes on from an announced publish is told of success. -/
theorem published_noteHandler {config : ServerConfig}
    {before after : Server} {index : Nat} {session : Session}
    {event : HandlerEvent}
    (handles : before.handle config index session event = some after)
    (tally : Tally) :
    tally.published +
        (if awaitsAnnounced before.broker.calls session then 1 else 0) ≤
      (tally.noteHandler before session event).published := by
  by_cases awaits : awaitsAnnounced before.broker.calls session = true
  · rw [if_pos awaits]
    unfold awaitsAnnounced at awaits
    split at awaits
    · rename_i call continuation isCalling
      obtain ⟨made, found, isAnnounced⟩ := Option.any_eq_true _ _ |>.mp awaits
      have returned := isReturned_of_handle handles isCalling found
      have isPublish : ∃ request, made =
          .publish request (.returned (.ok ())) := by
        unfold Call.isAnnounced at isAnnounced
        split at isAnnounced
        · cases returned
        · exact ⟨_, rfl⟩
        · cases isAnnounced
      obtain ⟨request, rfl⟩ := isPublish
      cases event with
      | resume outcome =>
          simp [Tally.noteHandler, isCalling, found, Tally.noteReturn]
      | read result outcome => simp [handle, isCalling] at handles
      | receive => simp [handle, isCalling] at handles
      | deliver outcome => simp [handle, isCalling] at handles
      | channelClosed => simp [handle, isCalling] at handles
      | close => simp [handle, isCalling] at handles
    · cases awaits
  · rw [if_neg awaits, Nat.add_zero]
    have noteReturn : ∀ call made,
        tally.published ≤ (tally.noteReturn call made).published := by
      intro call made
      unfold Tally.noteReturn
      split
      · exact Nat.le_succ _
      · split <;> exact le_rfl
      · exact le_rfl
    unfold Tally.noteHandler
    split
    · split <;> exact le_rfl
    · split
      · rename_i call _ _
        cases before.broker.calls[call]? with
        | none => exact le_rfl
        | some made => exact noteReturn call made
      · exact le_rfl
    · split <;> exact le_rfl
    · exact le_rfl

/-- An acknowledgement that returns is moved from one place to the other. -/
theorem acked_noteHandler (server : Server) (session : Session)
    (event : HandlerEvent) (tally : Tally) :
    (tally.noteHandler server session event).acked +
        (tally.noteHandler server session event).removing.length =
      tally.acked + tally.removing.length := by
  have noteReturn : ∀ call made, (tally.noteReturn call made).acked +
      (tally.noteReturn call made).removing.length =
        tally.acked + tally.removing.length := by
    intro call made
    unfold Tally.noteReturn
    split
    · rfl
    · split
      · rename_i removed
        have positive := List.length_pos_of_mem removed
        dsimp only
        rw [List.length_erase_of_mem removed]
        omega
      · rfl
    · rfl
  unfold Tally.noteHandler
  split
  · split <;> rfl
  · split
    · rename_i call _ _
      cases server.broker.calls[call]? with
      | none => rfl
      | some made => exact noteReturn call made
    · rfl
  · split <;> rfl
  · rfl

theorem statuses_deliver (server : Server) (index : Nat) (session : Session)
    (outcome : Outcome) (delivery : Delivery) (point : DeliveryPoint)
    (messageId : String) :
    ((server.deliver index session outcome delivery
        point).broker.shared.messageStatus messageId).isSome =
      (server.broker.shared.messageStatus messageId).isSome := by
  have marked : ((server.broker.shared.markDelivered delivery.messageId
      outcome.now outcome.time).messageStatus messageId).isSome =
        (server.broker.shared.messageStatus messageId).isSome := by
    obtain ⟨messageStatus, storage, isMarked, same⟩ :=
      ServerState.markDelivered_frame server.broker.shared
        delivery.messageId outcome.now outcome.time
    have isSame := congrArg Option.isSome (same messageId)
    rw [Option.isSome_map, Option.isSome_map] at isSame
    rw [isMarked]
    exact isSame
  cases point with
  | checkStatus => rfl
  | checkDeliverable => rfl
  | write retryCount =>
      simp only [deliver]
      split
      · rfl
      · split <;> rfl
  | flush retryCount => rfl
  | markWritten => exact marked
  | markDelivered => exact marked

theorem Balanced.handle {config : ServerConfig} {before after : Audit}
    {index : Nat} {session : Session} {event : HandlerEvent}
    (balanced : Balanced before)
    (found : before.state.sessions[index]? = some session)
    (handles : before.state.handle config index session event =
      some after.state)
    (tally : after.ledger =
      before.ledger.noteHandler before.state session event) :
    Balanced after := by
  apply balanced.of_same
  · intro messageId
    cases deliveryMove_of_handle found handles with
    | quiet isOther quiet => rw [quiet.statuses]
    | receive found isWaiting isAfter =>
        rw [isAfter]
        rfl
    | deliver found isDelivering isAfter =>
        rw [isAfter]
        exact statuses_deliver _ _ _ _ _ _ messageId
  · rw [tally]
    exact acked_noteHandler before.state session event before.ledger
  · have returned := published_noteHandler handles before.ledger
    rw [← tally] at returned
    have onTheWay : before.state.announced ≤ after.state.announced +
        if awaitsAnnounced before.state.broker.calls session then 1
        else 0 := by
      cases moves_handle handles with
      | settles next sessions settled calls _ =>
          apply announced_set found sessions
          intro call made callFound isAnnounced
          rw [calls]
          exact ⟨made, callFound, isAnnounced⟩
      | calls next invocation continuation madeFor sessions waits calls _ =>
          apply announced_set found sessions
          intro call made callFound isAnnounced
          rw [calls]
          exact ⟨made, getElem?_append_kept callFound _, isAnnounced⟩
    omega

section Advance

variable {before after : Server} {call : Nat} {made : Call}
  {reading : Reading}
  (found : before.broker.calls[call]? = some made)
  (isAfter : after = { before with
    broker :=
      ⟨(made.advance reading before.broker.shared).1,
        before.broker.calls.set call
          (made.advance reading before.broker.shared).2⟩ })

include found isAfter

theorem announced_kept_advance (other : Nat) (otherMade : Call)
    (otherFound : before.broker.calls[other]? = some otherMade)
    (isAnnounced : otherMade.isAnnounced = true) :
    ∃ moved, after.broker.calls[other]? = some moved ∧
      moved.isAnnounced = true := by
  subst isAfter
  by_cases same : other = call
  · subst same
    rw [found] at otherFound
    cases otherFound
    exact ⟨_, getElem?_set_moved found _,
      Call.isAnnounced_advance isAnnounced reading before.broker.shared⟩
  · refine ⟨otherMade, ?_, isAnnounced⟩
    dsimp only
    rw [List.getElem?_set_ne (Ne.symm same)]
    exact otherFound

theorem announced_advance : before.announced ≤ after.announced := by
  have sessions : after.sessions = before.sessions := by
    rw [isAfter]
  unfold announced
  rw [sessions]
  apply List.countP_mono_left
  intro session _ awaits
  exact awaitsAnnounced_mono (announced_kept_advance found isAfter) awaits

/-- The handler of a publish that records its status is counted from now
on. -/
theorem announced_insertStatus {rights : Rights}
    (owned : Owned rights before) {request : PublishRequest}
    {targets : List String}
    (isInsert : made = .publish request (.insertStatus targets)) :
    before.announced + 1 ≤ after.announced := by
  subst isInsert
  obtain ⟨index, session, continuation, atIndex, isCalling⟩ :=
    owned.owner call _ found rfl
  have notBefore : awaitsAnnounced before.broker.calls session = false := by
    simp [awaitsAnnounced, isCalling, found, Call.isAnnounced]
  have movedFound : after.broker.calls[call]? =
      some (.publish request (.notify targets)) := by
    rw [isAfter]
    exact getElem?_set_moved found _
  have nowAnnounced : awaitsAnnounced after.broker.calls session = true := by
    simp [awaitsAnnounced, isCalling, movedFound, Call.isAnnounced]
  have sessions : after.sessions = before.sessions := by
    rw [isAfter]
  have others : ∀ list : List Session,
      list.countP (awaitsAnnounced before.broker.calls) ≤
        list.countP (awaitsAnnounced after.broker.calls) := by
    intro list
    apply List.countP_mono_left
    intro other _ awaits
    exact awaitsAnnounced_mono (announced_kept_advance found isAfter) awaits
  obtain ⟨earlier, later, isSplit⟩ :=
    List.append_of_mem (List.mem_of_getElem? atIndex)
  unfold announced
  rw [sessions, isSplit]
  simp only [List.countP_append, List.countP_cons, notBefore, nowAnnounced,
    Bool.false_eq_true, if_false, if_true]
  have before := others earlier
  have behind := others later
  omega

end Advance

theorem Balanced.advance {rights : Rights} {before after : Audit}
    {call : Nat} {made : Call} {reading : Reading}
    (balanced : Balanced before) (owned : Owned rights before.state)
    (found : before.state.broker.calls[call]? = some made)
    (isAfter : after.state = { before.state with
      broker :=
        ⟨(made.advance reading before.state.broker.shared).1,
          before.state.broker.calls.set call
            (made.advance reading before.state.broker.shared).2⟩ })
    (tally : after.ledger =
      Tally.note before.state (.advance call reading) before.ledger) :
    Balanced after := by
  have onTheWay := announced_advance found isAfter
  have shared : after.state.broker.shared =
      (made.advance reading before.state.broker.shared).1 := by
    rw [isAfter]
  have sameTally : (∀ messageId,
      made ≠ .acknowledge messageId .removeStatus) →
        after.ledger = before.ledger := by
    intro notRemove
    rw [tally, Tally.note]
    have removesNothing : before.state.removesLive call = false := by
      unfold removesLive
      rw [found]
      split
      · rename_i messageId isRemove
        exact absurd (Option.some.inj isRemove) (notRemove messageId)
      · rfl
    simp [removesNothing]
  by_cases inserts : ∃ request targets,
      made = .publish request (.insertStatus targets)
  · obtain ⟨request, targets, rfl⟩ := inserts
    apply balanced.of_insert
    · rw [shared]
      rfl
    · exact sameTally (by simp)
    · exact announced_insertStatus found isAfter owned rfl
  by_cases evicts : ∃ request targets queueSet remaining oldMessageId,
      made = .publish request
        (.evictStatus targets queueSet remaining oldMessageId)
  · obtain ⟨request, targets, queueSet, remaining, old, rfl⟩ := evicts
    apply balanced.of_remove
    · rw [shared]
      rfl
    · rw [sameTally (by simp)]
      omega
    · rw [sameTally (by simp)]
      omega
  by_cases removes : ∃ messageId, made = .acknowledge messageId .removeStatus
  · obtain ⟨messageId, rfl⟩ := removes
    have removed : before.state.removesLive call =
        (before.state.broker.shared.messageStatus messageId).isSome := by
      simp [removesLive, found]
    refine balanced.of_remove (by rw [shared]; rfl) ?_ ?_
    · rw [tally, Tally.note, removed]
      split
      · simp only [List.length_cons]
        omega
      · exact le_rfl
    · have published : after.ledger.published = before.ledger.published := by
        rw [tally, Tally.note]
        split <;> rfl
      omega
  have notRemove : ∀ messageId,
      made ≠ .acknowledge messageId .removeStatus :=
    fun messageId isRemove => removes ⟨messageId, isRemove⟩
  apply balanced.of_same
  · intro messageId
    rw [shared]
    apply Access.isSome_messageStatus
      (access_advance reading before.state.broker.shared made)
    · exact fun request targets isInsert =>
        inserts ⟨request, targets, isInsert⟩
    · exact fun request targets queueSet remaining old isEvict =>
        evicts ⟨request, targets, queueSet, remaining, old, isEvict⟩
    · exact notRemove
  · rw [sameTally notRemove]
  · rw [sameTally notRemove]
    omega

/-! ## Whole runs -/

structure Audited (audit : Audit) : Prop where
  awaits : audit.state.Awaits
  owned : Owned (fun _ _ _ => True) audit.state
  balanced : Balanced audit

theorem balanced_step {config : ServerConfig} {before after : Audit}
    {event : Event} (audited : Audited before)
    (stepTo : Recorded.step (step config) Tally.note before event =
      some after) :
    Balanced after := by
  obtain ⟨stepped, noted⟩ := Recorded.step_cases stepTo
  cases event with
  | handler index handlerEvent =>
      obtain ⟨session, found, handles⟩ := Option.bind_eq_some_iff.mp stepped
      simp only [Tally.note, found] at noted
      exact audited.balanced.handle found handles noted
  | advance call reading =>
      obtain ⟨broker, moved, isAfter⟩ := Option.map_eq_some_iff.mp stepped
      obtain ⟨made, found, -, rfl⟩ := Broker.advance_cases moved
      exact audited.balanced.advance audited.owned found isAfter.symm noted
  | connect clientId ip outcome =>
      have isAfter := (Option.some.inj stepped).symm
      have quiet := quiet_connect config before.state clientId ip outcome
      obtain ⟨session, joins⟩ :=
        joins_connect config before.state clientId ip outcome
      rw [← isAfter] at quiet joins
      apply audited.balanced.of_same
      · intro messageId
        rw [quiet.statuses]
      · rw [noted]
        rfl
      · rw [noted]
        simp only [Tally.note, announced, joins.sessions, joins.calls,
          List.countP_append]
        omega
  | runDeliveryTask task =>
      have isAfter := (Option.some.inj stepped).symm
      obtain ⟨channels, deliveryTasks, ran⟩ :=
        ServerState.runDeliveryTask_frame before.state.broker.shared task
      apply audited.balanced.of_same
      · intro messageId
        rw [isAfter]
        dsimp only
        rw [ran]
      · rw [noted]
        rfl
      · rw [noted, isAfter]
        exact le_rfl
  | handshakeFailed =>
      have isAfter := (Option.some.inj stepped).symm
      apply audited.balanced.of_same
      · intro messageId
        rw [isAfter]
        rfl
      · rw [noted]
        rfl
      · rw [noted, isAfter]
        exact le_rfl
  | shutdown =>
      have isAfter := (Option.some.inj stepped).symm
      apply audited.balanced.of_same
      · intro messageId
        rw [isAfter]
        rfl
      · rw [noted]
        rfl
      · rw [noted, isAfter]
        exact le_rfl

theorem audited_step {config : ServerConfig} {before after : Audit}
    {event : Event} (audited : Audited before)
    (stepTo : Recorded.step (step config) Tally.note before event =
      some after) :
    Audited after where
  awaits := audited.awaits.step (Recorded.step_cases stepTo).1
  owned := audited.owned.step (fun _ _ _ _ _ => trivial)
    (fun _ _ _ _ _ _ _ _ => trivial) (Recorded.step_cases stepTo).1
  balanced := balanced_step audited stepTo

theorem audited_new (config : ServerConfig) :
    Audited ⟨new config, .new⟩ := by
  refine ⟨?_, owned_new _ config, ∅, ?_, le_rfl⟩
  · intro index session call continuation found
    cases found
  · intro messageId
    simp [new, Broker.new, ServerState.new]

theorem countsTruly_new (config : ServerConfig) :
    CountsTruly ⟨new config, .new⟩ :=
  ⟨rfl, rfl, rfl, rfl, UInt64.le_refl _⟩

/-- With no publish on its way back, an acknowledgement that has removed a
message is counted after a publish. -/
theorem acked_lt_published {audit : Audit} (balanced : Balanced audit)
    (quiet : audit.state.announced = 0) {call : Nat}
    (removed : call ∈ audit.ledger.removing) :
    audit.ledger.acked < audit.ledger.published := by
  obtain ⟨live, -, enough⟩ := balanced
  have positive := List.length_pos_of_mem removed
  omega

/-- While every step counts rightly, the counters mean what they say and not
more messages are acknowledged than published; the first other step makes a
counter wrong, or lets the acknowledgements overtake.  They cannot overtake
while no publish is on its way back. -/
theorem countsTruly_of_auditsRightly {config : ServerConfig} {audit : Audit}
    (reached : ReachableWhile (Recorded.step (step config) Tally.note)
      AuditsRightly ⟨new config, .new⟩ audit) :
    CountsTruly audit ∧
      (∀ event after,
        Recorded.step (step config) Tally.note audit event = some after →
          (CountsTruly after ↔ AuditsRightly audit event)) ∧
      (audit.state.announced = 0 → ∀ call ∈ audit.ledger.removing,
        audit.ledger.acked < audit.ledger.published) := by
  have audited : Audited audit := by
    apply reached.invariant Audited (audited_new config)
    intro before event after audited _ stepTo
    exact audited_step audited stepTo
  obtain ⟨truly, exactly⟩ := reached.exact_invariant Audited
    (countsTruly_new config) (audited_new config)
    (fun _ _ _ audited stepTo => audited_step audited stepTo)
    (fun _ _ _ audited truly stepTo =>
      countsTruly_step_iff audited.awaits truly stepTo)
  exact ⟨truly, exactly, fun quiet _ removed =>
    acked_lt_published audited.balanced quiet removed⟩

instance (call : Nat) (tally : Tally) (made : Call) :
    Decidable (CountsReturn call tally made) := by
  unfold CountsReturn
  split <;> infer_instance

instance (server : Server) (session : Session) (tally : Tally)
    (event : HandlerEvent) :
    Decidable (CountsRightly server session tally event) := by
  unfold CountsRightly
  split
  · infer_instance
  · split <;> infer_instance
  · infer_instance
  · infer_instance

instance (audit : Audit) (event : Event) :
    Decidable (AuditsRightly audit event) := by
  unfold AuditsRightly
  split <;> infer_instance

/-- The message of `consumingRun` is acknowledged on the other connection of
its receiver, whose next request is rejected by the limiter. -/
def acknowledgingRun : List Event :=
  consumingRun "receiver_1" ++ request 0 "ack m1\n" 5 8 ++
    [.handler 0 (.read (some (Utf8.encode "ack m1\n"))
      { Outcome.smooth with limited := true })]

theorem countsTruly_acknowledgingRun :
    ∃ audit, ReachableWhile (Recorded.step (step sampleConfig) Tally.note)
        AuditsRightly ⟨new sampleConfig, .new⟩ audit ∧
      audit.state.metrics = ⟨1, 1, 0, 3, 0, 1⟩ ∧ CountsTruly audit := by
  have ran : (executeWhile (Recorded.step (step sampleConfig) Tally.note)
      AuditsRightly ⟨new sampleConfig, .new⟩ acknowledgingRun).map
        (fun audit => audit.state.metrics) = some ⟨1, 1, 0, 3, 0, 1⟩ := by
    decide +kernel
  obtain ⟨audit, reached, metrics⟩ := exists_reachableWhile_of_map ran
  exact ⟨audit, reached, metrics,
    (countsTruly_of_auditsRightly reached).1⟩

/-- The message of `consumingRun` is delivered; then its receiver
acknowledges a message that does not exist, and tries to publish. -/
def miscountedRun : List Event :=
  consumingRun "receiver_1" ++
    List.replicate 3 (.handler 1 (.deliver .smooth)) ++
    request 0 "ack m9\n" 5 1 ++
    [.handler 0 (.read (some (Utf8.encode "publish e k x\n")) .smooth)]

/-- The message of `consumingRun` is acknowledged and published again, and
acknowledged again before the publish has returned. -/
def overtakingRun : List Event :=
  consumingRun "receiver_1" ++ request 0 "ack m1\n" 5 8 ++
    (request 2 ("publish e receiver_1_key " ++ sampleJson ++ "\n") 6
      8).dropLast ++
    request 0 "ack m1\n" 7 8

/-- An acknowledgement, a denied request and a delivery are miscounted; and
counters that are right need not be in order. -/
theorem not_countsTruly_miscountedRun :
    (∃ audit, Reachable (Recorded.step (step sampleConfig) Tally.note)
        ⟨new sampleConfig, .new⟩ audit ∧
      audit.state.metrics = ⟨1, 1, 0, 3, 0, 1⟩ ∧
      audit.ledger = ⟨1, 0, [], 1, 0⟩ ∧ ¬ CountsTruly audit) ∧
    ∃ audit, Reachable (Recorded.step (step sampleConfig) Tally.note)
        ⟨new sampleConfig, .new⟩ audit ∧
      audit.state.metrics = ⟨1, 2, 0, 3, 0, 0⟩ ∧
      audit.ledger = ⟨1, 2, [], 0, 0⟩ ∧ ¬ CountsTruly audit := by
  have ends : ∀ events metrics tally,
      (executeWhile (Recorded.step (step sampleConfig) Tally.note)
        (fun _ _ => True) ⟨new sampleConfig, .new⟩ events).map
          (fun audit => (audit.state.metrics, audit.ledger)) =
        some (metrics, tally) →
      metrics.messagesAcked.toNat ≠ tally.acked ∨
        ¬ metrics.messagesAcked ≤ metrics.messagesPublished →
      ∃ audit, Reachable (Recorded.step (step sampleConfig) Tally.note)
          ⟨new sampleConfig, .new⟩ audit ∧
        audit.state.metrics = metrics ∧ audit.ledger = tally ∧
        ¬ CountsTruly audit := by
    intro events metrics tally ran wrong
    obtain ⟨audit, reached, seen⟩ := exists_reachableWhile_of_map ran
    obtain ⟨isMetrics, isTally⟩ := Prod.mk.inj seen
    refine ⟨audit, reached, isMetrics, isTally, ?_⟩
    intro truly
    rw [← isMetrics, ← isTally] at wrong
    exact wrong.elim (· truly.acked) (· truly.ordered)
  exact ⟨ends miscountedRun _ _ (by decide +kernel) (by decide),
    ends overtakingRun _ _ (by decide +kernel) (by decide)⟩

end Server

end CipherMQ
