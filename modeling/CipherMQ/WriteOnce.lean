import CipherMQ.RestartAccounting
import CipherMQ.StorageLoop

/-!
# Rows are written once

No statement of the worker removes a row, and each of those that fill in a
time leaves a time that is there alone.  Saving the metadata of a message
again overwrites the other columns only.

The updates of times are put on the channel by handlers that find the status
of a message.  A status is inserted after the reply to the row of the message,
so the command that has inserted the row is an earlier one in the channel.  To
say so, a chronicle keeps every command ever put on the channel, and the
positions of those that have inserted a row.
-/

namespace CipherMQ

open ServerState

namespace StorageWorker

/-! ## What statements do to rows -/

def KeepsRows (before after : StorageWorker) : Prop :=
  ∀ messageId row, before.messageMetadata.lookup messageId = some row →
    ∃ kept, after.messageMetadata.lookup messageId = some kept ∧
      ∀ column time, row.time column = some time →
        kept.time column = some time

theorem KeepsRows.of_eq {before after : StorageWorker}
    (same : after.messageMetadata = before.messageMetadata) :
    KeepsRows before after := by
  intro messageId row found
  exact ⟨row, same ▸ found, fun _ _ isTime => isTime⟩

theorem KeepsRows.trans {first second third : StorageWorker}
    (begins : KeepsRows first second) (goesOn : KeepsRows second third) :
    KeepsRows first third := by
  intro messageId row found
  obtain ⟨middle, foundMiddle, keptMiddle⟩ := begins messageId row found
  obtain ⟨last, foundLast, keptLast⟩ := goesOn messageId middle foundMiddle
  refine ⟨last, foundLast, ?_⟩
  intro column time isTime
  exact keptLast column time (keptMiddle column time isTime)

variable (worker : StorageWorker)

theorem keepsRows_saveMetadata (metadata : MessageMetadata)
    (statement : Except String Unit) :
    KeepsRows worker (worker.saveMetadata metadata statement).1 := by
  cases statement with
  | error error => exact .of_eq rfl
  | ok _ =>
      intro messageId row found
      rw [lookup_saveMetadata]
      split
      · rename_i isId
        rw [← isId, found]
        refine ⟨row.merge metadata, rfl, ?_⟩
        intro column time isTime
        rw [MessageMetadata.time_merge, isTime]
      · exact ⟨row, found, fun _ _ isTime => isTime⟩

/-- Filling in a time keeps the one that is there. -/
theorem time_fill_of_some {row : MessageMetadata} {other : TimeColumn}
    {time : String} (isTime : row.time other = some time)
    (column : TimeColumn) (filling : Option String) :
    (row.fill column filling).time other = some time := by
  rw [MessageMetadata.time_fill, isTime]
  split <;> rfl

theorem keepsRows_flush (column : TimeColumn)
    (statement : Except String Unit) :
    KeepsRows worker (worker.flush column statement) := by
  cases statement with
  | error error => exact .of_eq (messageMetadata_flush_error ..)
  | ok _ =>
      intro messageId row found
      rw [lookup_flush, found]
      exact ⟨_, rfl, fun _ _ isTime => time_fill_of_some isTime _ _⟩

theorem keepsRows_updateTimeAsync (column : TimeColumn)
    (messageId time : String) (statement : Except String Unit) :
    KeepsRows worker
      (worker.updateTimeAsync column messageId time statement) := by
  have buffers : KeepsRows worker (worker.buffer column messageId time) :=
    .of_eq (messageMetadata_buffer ..)
  rw [updateTimeAsync_eq]
  split
  · exact buffers.trans (keepsRows_flush _ column statement)
  · exact buffers

theorem keepsRows_updateTimeSync (column : TimeColumn)
    (messageId time : String) (statement : Except String Unit) :
    KeepsRows worker
      (updateTimeSync column worker messageId time statement).1 := by
  cases statement with
  | error error => exact .of_eq rfl
  | ok _ =>
      intro other row found
      rw [lookup_updateTimeSync, found]
      exact ⟨_, rfl, fun _ _ isTime => time_fill_of_some isTime _ _⟩

theorem keepsRows_tick (delivered acknowledged : Except String Unit) :
    KeepsRows worker (worker.tick delivered acknowledged) :=
  (keepsRows_flush worker .delivered delivered).trans
    (keepsRows_flush _ .acknowledged acknowledged)

theorem keepsRows_handle {cipher : KeyCipher} {nonce : List UInt8}
    {statement : Except String Unit} {command : StorageCommand}
    {handled : StorageWorker × Option Reply}
    (handles : worker.handle cipher nonce statement command =
      some handled) :
    KeepsRows worker handled.1 := by
  cases command with
  | saveMetadata metadata =>
      cases handles
      exact keepsRows_saveMetadata worker metadata statement
  | updateDeliveredTimeAsync messageId time =>
      cases handles
      exact keepsRows_updateTimeAsync worker .delivered messageId time
        statement
  | updateAcknowledgedTimeAsync messageId time =>
      cases handles
      exact keepsRows_updateTimeAsync worker .acknowledged messageId time
        statement
  | getClientIdForMessage messageId =>
      cases handles
      exact .of_eq rfl
  | savePublicKey keyData =>
      obtain ⟨saved, saves, rfl⟩ := Option.map_eq_some_iff.mp handles
      exact .of_eq (worker.savePublicKey_frame saves).1
  | getPublicKey clientId =>
      obtain ⟨found, -, rfl⟩ := Option.map_eq_some_iff.mp handles
      exact .of_eq rfl

/-- No round of the worker removes a row or changes a time. -/
theorem keepsRows_serve {cipher : KeyCipher} {event : Event}
    {after : StorageWorker} {response : Option Response}
    (serves : worker.serve cipher event = some (after, response)) :
    KeepsRows worker after := by
  cases event with
  | tick delivered acknowledged =>
      cases serves
      exact keepsRows_tick worker delivered acknowledged
  | receive command conditions =>
      simp only [serve] at serves
      split at serves
      · cases serves
        exact .of_eq rfl
      · cases command with
        | storage command =>
            obtain ⟨handled, handles, isAfter⟩ :=
              Option.map_eq_some_iff.mp serves
            obtain rfl : handled.1 = after := congrArg Prod.fst isAfter
            exact keepsRows_handle worker handles
        | updateDeliveredTime messageId time =>
            cases serves
            exact keepsRows_updateTimeSync worker .delivered messageId time _
        | updateAcknowledgedTime messageId time =>
            cases serves
            exact keepsRows_updateTimeSync worker .acknowledged messageId
              time _
        | loadUnacknowledgedMetadata =>
            cases serves
            exact .of_eq rfl
        | flushUpdates =>
            cases serves
            exact keepsRows_tick worker _ _

end StorageWorker

namespace PersistentBroker

/-! ## Which updates are reported -/

def savedId : StorageCommand → Option String
  | .saveMetadata metadata => some metadata.messageId
  | _ => none

def updatedId : StorageCommand → Option String
  | .updateDeliveredTimeAsync messageId _ => some messageId
  | .updateAcknowledgedTimeAsync messageId _ => some messageId
  | _ => none

theorem updatedId_of_isQuery {command : StorageCommand}
    (queries : isQuery command = true) : updatedId command = none := by
  cases command <;> first | rfl | cases queries

/-- The points of an acknowledgement that has found a status. -/
def foundStatus : AcknowledgePoint → Bool
  | .checkStatus => false
  | .returned => false
  | _ => true

theorem foundStatus_acknowledgeStep {state : ServerState}
    {messageId : String} {reading : Reading} {point : AcknowledgePoint}
    (found : foundStatus
      (state.acknowledgeStep messageId reading point).2 = true) :
    foundStatus point = true ∨ (state.messageStatus messageId).isSome := by
  cases point with
  | checkStatus =>
      simp only [acknowledgeStep] at found
      split at found
      · rename_i present
        exact .inr present
      · cases found
  | returned => cases found
  | _ => exact .inl rfl

/-- An acknowledgement goes on only if it finds a status. -/
theorem foundStatus_cases {before after : Broker} {event : Broker.Event}
    {messageId : String} {point : AcknowledgePoint}
    (stepTo : before.step event = some after)
    (member : .acknowledge messageId point ∈ after.calls)
    (found : foundStatus point = true) :
    (∃ earlier, .acknowledge messageId earlier ∈ before.calls ∧
      foundStatus earlier = true) ∨
      (before.shared.messageStatus messageId).isSome := by
  rcases Broker.step_cases stepTo with
    ⟨invocation, -, rfl⟩ | ⟨index, reading, call, rfl, isCall, -, rfl⟩ |
    ⟨_, _, -, rfl⟩ | ⟨_, -, rfl⟩ | ⟨_, -, rfl⟩ | ⟨_, _, -, rfl⟩
  · rcases List.mem_append.mp member with old | started
    · exact .inl ⟨point, old, found⟩
    · rw [List.mem_singleton] at started
      cases invocation <;> cases started
      cases found
  · rcases List.mem_or_eq_of_mem_set member with old | advanced
    · exact .inl ⟨point, old, found⟩
    · cases call with
      | acknowledge other earlier =>
          cases advanced
          rcases foundStatus_acknowledgeStep found with already | tracked
          · exact .inl ⟨earlier, List.mem_of_getElem? isCall, already⟩
          · exact .inr tracked
      | declareQueue _ point => cases point <;> cases advanced
      | declareExchange _ point => cases point <;> cases advanced
      | bindQueue => cases advanced
      | publish => cases advanced
      | registerConsumer => cases advanced
  · exact .inl ⟨point, member, found⟩
  · exact .inl ⟨point, member, found⟩
  · exact .inl ⟨point, member, found⟩
  · exact .inl ⟨point, member, found⟩

/-- An update is reported for a message with a status, or by an
acknowledgement that has found one. -/
theorem updatedId_of_reported {before after : Broker}
    {event : Broker.Event} {command : StorageCommand} {messageId : String}
    (stepTo : before.step event = some after)
    (sameStorage : ∀ count storage, event = .bookkeep count storage →
      storage = before.shared.storage)
    (member : command ∈ reported before after)
    (updates : updatedId command = some messageId) :
    (before.shared.messageStatus messageId).isSome ∨
      ∃ point, .acknowledge messageId point ∈ before.calls ∧
        foundStatus point = true := by
  rcases storage_step stepTo sameStorage with same | ⟨metadata, sent⟩ |
    ⟨other, time, sent, tracked⟩ | ⟨other, time, sent, marked⟩
  · simp [reported, same] at member
  · simp [reported_of_send sent, savesMetadata] at member
  · simp only [reported_of_send sent, savesMetadata, Bool.not_false,
      List.filter_cons_of_pos, List.filter_nil, List.mem_singleton] at member
    subst member
    cases updates
    exact .inl tracked
  · simp only [reported_of_send sent, savesMetadata, Bool.not_false,
      List.filter_cons_of_pos, List.filter_nil, List.mem_singleton] at member
    subst member
    cases updates
    exact .inr ⟨.report, marked, rfl⟩

/-! ## The chronicle of the channel -/

/-- A broker with all commands ever put on its storage channel, oldest first,
and the positions of those that have inserted or updated a row. -/
structure Chronicle where
  state : PersistentBroker
  enqueued : List StorageCommand
  inserted : List Nat

namespace Chronicle

def new (maxQueueSize : Nat)
    (messageMetadata : Table MessageMetadata.messageId)
    (publicKeys : Table PublicKeyRow.clientId) : Chronicle :=
  ⟨.new maxQueueSize messageMetadata publicKeys, [], []⟩

/-- The position of the command whose row a step saves. -/
def insertedBy (chronicle : Chronicle) : Event → List Nat
  | .work _ (.ok ()) =>
      match chronicle.state.channel with
      | (.saveMetadata _, _) :: _ =>
          [chronicle.enqueued.length - chronicle.state.channel.length]
      | _ => []
  | _ => []

def step (cipher : KeyCipher) (chronicle : Chronicle) (event : Event) :
    Option Chronicle :=
  (chronicle.state.step cipher event).map fun after =>
    { state := after
      enqueued := chronicle.enqueued ++
        (after.channel.drop chronicle.state.channel.length).map Prod.fst
      inserted := chronicle.inserted ++ chronicle.insertedBy event }

/-- The command at a position has saved a row of the message. -/
def InsertedAt (chronicle : Chronicle) (messageId : String)
    (position : Nat) : Prop :=
  position ∈ chronicle.inserted ∧
    (chronicle.enqueued[position]?).bind savedId = some messageId

def Inserted (chronicle : Chronicle) (messageId : String) : Prop :=
  ∃ position, chronicle.InsertedAt messageId position

/-- The commands that wait are the last ones put on the channel; statuses and
acknowledgements are about inserted rows, and so is every update, by a
command before it. -/
structure Ordered (chronicle : Chronicle) : Prop where
  waiting : chronicle.state.channel.map Prod.fst <:+ chronicle.enqueued
  grounded : chronicle.state.Grounded chronicle.Inserted
  acknowledging : ∀ messageId point,
    .acknowledge messageId point ∈ chronicle.state.broker.calls →
      foundStatus point = true → chronicle.Inserted messageId
  preceded : ∀ (position : Nat) (messageId : String),
    (chronicle.enqueued[position]?).bind updatedId = some messageId →
      ∃ earlier, earlier < position ∧
        chronicle.InsertedAt messageId earlier

theorem InsertedAt.append {chronicle : Chronicle} {messageId : String}
    {position : Nat} (inserted : chronicle.InsertedAt messageId position)
    (state : PersistentBroker) (commands : List StorageCommand)
    (positions : List Nat) :
    InsertedAt ⟨state, chronicle.enqueued ++ commands,
      chronicle.inserted ++ positions⟩ messageId position := by
  obtain ⟨member, isSaved⟩ := inserted
  obtain ⟨command, found, isId⟩ := Option.bind_eq_some_iff.mp isSaved
  refine ⟨List.mem_append_left _ member, ?_⟩
  rw [getElem?_append_kept found]
  exact isId

theorem InsertedAt.lt_length {chronicle : Chronicle} {messageId : String}
    {position : Nat} (inserted : chronicle.InsertedAt messageId position) :
    position < chronicle.enqueued.length := by
  obtain ⟨command, found, -⟩ := Option.bind_eq_some_iff.mp inserted.2
  exact (List.getElem?_eq_some_iff.mp found).1

namespace Ordered

variable {chronicle : Chronicle} (ordered : chronicle.Ordered)
  {after : PersistentBroker}

include ordered

theorem enqueue {entries : List (StorageCommand × Option Nat)}
    (channel : after.channel = chronicle.state.channel ++ entries)
    (grounded : after.Grounded chronicle.Inserted)
    (acknowledging : ∀ messageId point,
      .acknowledge messageId point ∈ after.broker.calls →
        foundStatus point = true → chronicle.Inserted messageId)
    (named : ∀ entry ∈ entries, ∀ messageId,
      updatedId entry.1 = some messageId → chronicle.Inserted messageId) :
    Ordered ⟨after, chronicle.enqueued ++
      (after.channel.drop chronicle.state.channel.length).map Prod.fst,
      chronicle.inserted ++ []⟩ := by
  have isNew : after.channel.drop chronicle.state.channel.length =
      entries := by
    rw [channel, List.drop_left]
  rw [isNew]
  have stays : ∀ messageId, chronicle.Inserted messageId →
      Inserted ⟨after, chronicle.enqueued ++ entries.map Prod.fst,
        chronicle.inserted ++ []⟩ messageId := by
    rintro messageId ⟨position, inserted⟩
    exact ⟨position, inserted.append _ _ _⟩
  refine ⟨?_, ?_, ?_, ?_⟩
  · rw [channel, List.map_append]
    obtain ⟨done, isDone⟩ := ordered.waiting
    exact ⟨done, by rw [← isDone, List.append_assoc]⟩
  · exact grounded.worker rfl (fun _ member => member) stays
      (fun _ replied => .inl replied)
  · intro messageId point member found
    exact stays _ (acknowledging messageId point member found)
  · intro position messageId updates
    obtain ⟨command, found, isUpdate⟩ := Option.bind_eq_some_iff.mp updates
    by_cases old : position < chronicle.enqueued.length
    · rw [List.getElem?_append_left old] at found
      obtain ⟨earlier, isEarlier, inserted⟩ := ordered.preceded position
        messageId (Option.bind_eq_some_iff.mpr ⟨command, found, isUpdate⟩)
      exact ⟨earlier, isEarlier, inserted.append _ _ _⟩
    · -- every row was inserted by a command that is there already
      rw [List.getElem?_append_right (by omega)] at found
      obtain ⟨entry, member, rfl⟩ :=
        List.mem_map.mp (List.mem_of_getElem? found)
      obtain ⟨earlier, inserted⟩ := named entry member messageId isUpdate
      have isEarlier := inserted.lt_length
      exact ⟨earlier, by omega, inserted.append _ _ _⟩

/-- The worker takes the first command off the channel. -/
theorem take {entry : StorageCommand × Option Nat}
    {rest : List (StorageCommand × Option Nat)} {positions : List Nat}
    (next : chronicle.state.channel = entry :: rest)
    (channel : after.channel = rest)
    (broker : after.broker = chronicle.state.broker)
    (replies : ∀ index, after.replies index = some (.ok ()) →
      chronicle.state.replies index = some (.ok ()) ∨
        ∃ request, (chronicle.state.broker.calls[index]?).map
            Call.invocation = some (.publish request) ∧
          Inserted ⟨after, chronicle.enqueued ++ [],
            chronicle.inserted ++ positions⟩ request.message.messageId) :
    Ordered ⟨after, chronicle.enqueued ++
      (after.channel.drop chronicle.state.channel.length).map Prod.fst,
      chronicle.inserted ++ positions⟩ := by
  have noneNew : after.channel.drop chronicle.state.channel.length = [] := by
    rw [List.drop_eq_nil_iff, channel, next, List.length_cons]
    omega
  rw [noneNew, List.map_nil]
  have stays : ∀ messageId, chronicle.Inserted messageId →
      Inserted ⟨after, chronicle.enqueued ++ [],
        chronicle.inserted ++ positions⟩ messageId := by
    rintro messageId ⟨position, inserted⟩
    exact ⟨position, inserted.append _ _ _⟩
  refine ⟨?_, ?_, ?_, ?_⟩
  · have suffix := ordered.waiting
    rw [next, List.map_cons] at suffix
    rw [channel, List.append_nil]
    exact (List.suffix_cons _ _).trans suffix
  · refine ordered.grounded.worker broker ?_ stays replies
    intro other member
    rw [channel] at member
    rw [next]
    exact List.mem_cons_of_mem _ member
  · intro messageId point member found
    rw [broker] at member
    exact stays _ (ordered.acknowledging messageId point member found)
  · intro position messageId updates
    rw [List.append_nil] at updates
    obtain ⟨earlier, isEarlier, inserted⟩ :=
      ordered.preceded position messageId updates
    exact ⟨earlier, isEarlier, inserted.append _ _ _⟩

/-- A good reply is to a row that the worker has just saved. -/
theorem replies_work {cipher : KeyCipher} {nonce : List UInt8}
    {statement : Except String Unit} {command : StorageCommand}
    {caller : Option Nat} {rest : List (StorageCommand × Option Nat)}
    {handled : StorageWorker × Option StorageWorker.Reply}
    (next : chronicle.state.channel = (command, caller) :: rest)
    (handles : chronicle.state.worker.handle cipher nonce statement
      command = some handled)
    {index : Nat}
    (replied : receiveReply chronicle.state.replies caller handled.2 index =
      some (.ok ())) :
    chronicle.state.replies index = some (.ok ()) ∨
      ∃ request, (chronicle.state.broker.calls[index]?).map
          Call.invocation = some (.publish request) ∧
        Inserted ⟨after, chronicle.enqueued ++ [], chronicle.inserted ++
          chronicle.insertedBy (.work nonce statement)⟩
          request.message.messageId := by
  rcases receiveReply_cases replied with already | ⟨rfl, isReply⟩
  · exact .inl already
  · right
    have isNext : (command, some index) ∈ chronicle.state.channel := by
      rw [next]
      exact List.mem_cons_self
    obtain ⟨metadata, request, rfl, made, sameId⟩ :=
      ordered.grounded.asked command index isNext
    refine ⟨request, made, ?_⟩
    cases handles
    cases statement with
    | error error => cases isReply
    | ok _ =>
        -- the command stands where the waiting ones begin
        obtain ⟨done, isDone⟩ := ordered.waiting
        rw [next, List.map_cons] at isDone
        have atDone : chronicle.enqueued.length -
            chronicle.state.channel.length = done.length := by
          rw [← isDone, next]
          simp
        refine ⟨done.length, ?_, ?_⟩
        · apply List.mem_append_right
          simp only [insertedBy, next]
          rw [next] at atDone
          exact List.mem_singleton.mpr atDone.symm
        · rw [List.append_nil, ← isDone]
          simp [savedId, sameId]

theorem step {cipher : KeyCipher} {event : Event}
    {following : Chronicle}
    (stepTo : chronicle.step cipher event = some following) :
    following.Ordered := by
  obtain ⟨after, stepped, rfl⟩ := Option.map_eq_some_iff.mp stepTo
  rcases step_cases stepped with
    ⟨call, time, metadata, rfl, asks, rfl⟩ |
    ⟨brokerEvent, broker, rfl, answered, brokerSteps, rfl⟩ |
    ⟨command, rfl, isQuery, rfl⟩ |
    ⟨nonce, statement, command, caller, rest, handled, rfl, next, handles,
      rfl⟩ |
    ⟨entry, rest, rfl, next, rfl⟩ | ⟨delivered, acknowledged, rfl, rfl⟩
  · refine ordered.enqueue rfl (ordered.grounded.submit asks)
      ordered.acknowledging ?_
    intro entry member messageId updates
    rw [List.mem_singleton] at member
    subst member
    cases updates
  · refine ordered.enqueue rfl (ordered.grounded.broker answered brokerSteps)
      ?_ ?_
    · intro messageId point member found
      rcases foundStatus_cases brokerSteps member found with
        ⟨earlier, was, already⟩ | tracked
      · exact ordered.acknowledging messageId earlier was already
      · exact ordered.grounded.status messageId tracked
    · intro entry member messageId updates
      obtain ⟨command, isReported, rfl⟩ := List.mem_map.mp member
      have sameStorage : ∀ count storage,
          brokerEvent = .bookkeep count storage →
            storage = chronicle.state.broker.shared.storage := by
        rintro count storage rfl
        exact answered
      rcases updatedId_of_reported brokerSteps sameStorage isReported
        updates with tracked | ⟨point, was, found⟩
      · exact ordered.grounded.status messageId tracked
      · exact ordered.acknowledging messageId point was found
  · refine ordered.enqueue rfl (ordered.grounded.query command)
      ordered.acknowledging ?_
    intro entry member messageId updates
    rw [List.mem_singleton] at member
    subst member
    rw [updatedId_of_isQuery isQuery] at updates
    cases updates
  · exact ordered.take next rfl rfl fun index replied =>
      ordered.replies_work next handles replied
  · refine ordered.take next rfl rfl fun index replied => ?_
    rcases receiveReply_cases replied with already | ⟨-, isReply⟩
    · exact .inl already
    · cases isReply
  · have unchanged : chronicle.state.channel =
        chronicle.state.channel ++ [] := by
      rw [List.append_nil]
    refine ordered.enqueue unchanged ?_ ordered.acknowledging ?_
    · exact ordered.grounded.worker rfl (fun _ member => member)
        (fun _ saved => saved) (fun _ replied => .inl replied)
    · intro entry member
      cases member

end Ordered

theorem ordered_new (maxQueueSize : Nat)
    (messageMetadata : Table MessageMetadata.messageId)
    (publicKeys : Table PublicKeyRow.clientId) :
    (new maxQueueSize messageMetadata publicKeys).Ordered := by
  refine ⟨List.suffix_refl _, ?_, ?_, ?_⟩
  · constructor <;>
      simp [new, PersistentBroker.new, Broker.new, ServerState.new]
  · intro messageId point member
    cases member
  · intro position messageId updates
    simp [new] at updates

theorem keepsRows_step {cipher : KeyCipher}
    {chronicle following : Chronicle} {event : Event}
    (stepTo : chronicle.step cipher event = some following) :
    chronicle.state.worker.KeepsRows following.state.worker := by
  obtain ⟨after, stepped, rfl⟩ := Option.map_eq_some_iff.mp stepTo
  rcases step_cases stepped with
    ⟨_, _, _, -, -, rfl⟩ | ⟨_, _, -, -, -, rfl⟩ | ⟨_, -, -, rfl⟩ |
    ⟨nonce, statement, command, caller, rest, handled, -, -, handles, rfl⟩ |
    ⟨_, _, -, -, rfl⟩ | ⟨delivered, acknowledged, -, rfl⟩
  · exact .of_eq rfl
  · exact .of_eq rfl
  · exact .of_eq rfl
  · exact StorageWorker.keepsRows_handle _ handles
  · exact .of_eq rfl
  · exact StorageWorker.keepsRows_tick _ delivered acknowledged

/-- However the database fails, no statement of the worker removes a row or
changes a time; so a row that is there at some point of a run is there later
on with every time it had.  And every update of a time is put on the channel
after a command that has saved the row of its message. -/
theorem rows_writtenOnce {cipher : KeyCipher} {maxQueueSize : Nat}
    {messageMetadata : Table MessageMetadata.messageId}
    {publicKeys : Table PublicKeyRow.clientId}
    {chronicle later : Chronicle}
    (reached : Reachable (step cipher)
      (new maxQueueSize messageMetadata publicKeys) chronicle)
    (continues : Reachable (step cipher) chronicle later) :
    (∀ event served response, later.state.worker.serve cipher event =
        some (served, response) → later.state.worker.KeepsRows served) ∧
      chronicle.state.worker.KeepsRows later.state.worker ∧
      ∀ (position : Nat) (messageId : String),
        (later.enqueued[position]?).bind updatedId = some messageId →
          ∃ earlier, earlier < position ∧
            later.InsertedAt messageId earlier := by
  refine ⟨?_, ?_, ?_⟩
  · intro event served response serves
    exact StorageWorker.keepsRows_serve _ serves
  · refine continues.invariant
      (fun later => chronicle.state.worker.KeepsRows later.state.worker)
      (.of_eq rfl) ?_
    intro before event after kept _ stepTo
    exact kept.trans (keepsRows_step stepTo)
  · have ordered : later.Ordered :=
      (reached.trans continues).invariant Ordered
        (ordered_new maxQueueSize messageMetadata publicKeys)
        fun before event after ordered _ stepTo => ordered.step stepTo
    exact ordered.preceded

/-- A message is published, acknowledged and published again.  The command at
position 0 saves its row, the one at position 1 reports the acknowledgement,
and the one at position 2 saves the row again. -/
theorem rows_writtenOnce_republished :
    ∃ chronicle, Reachable (step idleCipher) (new 10 .empty .empty)
        chronicle ∧
      chronicle.enqueued.map updatedId = [none, some "m1", none] ∧
      chronicle.inserted = [0, 2] ∧
      ((chronicle.state.worker.messageMetadata.lookup "m1").bind
        MessageMetadata.acknowledgedTime) = some "t2" ∧
      ∃ earlier, earlier < 1 ∧ chronicle.InsertedAt "m1" earlier := by
  have ran : (executeWhile (step idleCipher) (fun _ _ => True)
      (new 10 .empty .empty) republishedRun).map (fun chronicle =>
        (chronicle.enqueued.map updatedId, chronicle.inserted,
          (chronicle.state.worker.messageMetadata.lookup "m1").bind
            MessageMetadata.acknowledgedTime)) =
      some ([none, some "m1", none], [0, 2], some "t2") := by
    decide +kernel
  obtain ⟨chronicle, reached, account⟩ := exists_reachableWhile_of_map ran
  simp only [Prod.mk.injEq] at account
  obtain ⟨updates, inserted, isTime⟩ := account
  refine ⟨chronicle, reached, updates, inserted, isTime, ?_⟩
  apply (rows_writtenOnce reached .start).2.2 1 "m1"
  have second := congrArg (fun ids => ids[1]?) updates
  simp only [List.getElem?_map] at second
  obtain ⟨command, found, isUpdate⟩ := Option.map_eq_some_iff.mp second
  exact Option.bind_eq_some_iff.mpr ⟨command, found, isUpdate⟩

end Chronicle

end PersistentBroker

end CipherMQ
