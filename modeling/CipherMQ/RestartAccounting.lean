import CipherMQ.PublishEffect
import CipherMQ.RowOrigins

/-!
# What the database knows after a restart

Rows outlive the broker and are all that is left of a message after a restart.
A message whose status says that it is not acknowledged has a row that says so
too, as long as no id is used again after it has been acknowledged: saving a
row leaves the acknowledgement time of an earlier message with that id in
place, and a time reported for the earlier message may reach the row later.
-/

namespace CipherMQ

open ServerState

namespace PersistentBroker

/-- An acknowledgement of the message has been marked in the broker and is
about to be reported, is on its way to the worker, or has reached it. -/
def AckRecorded (state : PersistentBroker) (messageId : String) : Prop :=
  .acknowledge messageId .report ∈ state.broker.calls ∨
    (∃ entry ∈ state.channel, acknowledges messageId entry.1 = true) ∨
      state.worker.Acknowledged messageId

instance (state : PersistentBroker) (messageId : String) :
    Decidable (state.AckRecorded messageId) :=
  inferInstanceAs (Decidable (_ ∨ _ ∨ _))

def insertedBy (state : PersistentBroker) : Event → Option String
  | .broker (.advance index _) =>
      (state.broker.calls[index]?).bind insertedId
  | _ => none

def PublishesFresh (state : PersistentBroker) (event : Event) : Prop :=
  ∀ messageId ∈ state.insertedBy event, ¬ state.AckRecorded messageId

instance (state : PersistentBroker) (event : Event) :
    Decidable (state.PublishesFresh event) :=
  inferInstanceAs (Decidable (∀ messageId ∈ state.insertedBy event,
    ¬ state.AckRecorded messageId))

def HasRow (state : PersistentBroker) (messageId : String) : Prop :=
  (state.worker.messageMetadata.lookup messageId).isSome

/-- Where rows come from, and that nothing marks the row of a message that is
not acknowledged. -/
structure Accounted (state : PersistentBroker) : Prop where
  status_row : ∀ messageId,
    (state.broker.shared.messageStatus messageId).isSome →
      state.HasRow messageId
  call_row : ∀ request point, .publish request point ∈ state.broker.calls →
    hasRow point = true → state.HasRow request.message.messageId
  reply_row : ∀ index, state.replies index = some (.ok ()) →
    ∃ request, (state.broker.calls[index]?).map Call.invocation =
        some (.publish request) ∧
      state.HasRow request.message.messageId
  unacknowledged_row : ∀ metadata caller,
    (StorageCommand.saveMetadata metadata, caller) ∈ state.channel →
      metadata.acknowledgedTime = none
  asked : ∀ (command : StorageCommand) (index : Nat),
    (command, some index) ∈ state.channel →
      ∃ metadata request, command = .saveMetadata metadata ∧
        (state.broker.calls[index]?).map Call.invocation =
          some (.publish request) ∧
        request.message.messageId = metadata.messageId
  unmarked : ∀ messageId,
    Unacknowledged state.broker.shared messageId →
      ¬ state.AckRecorded messageId

section Steps

variable {state : PersistentBroker}

theorem Accounted.grounded (accounted : state.Accounted) :
    state.Grounded state.HasRow :=
  ⟨accounted.status_row, accounted.call_row, accounted.reply_row,
    accounted.asked⟩

theorem AckRecorded.of_append {after : PersistentBroker}
    {command : StorageCommand} {caller : Option Nat} {messageId : String}
    (recorded : after.AckRecorded messageId)
    (broker : after.broker = state.broker)
    (worker : after.worker = state.worker)
    (channel : after.channel = state.channel ++ [(command, caller)])
    (notAck : acknowledges messageId command = false) :
    state.AckRecorded messageId := by
  rcases recorded with reports | ⟨entry, member, isAck⟩ | known
  · exact Or.inl (broker ▸ reports)
  · rw [channel] at member
    rcases List.mem_append.mp member with old | isNew
    · exact Or.inr (Or.inl ⟨entry, old, isAck⟩)
    · rw [List.mem_singleton] at isNew
      subst isNew
      rw [notAck] at isAck
      cases isAck
  · exact Or.inr (Or.inr (worker ▸ known))

theorem Accounted.submit (accounted : state.Accounted) {call : Nat}
    {time : String} {metadata : MessageMetadata}
    (asks : (state.broker.calls[call]?).bind (rowAsked time) =
      some metadata) :
    Accounted { state with
      channel := state.channel ++ [(.saveMetadata metadata, some call)]
      submitted := state.submitted.insert call time } := by
  obtain ⟨made, -, isAsked⟩ := Option.bind_eq_some_iff.mp asks
  have unacknowledged := (rowAsked_eq_some isAsked).1
  have grounded := accounted.grounded.submit asks
  refine ⟨grounded.status, grounded.call, grounded.reply, ?_,
    grounded.asked, ?_⟩
  · intro other caller member
    rcases List.mem_append.mp member with old | isNew
    · exact accounted.unacknowledged_row other caller old
    · rw [List.mem_singleton] at isNew
      cases isNew
      exact unacknowledged
  · intro messageId live recorded
    exact accounted.unmarked messageId live
      (recorded.of_append rfl rfl rfl rfl)

theorem Accounted.query (accounted : state.Accounted)
    {command : StorageCommand} (isQuery : isQuery command = true) :
    Accounted { state with
      channel := state.channel ++ [(command, none)] } := by
  have grounded := accounted.grounded.query command
  refine ⟨grounded.status, grounded.call, grounded.reply, ?_,
    grounded.asked, ?_⟩
  · intro metadata caller member
    rcases List.mem_append.mp member with old | isNew
    · exact accounted.unacknowledged_row metadata caller old
    · rw [List.mem_singleton] at isNew
      cases isNew
      cases isQuery
  · intro messageId live recorded
    have notAck : acknowledges messageId command = false := by
      cases command <;> first | rfl | cases isQuery
    exact accounted.unmarked messageId live
      (recorded.of_append rfl rfl rfl notAck)

/-- A step of the broker.  Statuses are inserted only for messages with a row,
and an acknowledgement is recorded only for messages that are marked. -/
theorem Accounted.broker (accounted : state.Accounted)
    {event : Broker.Event} {broker : Broker}
    (answered : state.Answered event)
    (fresh : state.PublishesFresh (.broker event))
    (stepTo : state.broker.step event = some broker) :
    Accounted { state with
      broker := broker
      channel := state.channel ++
        (reported state.broker broker).map fun command =>
          (command, none) } := by
  have sameStorage : ∀ count storage, event = .bookkeep count storage →
      storage = state.broker.shared.storage := by
    rintro count storage rfl
    exact answered
  have grounded := accounted.grounded.broker answered stepTo
  refine ⟨grounded.status, grounded.call, grounded.reply, ?_,
    grounded.asked, ?_⟩
  · intro metadata caller member
    rcases List.mem_append.mp member with old | isNew
    · exact accounted.unacknowledged_row metadata caller old
    · obtain ⟨command, isReported, isEntry⟩ := List.mem_map.mp isNew
      cases isEntry
      cases (mem_reported stepTo sameStorage isReported).1
  · intro messageId live recorded
    have recordedBefore : state.AckRecorded messageId := by
      rcases recorded with reports | ⟨entry, member, isAck⟩ | known
      · rcases Broker.report_cases stepTo reports with was | marked
        · exact Or.inl was
        · exact (marked live).elim
      · rcases List.mem_append.mp member with old | isNew
        · exact Or.inr (Or.inl ⟨entry, old, isAck⟩)
        · obtain ⟨command, isReported, rfl⟩ := List.mem_map.mp isNew
          exact Or.inl
            ((mem_reported stepTo sameStorage isReported).2 messageId isAck)
      · exact Or.inr (Or.inr known)
    by_cases inserts : ∃ index reading, event = .advance index reading ∧
        (state.broker.calls[index]?).bind insertedId = some messageId
    · obtain ⟨index, reading, rfl, isInserted⟩ := inserts
      exact fresh messageId isInserted recordedBefore
    · have kept := Broker.status_cases stepTo
        fun index reading isAdvance isInserted =>
          inserts ⟨index, reading, isAdvance, isInserted⟩
      rcases kept with same | dropped | ⟨-, marked⟩
      · have wasLive : Unacknowledged state.broker.shared messageId :=
          same.symm.trans live
        exact accounted.unmarked messageId wasLive recordedBefore
      · simp [Unacknowledged, dropped] at live
      · exact marked live

/-- What the worker may do next keeps the accounts, if it acknowledges only
messages whose acknowledgement was on its way. -/
theorem Accounted.worker (accounted : state.Accounted)
    {after : PersistentBroker} {acknowledges : String → Prop}
    (broker : after.broker = state.broker)
    (channel : ∀ entry ∈ after.channel, entry ∈ state.channel)
    (advances : state.worker.Advances acknowledges after.worker)
    (onTheWay : ∀ messageId, acknowledges messageId →
      state.AckRecorded messageId)
    (replies : ∀ index, after.replies index = some (.ok ()) →
      state.replies index = some (.ok ()) ∨
        ∃ request, (state.broker.calls[index]?).map Call.invocation =
            some (.publish request) ∧
          after.HasRow request.message.messageId) :
    after.Accounted := by
  have grounded := accounted.grounded.worker broker channel advances.rows
    replies
  refine ⟨grounded.status, grounded.call, grounded.reply, ?_,
    grounded.asked, ?_⟩
  · intro metadata caller member
    exact accounted.unacknowledged_row metadata caller (channel _ member)
  · intro messageId live recorded
    rw [broker] at live
    apply accounted.unmarked messageId live
    rcases recorded with reports | ⟨entry, member, isAck⟩ | known
    · rw [broker] at reports
      exact Or.inl reports
    · exact Or.inr (Or.inl ⟨entry, channel entry member, isAck⟩)
    · rcases advances.acknowledged messageId known with already | isNew
      · exact Or.inr (Or.inr already)
      · exact onTheWay messageId isNew

theorem advances_handle {cipher : KeyCipher} {worker : StorageWorker}
    {nonce : List UInt8} {statement : Except String Unit}
    {command : StorageCommand}
    {handled : StorageWorker × Option StorageWorker.Reply}
    (unacknowledged : ∀ metadata, command = .saveMetadata metadata →
      metadata.acknowledgedTime = none)
    (handles : worker.handle cipher nonce statement command =
      some handled) :
    worker.Advances (fun messageId => acknowledges messageId command = true)
      handled.1 := by
  cases command with
  | saveMetadata metadata =>
      cases handles
      exact worker.advances_saveMetadata _ (unacknowledged metadata rfl)
        statement
  | updateDeliveredTimeAsync messageId time =>
      cases handles
      exact worker.advances_updateDeliveredTimeAsync _ messageId time
        statement
  | updateAcknowledgedTimeAsync messageId time =>
      cases handles
      obtain ⟨rows, acknowledged⟩ :=
        worker.advances_updateAcknowledgedTimeAsync messageId time statement
      refine ⟨rows, ?_⟩
      intro other known
      rcases acknowledged other known with already | rfl
      · exact Or.inl already
      · exact Or.inr (by simp [acknowledges])
  | getClientIdForMessage messageId =>
      cases handles
      exact .refl _ worker
  | savePublicKey keyData =>
      obtain ⟨saved, isSaved, rfl⟩ := Option.map_eq_some_iff.mp handles
      have sameTables : saved.1.messageMetadata = worker.messageMetadata ∧
          saved.1.acknowledgedUpdates = worker.acknowledgedUpdates :=
        worker.savePublicKey_frame isSaved
      constructor
      · intro messageId present
        rwa [sameTables.1]
      · intro messageId known
        unfold StorageWorker.Acknowledged at known
        rw [sameTables.1, sameTables.2] at known
        exact Or.inl known
  | getPublicKey clientId =>
      obtain ⟨found, -, rfl⟩ := Option.map_eq_some_iff.mp handles
      exact .refl _ worker

theorem Accounted.work (accounted : state.Accounted) {cipher : KeyCipher}
    {nonce : List UInt8} {statement : Except String Unit}
    {command : StorageCommand} {caller : Option Nat}
    {rest : List (StorageCommand × Option Nat)}
    {handled : StorageWorker × Option StorageWorker.Reply}
    (next : state.channel = (command, caller) :: rest)
    (handles : state.worker.handle cipher nonce statement command =
      some handled) :
    Accounted { state with
      channel := rest
      replies := receiveReply state.replies caller handled.2
      worker := handled.1 } := by
  have isNext : (command, caller) ∈ state.channel := by
    rw [next]
    exact List.mem_cons_self
  have advances := advances_handle (fun metadata isSave =>
    accounted.unacknowledged_row metadata caller (isSave ▸ isNext)) handles
  refine accounted.worker rfl ?_ advances ?_ ?_
  · intro entry member
    rw [next]
    exact List.mem_cons_of_mem _ member
  · intro messageId isAck
    exact Or.inr (Or.inl ⟨_, isNext, isAck⟩)
  · intro index replied
    rcases receiveReply_cases replied with already | ⟨rfl, isReply⟩
    · exact Or.inl already
    · -- the reply is to the row the call has asked for
      obtain ⟨metadata, request, rfl, made, sameId⟩ :=
        accounted.asked command index isNext
      right
      refine ⟨request, made, ?_⟩
      cases handles
      cases statement with
      | error error => cases isReply
      | ok _ =>
          unfold HasRow
          rw [StorageWorker.lookup_saveMetadata, if_pos sameId]
          rfl

theorem Accounted.lose (accounted : state.Accounted)
    {entry : StorageCommand × Option Nat}
    {rest : List (StorageCommand × Option Nat)}
    (next : state.channel = entry :: rest) :
    Accounted { state with
      channel := rest
      replies := receiveReply state.replies entry.2
        (some (.saved (.error .channelReceive))) } := by
  refine accounted.worker rfl ?_
    (StorageWorker.Advances.refl (fun _ => False) _) ?_ ?_
  · intro other member
    rw [next]
    exact List.mem_cons_of_mem _ member
  · intro messageId never
    exact never.elim
  · intro index replied
    rcases receiveReply_cases replied with already | ⟨-, isReply⟩
    · exact Or.inl already
    · cases isReply

theorem Accounted.step {cipher : KeyCipher} {event : Event}
    {after : PersistentBroker} (accounted : state.Accounted)
    (fresh : state.PublishesFresh event)
    (stepTo : state.step cipher event = some after) : after.Accounted := by
  rcases step_cases stepTo with
    ⟨call, time, metadata, -, asks, rfl⟩ |
    ⟨brokerEvent, broker, rfl, answered, stepped, rfl⟩ |
    ⟨command, -, isQuery, rfl⟩ |
    ⟨nonce, statement, command, caller, rest, handled, -, next, handles,
      rfl⟩ |
    ⟨entry, rest, -, next, rfl⟩ | ⟨delivered, acknowledged, -, rfl⟩
  · exact accounted.submit asks
  · exact accounted.broker answered fresh stepped
  · exact accounted.query isQuery
  · exact accounted.work next handles
  · exact accounted.lose next
  · exact accounted.worker rfl (fun _ member => member)
      (state.worker.advances_tick (fun _ => False) delivered acknowledged)
      (fun _ never => never.elim) (fun _ replied => Or.inl replied)

end Steps

theorem accounted_new (maxQueueSize : Nat)
    (messageMetadata : Table MessageMetadata.messageId)
    (publicKeys : Table PublicKeyRow.clientId) :
    (new maxQueueSize messageMetadata publicKeys).Accounted := by
  constructor <;>
    simp [new, Broker.new, ServerState.new, Unacknowledged]

/-- In every run from any database in which no id gets a status after it has
been acknowledged, a message that the broker knows as not acknowledged has a
row without an acknowledgement time, which a restart loads. -/
theorem unacknowledged_loaded_of_publishesFresh {cipher : KeyCipher}
    {maxQueueSize : Nat}
    {messageMetadata : Table MessageMetadata.messageId}
    {publicKeys : Table PublicKeyRow.clientId} {state : PersistentBroker}
    (reached : ReachableWhile (step cipher) PublishesFresh
      (new maxQueueSize messageMetadata publicKeys) state)
    {messageId : String} {status : MessageStatus}
    (tracked : state.broker.shared.messageStatus messageId = some status)
    (unacknowledged : status.acknowledgedTime = none) :
    ∃ row, state.worker.messageMetadata.lookup messageId = some row ∧
      row.acknowledgedTime = none ∧
      row ∈ state.worker.loadUnacknowledgedMetadata := by
  have accounted := reached.invariant Accounted
    (accounted_new maxQueueSize messageMetadata publicKeys)
    fun before event after accounted fresh stepTo =>
      accounted.step fresh stepTo
  have live : Unacknowledged state.broker.shared messageId := by
    simp [Unacknowledged, tracked, MessageStatus.canDeliver, unacknowledged]
  have hasRow := accounted.status_row messageId (by simp [tracked])
  obtain ⟨row, found⟩ := Option.isSome_iff_exists.mp hasRow
  have unmarked : row.acknowledgedTime = none := by
    by_contra marked
    apply accounted.unmarked messageId live
    refine Or.inr (Or.inr (Or.inl ?_))
    rw [found]
    exact Option.isSome_iff_ne_none.mpr marked
  exact ⟨row, found, unmarked,
    Table.mem_select_of_lookup found (by simp [unmarked])⟩

def idleCipher : KeyCipher where
  encrypt _ _ := .error "aead::Error"
  decrypt _ _ := .error "aead::Error"
  decodeError _ := "Invalid padding"

def accesses (call count : Nat) (time : String) : List Event :=
  List.replicate count (.broker (.advance call ⟨.ok (), 1, time⟩))

/-- Call `call` publishes the message `m1`; all statements succeed. -/
def publishing (call : Nat) (time : String) : List Event :=
  [.broker (.invoke (.publish
    ⟨"e", "k", sampleMessage "m1", "sender_1", 1⟩))] ++
  accesses call 1 time ++ [.submit call time, .work [] (.ok ())] ++
  accesses call 7 time

def publishedRun : List Event :=
  [.broker (.invoke (.declareQueue "q"))] ++ accesses 0 1 "t" ++
  [.broker (.invoke (.declareExchange "e"))] ++ accesses 1 1 "t" ++
  [.broker (.invoke (.bindQueue "q" "e" "k"))] ++ accesses 2 3 "t" ++
  publishing 3 "t1"

def republishedRun : List Event :=
  publishedRun ++
  [.broker (.invoke (.acknowledge "m1"))] ++ accesses 4 8 "t2" ++
  [.work [] (.ok ()), .tick (.ok ()) (.ok ())] ++
  publishing 5 "t3"

/-- What the broker and the database say about `m1`: its status, its row, the
rows a restart loads and the times still in the buffers. -/
def accountsOf (state : PersistentBroker) :
    Option MessageStatus × Option MessageMetadata ×
      List MessageMetadata × Nat × Nat :=
  (state.broker.shared.messageStatus "m1",
    state.worker.messageMetadata.lookup "m1",
    state.worker.loadUnacknowledgedMetadata,
    state.worker.deliveredUpdates.length,
    state.worker.acknowledgedUpdates.length)

theorem unacknowledged_loaded_published :
    ∃ state row,
      ReachableWhile (step idleCipher) PublishesFresh
        (new 10 .empty .empty) state ∧
      state.broker.shared.messageStatus "m1" = some (.sent 1) ∧
      state.worker.messageMetadata.lookup "m1" = some row ∧
      row.acknowledgedTime = none ∧
      row ∈ state.worker.loadUnacknowledgedMetadata := by
  have ran : (executeWhile (step idleCipher) PublishesFresh
      (new 10 .empty .empty) publishedRun).map
        (fun state => state.broker.shared.messageStatus "m1") =
      some (some (.sent 1)) := by
    decide +kernel
  obtain ⟨state, reached, tracked⟩ := exists_reachableWhile_of_map ran
  obtain ⟨row, found, unmarked, loaded⟩ :=
    unacknowledged_loaded_of_publishesFresh reached tracked rfl
  exact ⟨state, row, reached, tracked, found, unmarked, loaded⟩

/-- The message published under an acknowledged id is not acknowledged and not
loaded, although every statement has succeeded and the buffers are empty. -/
theorem republished_not_loaded :
    ∃ state row,
      Reachable (step idleCipher) (new 10 .empty .empty) state ∧
      state.broker.shared.messageStatus "m1" = some (.sent 1) ∧
      state.worker.messageMetadata.lookup "m1" = some row ∧
      row.sentTime = some "t3" ∧ row.acknowledgedTime = some "t2" ∧
      state.worker.loadUnacknowledgedMetadata = [] ∧
      state.worker.deliveredUpdates.length = 0 ∧
      state.worker.acknowledgedUpdates.length = 0 := by
  have ran : (executeWhile (step idleCipher) (fun _ _ => True)
      (new 10 .empty .empty) republishedRun).map accountsOf =
      some (some (.sent 1), some ⟨"m1", "sender_1", "e", "k", some "t3",
        none, some "t2"⟩, [], 0, 0) := by
    decide +kernel
  obtain ⟨state, reached, accounts⟩ := exists_reachableWhile_of_map ran
  simp only [accountsOf, Prod.mk.injEq] at accounts
  obtain ⟨tracked, found, noneLoaded, delivered, acknowledged⟩ := accounts
  exact ⟨state, _, reached, tracked, found,
    rfl, rfl, noneLoaded, delivered, acknowledged⟩

end PersistentBroker

end CipherMQ
