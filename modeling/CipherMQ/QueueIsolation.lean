import CipherMQ.IndexAgreement

/-!
# Queues a publish does not route to

A publish edits maps that are shared by all queues: the status of the message
it evicts and the status of the message it publishes.  A queue it does not
route to keeps its backlog exactly when neither of the two touches one of its
entries.
-/

namespace CipherMQ

namespace ServerState

/-- A publish leaves the backlog of a queue as it was, and every message of
that backlog can afterwards be removed from the queue by an
acknowledgement. -/
def Isolated (before after : ServerState) (queueName : String) : Prop :=
  after.pendingMessages queueName = before.pendingMessages queueName ∧
    ∀ entry ∈ before.pendingMessages queueName, ∀ now ackTime,
      ¬ (after.acknowledge entry.1 now ackTime).Queued queueName entry.1

def EvictedBy (state : ServerState)
    (exchangeName routingKey messageId : String) : Prop :=
  ∃ target, state.Bound exchangeName routingKey target ∧
    state.evictedFrom target = some messageId

theorem mem_pendingMessages (state : ServerState) (queueName : String)
    (entry : QueueEntry) :
    entry ∈ state.pendingMessages queueName ↔
      (∃ queue, state.queues queueName = some queue ∧ entry ∈ queue) ∧
        state.deliverable entry = true := by
  cases found : state.queues queueName with
  | none => simp [pendingMessages, found]
  | some queue => simp [pendingMessages, found]

theorem queued_iff_exists_entry (state : ServerState)
    (queueName messageId : String) :
    state.Queued queueName messageId ↔
      ∃ entry : QueueEntry, entry.1 = messageId ∧
        ∃ queue, state.queues queueName = some queue ∧ entry ∈ queue := by
  simp only [Queued, List.mem_map]
  constructor
  · rintro ⟨queue, found, entry, member, same⟩
    exact ⟨entry, same, queue, found, member⟩
  · rintro ⟨entry, same, queue, found, member⟩
    exact ⟨queue, found, entry, member, same⟩

theorem status_of_deliverable {state : ServerState} {entry : QueueEntry}
    (live : state.deliverable entry = true) :
    (state.messageStatus entry.1).isSome := by
  cases tracked : state.messageStatus entry.1 with
  | none => simp [deliverable, tracked] at live
  | some status => rfl

theorem pendingMessages_eq_iff {before after : ServerState}
    {queueName : String}
    (sameQueue : after.queues queueName = before.queues queueName) :
    after.pendingMessages queueName = before.pendingMessages queueName ↔
      ∀ entry queue, before.queues queueName = some queue → entry ∈ queue →
        after.deliverable entry = before.deliverable entry := by
  constructor
  · intro same entry queue found member
    have mem_iff : entry ∈ after.pendingMessages queueName ↔
        entry ∈ before.pendingMessages queueName := by
      rw [same]
    have stored : ∃ queue, before.queues queueName = some queue ∧
        entry ∈ queue := ⟨queue, found, member⟩
    simp only [mem_pendingMessages, sameQueue, stored, true_and] at mem_iff
    exact Bool.eq_iff_iff.mpr mem_iff
  · intro same
    unfold pendingMessages
    rw [sameQueue]
    cases found : before.queues queueName with
    | none => rfl
    | some queue =>
        apply List.filter_congr
        intro entry member
        exact same entry queue found member

/-- An acknowledgement of a tracked message clears it from a queue that holds
it exactly when its queue set lists the queue. -/
theorem acknowledge_clears_iff {state : ServerState}
    {queueName messageId : String}
    (tracked : (state.messageStatus messageId).isSome)
    (queued : state.Queued queueName messageId) (now : Nat)
    (ackTime : String) :
    ¬ (state.acknowledge messageId now ackTime).Queued queueName messageId ↔
      state.Indexed queueName messageId := by
  rw [acknowledge_eq state messageId now ackTime tracked]
  obtain ⟨queue, found, member⟩ := queued
  have indexed_iff : state.Indexed queueName messageId ↔
      queueName ∈ (state.messageQueues messageId).getD [] := by
    cases indexed : state.messageQueues messageId with
    | none => simp [Indexed, indexed]
    | some queueSet => simp [Indexed, indexed]
  rw [indexed_iff]
  by_cases listed : queueName ∈ (state.messageQueues messageId).getD []
  · simp [Queued, found, listed]
  · simpa [Queued, found, listed] using member

/-- Once the backlog is unchanged, its messages can be removed exactly when
they are indexed under the queue. -/
theorem isolated_iff (before after : ServerState) (queueName : String) :
    Isolated before after queueName ↔
      after.pendingMessages queueName = before.pendingMessages queueName ∧
        ∀ entry ∈ before.pendingMessages queueName,
          after.Indexed queueName entry.1 := by
  refine and_congr_right fun same => ?_
  refine forall₂_congr fun entry pending => ?_
  rw [← same, mem_pendingMessages] at pending
  obtain ⟨stored, live⟩ := pending
  have clears := acknowledge_clears_iff (status_of_deliverable live)
    ((queued_iff_exists_entry _ _ _).mpr ⟨entry, rfl, stored⟩)
  constructor
  · intro removable
    exact (clears 0 "").mp (removable 0 "")
  · intro indexed now ackTime
    exact (clears now ackTime).mpr indexed

/-! ## The backlog of a queue beside a delivering publish -/

section BesideTargets

variable {state : ServerState} (message : EncryptedInputData)
  (queueSet : List String) (receivedTime : Nat) {targets : List String}
  {queueName : String}

theorem ne_of_pending {message : EncryptedInputData}
    (fresh : state.messageStatus message.messageId = none)
    {entry : QueueEntry} (pending : entry ∈ state.pendingMessages queueName) :
    entry.1 ≠ message.messageId := by
  intro same
  have tracked :=
    status_of_deliverable ((mem_pendingMessages _ _ _).mp pending).2
  simp [same, fresh] at tracked

theorem deliverable_delivered (entry : QueueEntry) :
    (state.delivered message queueSet receivedTime targets).deliverable
        entry =
      if entry.1 = message.messageId then
        true
      else if ∃ target ∈ targets, state.evictedFrom target = some entry.1 then
        false
      else
        state.deliverable entry := by
  unfold deliverable
  rw [delivered_messageStatus]
  split
  · rfl
  · split <;> rfl

/-- The backlog beside the targets is kept exactly when the queue holds no
copy of the published message and no deliverable entry is evicted. -/
theorem pendingMessages_delivered_iff (beside : queueName ∉ targets)
    (fresh : state.messageStatus message.messageId = none) :
    (state.delivered message queueSet receivedTime targets).pendingMessages
        queueName = state.pendingMessages queueName ↔
      ¬ state.Queued queueName message.messageId ∧
        ∀ entry ∈ state.pendingMessages queueName,
          ¬ ∃ target ∈ targets,
            state.evictedFrom target = some entry.1 := by
  rw [pendingMessages_eq_iff (by simp [delivered_queues, beside])]
  simp only [deliverable_delivered]
  constructor
  · intro same
    constructor
    · rw [queued_iff_exists_entry]
      rintro ⟨entry, sameId, queue, found, member⟩
      -- The publish turns the stale entry deliverable.
      have live := same entry queue found member
      rw [if_pos sameId] at live
      have tracked := status_of_deliverable live.symm
      simp [sameId, fresh] at tracked
    · intro entry pending evicted
      obtain ⟨⟨queue, found, member⟩, live⟩ :=
        (mem_pendingMessages _ _ _).mp pending
      have kept := same entry queue found member
      rw [if_neg (ne_of_pending fresh pending), if_pos evicted, live] at kept
      cases kept
  · rintro ⟨notQueued, keeps⟩ entry queue found member
    have different : entry.1 ≠ message.messageId := by
      intro sameId
      exact notQueued ((queued_iff_exists_entry _ _ _).mpr
        ⟨entry, sameId, queue, found, member⟩)
    rw [if_neg different]
    split
    · rename_i evicted
      cases live : state.deliverable entry with
      | false => rfl
      | true =>
          exact (keeps entry ((mem_pendingMessages _ _ _).mpr
            ⟨⟨queue, found, member⟩, live⟩) evicted).elim
    · rfl

/-- A publish does not change whether a queue beside its targets is listed in
the queue set of another message. -/
theorem indexed_delivered_iff (beside : queueName ∉ targets)
    {messageId : String} (different : messageId ≠ message.messageId) :
    (state.delivered message queueSet receivedTime targets).Indexed queueName
        messageId ↔ state.Indexed queueName messageId := by
  cases indexed : state.messageQueues messageId with
  | none => simp [Indexed, delivered_messageQueues, different, indexed]
  | some other =>
      simp [Indexed, delivered_messageQueues, different, indexed, beside]

end BesideTargets

/-! ## The exact condition -/

/-- A publish that does not route to a queue leaves it isolated exactly when,
if it goes through, the queue holds no stale copy of the published message and
no message of its backlog is evicted elsewhere, and when every message of its
backlog is indexed under the queue to begin with. -/
theorem isolated_publish_iff (maxQueueSize : Nat)
    (operations : List Operation) (exchangeName routingKey : String)
    (message : EncryptedInputData) (clientId : String) (receivedTime : Nat)
    (sentTime : String) (reply : Except StorageError Unit)
    (queueName : String)
    (unrouted : ¬ (after maxQueueSize operations).Bound exchangeName
      routingKey queueName) :
    Isolated (after maxQueueSize operations)
        ((after maxQueueSize operations).publish exchangeName routingKey
          message clientId receivedTime sentTime reply).1 queueName ↔
      ((after maxQueueSize operations).Accepts exchangeName routingKey
          message reply →
        ¬ (after maxQueueSize operations).Queued queueName
            message.messageId ∧
          ∀ entry ∈
              (after maxQueueSize operations).pendingMessages queueName,
            ¬ (after maxQueueSize operations).EvictedBy exchangeName
              routingKey entry.1) ∧
        ∀ entry ∈ (after maxQueueSize operations).pendingMessages queueName,
          (after maxQueueSize operations).Indexed queueName entry.1 := by
  have topology := topology_after maxQueueSize operations
  generalize after maxQueueSize operations = state at *
  rw [isolated_iff]
  rcases topology.publish_cases exchangeName routingKey message clientId
      receivedTime sentTime reply with
    ⟨error, storage, result, refused⟩ |
    ⟨storage, queueSet, targets, result, -, -, bound_iff, -, accepts⟩
  · rw [result]
    constructor
    · rintro ⟨-, indexed⟩
      exact ⟨fun accepts => (refused accepts).elim, indexed⟩
    · rintro ⟨-, indexed⟩
      exact ⟨rfl, indexed⟩
  · rw [result]
    simp only [accepts, true_implies, EvictedBy, ← bound_iff] at unrouted ⊢
    refine and_congr (pendingMessages_delivered_iff message queueSet
      receivedTime unrouted accepts.1) ?_
    refine forall₂_congr fun entry pending => ?_
    exact indexed_delivered_iff message queueSet receivedTime unrouted
      (ne_of_pending accepts.1 pending)

def separateQueues : List Operation :=
  [.declareQueue "q1", .declareQueue "q2", .declareExchange "e",
    .bindQueue "q1" "e" "k1", .bindQueue "q2" "e" "k2",
    .publish "e" "k2" (sampleMessage "m1") "sender_1" 1 "t1" (.ok ())]

theorem isolated_publish_separateQueues :
    (after 1 separateQueues).pendingMessages "q2" =
        [("m1", sampleMessage "m1")] ∧
      Isolated (after 1 separateQueues)
        ((after 1 separateQueues).publish "e" "k1" (sampleMessage "m2")
          "sender_1" 2 "t2" (.ok ())).1 "q2" := by
  have unrouted : ¬ (after 1 separateQueues).Bound "e" "k1" "q2" := by
    rw [← mem_targetQueues]
    decide
  have backlog : (after 1 separateQueues).pendingMessages "q2" =
      [("m1", sampleMessage "m1")] := by
    decide
  refine ⟨backlog, (isolated_publish_iff 1 separateQueues "e" "k1"
    (sampleMessage "m2") "sender_1" 2 "t2" (.ok ()) "q2" unrouted).mpr ?_⟩
  rw [backlog]
  refine ⟨fun _ => ⟨?_, ?_⟩, ?_⟩
  · rintro ⟨queue, found, member⟩
    have stored : (after 1 separateQueues).queues "q2" =
        some [("m1", sampleMessage "m1")] := by
      decide
    rw [stored] at found
    cases found
    exact absurd member (by decide)
  · rintro entry - ⟨target, bound, evicted⟩
    have targets : (after 1 separateQueues).targetQueues "e" "k1" =
        ["q1"] := by
      decide
    rw [← mem_targetQueues, targets, List.mem_singleton] at bound
    have kept : (after 1 separateQueues).evictedFrom "q1" = none := by
      decide
    rw [bound, kept] at evicted
    cases evicted
  · intro entry member
    rw [List.mem_singleton] at member
    subst member
    exact ⟨["q2"], by decide, by simp⟩

/-- A message fanned out to two queues, one of which also has a routing key of
its own. -/
def sharedMessage : List Operation :=
  [.declareQueue "q1", .declareQueue "q2", .declareExchange "e",
    .bindQueue "q1" "e" "k", .bindQueue "q2" "e" "k",
    .bindQueue "q1" "e" "k1",
    .publish "e" "k" (sampleMessage "m1") "sender_1" 1 "t1" (.ok ())]

/-- A publish into the full first queue takes the shared message out of the
backlog of the second queue, to which it does not route. -/
theorem not_isolated_sharedMessage :
    ¬ (after 1 sharedMessage).Bound "e" "k1" "q2" ∧
      (after 1 sharedMessage).pendingMessages "q2" =
        [("m1", sampleMessage "m1")] ∧
      ((after 1 sharedMessage).publish "e" "k1" (sampleMessage "m2")
        "sender_1" 2 "t2" (.ok ())).1.pendingMessages "q2" = [] ∧
      ¬ Isolated (after 1 sharedMessage)
        ((after 1 sharedMessage).publish "e" "k1" (sampleMessage "m2")
          "sender_1" 2 "t2" (.ok ())).1 "q2" := by
  have unrouted : ¬ (after 1 sharedMessage).Bound "e" "k1" "q2" := by
    rw [← mem_targetQueues]
    decide
  have backlog : (after 1 sharedMessage).pendingMessages "q2" =
      [("m1", sampleMessage "m1")] := by
    decide
  have emptied : ((after 1 sharedMessage).publish "e" "k1"
      (sampleMessage "m2") "sender_1" 2 "t2"
        (.ok ())).1.pendingMessages "q2" = [] := by
    decide
  refine ⟨unrouted, backlog, emptied, ?_⟩
  rintro ⟨same, -⟩
  rw [backlog, emptied] at same
  cases same

end ServerState

end CipherMQ
