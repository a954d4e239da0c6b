import CipherMQ.CallEffects
import CipherMQ.CallRefinement
import CipherMQ.IndexAgreement

/-!
# Duplicate suppression among concurrent publishes

A publish looks for a duplicate first and records the status that later
publishes look for last.  Two publishes of one identifier that both look before
either records are both accepted.  The window that matters opens when a publish
picks up its target queues: if it does so only while the identifier has no
status and no other publish of it is in its window, at most one publish is
accepted and no queue gets a second copy.
-/

namespace CipherMQ

open ServerState

namespace Call

/-- A publish that has picked its target queues and has not recorded the
status of its message yet. -/
def inWindow : Call → Bool
  | .publish _ (.enqueue _ _ _) => true
  | .publish _ (.evictIndex _ _ _ _ _) => true
  | .publish _ (.evictStatus _ _ _ _) => true
  | .publish _ (.insertStatus _) => true
  | _ => false

def succeeded : Call → Bool
  | .publish _ (.returned (.ok ())) => true
  | _ => false

def recorded : Call → Bool
  | .publish _ (.notify _) => true
  | call => call.succeeded

def committed (call : Call) : Bool :=
  call.inWindow || call.recorded

def unvisited : Call → List String
  | .publish _ (.enqueue _ _ remaining) => remaining
  | .publish _ (.evictIndex _ _ remaining _ _) => remaining
  | .publish _ (.evictStatus _ _ remaining _) => remaining
  | _ => []

theorem committed_of_mem_unvisited {call : Call} {queueName : String}
    (member : queueName ∈ call.unvisited) : call.committed = true := by
  unfold unvisited at member
  split at member
  · rfl
  · rfl
  · rfl
  · cases member

end Call

namespace Broker

/-- The step is not one that opens a second window: a publish picks up target
queues only while the identifier has no status and no publish is in its
window.  No further calls are made. -/
def Serialised (messageId : String) (broker : Broker) : Event → Prop
  | .invoke _ => False
  | .advance index _ =>
      match broker.calls[index]? with
      | some (.publish request .findTargets) =>
          broker.shared.targetQueues request.exchangeName
              request.routingKey ≠ [] →
            broker.shared.messageStatus messageId = none ∧
              ∀ call ∈ broker.calls, call.inWindow = false
      | _ => True
  | _ => True

instance (messageId : String) (broker : Broker) (event : Event) :
    Decidable (Serialised messageId broker event) := by
  cases event with
  | advance index reading =>
      unfold Serialised
      dsimp only
      split
      · infer_instance
      · infer_instance
  | invoke invocation => exact instDecidableFalse
  | markDelivered other reading => exact instDecidableTrue
  | dropReceiver channel => exact instDecidableTrue
  | runDeliveryTask index => exact instDecidableTrue
  | bookkeep connectedClients storage => exact instDecidableTrue

def copiesIn (messageId : String) (queue : List QueueEntry) : Nat :=
  queue.countP fun entry => entry.1 = messageId

theorem copiesIn_appended_le (messageId : String) (maxQueueSize : Nat)
    (message : EncryptedInputData) (queue : List QueueEntry) :
    copiesIn messageId (appended maxQueueSize message queue) ≤
      copiesIn messageId queue + 1 := by
  have popped : copiesIn messageId (popOldest maxQueueSize queue).2 ≤
      copiesIn messageId queue := by
    rw [popOldest_snd]
    split
    · exact (List.tail_sublist queue).countP_le
    · exact le_refl _
  have last : copiesIn messageId [(message.messageId, message)] ≤ 1 :=
    List.countP_le_length
  unfold appended
  simp only [copiesIn, List.countP_append] at *
  omega

/-- What holds while the publishes of one identifier run serialised. -/
structure PublishedOnce (messageId : String) (broker : Broker) : Prop where
  topology : broker.shared.Topology
  same_message : ∀ call ∈ broker.calls, ∃ request point,
    call = .publish request point ∧ request.message.messageId = messageId
  one_committed : ∀ (first second : Nat) (firstCall secondCall : Call),
    broker.calls[first]? = some firstCall →
      broker.calls[second]? = some secondCall →
        firstCall.committed = true → secondCall.committed = true →
          first = second
  status_recorded : ∀ call ∈ broker.calls, call.recorded = true →
    (broker.shared.messageStatus messageId).isSome
  unvisited_nodup : ∀ call ∈ broker.calls, call.unvisited.Nodup
  copies_le : ∀ queueName queue,
    broker.shared.queues queueName = some queue →
      copiesIn messageId queue ≤ 1
  untouched : (∀ call ∈ broker.calls, call.committed = false) →
    ∀ queueName queue, broker.shared.queues queueName = some queue →
      copiesIn messageId queue = 0
  unvisited_empty : ∀ call ∈ broker.calls, ∀ queueName ∈ call.unvisited,
    ∀ queue, broker.shared.queues queueName = some queue →
      copiesIn messageId queue = 0

/-- When no other call is committed, a committed call is the one that has
moved. -/
theorem eq_index_of_committed {calls : List Call} {index other : Nat}
    {next otherCall : Call}
    (idle : ∀ other otherCall, other ≠ index →
      calls[other]? = some otherCall → otherCall.committed = false)
    (found : (calls.set index next)[other]? = some otherCall)
    (committed : otherCall.committed = true) : other = index := by
  rcases getElem?_set_cases found with ⟨same, -⟩ | ⟨different, oldFound⟩
  · exact same
  · rw [idle other otherCall different oldFound] at committed
    cases committed

section Steps

variable {messageId : String} {broker : Broker}
  (once : PublishedOnce messageId broker) {index : Nat} {call : Call}
  (found : broker.calls[index]? = some call)

include once found

/-- In the window of one publish no other publish has committed. -/
theorem PublishedOnce.not_committed (active : call.committed = true)
    {other : Nat} {otherCall : Call} (different : other ≠ index)
    (otherFound : broker.calls[other]? = some otherCall) :
    otherCall.committed = false := by
  cases committed : otherCall.committed with
  | false => rfl
  | true =>
      exact (different (once.one_committed other index otherCall call
        otherFound found committed active)).elim

theorem PublishedOnce.replace {next : Call} {after : ServerState}
    (sameMessage : ∃ request point, next = .publish request point ∧
      request.message.messageId = messageId)
    (sameBindings : after.bindings = broker.shared.bindings)
    (sameQueues : after.queues = broker.shared.queues)
    (sameCommitted : next.committed = call.committed)
    (visits : List.Sublist next.unvisited call.unvisited)
    (keepsStatus : call.inWindow = true ∨
      ((broker.shared.messageStatus messageId).isSome →
        (after.messageStatus messageId).isSome))
    (records : next.recorded = true →
      (after.messageStatus messageId).isSome) :
    PublishedOnce messageId ⟨after, broker.calls.set index next⟩ := by
  have callMember := List.mem_of_getElem? found
  constructor
  case topology =>
    refine once.topology.of_queues_kept sameBindings ?_
    intro queueName present
    rwa [sameQueues]
  case same_message =>
    intro other member
    rcases List.mem_or_eq_of_mem_set member with old | rfl
    · exact once.same_message other old
    · exact sameMessage
  case one_committed =>
    intro first second firstCall secondCall firstFound secondFound
      firstCommitted secondCommitted
    have original : ∀ {other : Nat} {otherCall : Call},
        (broker.calls.set index next)[other]? = some otherCall →
          otherCall.committed = true →
            ∃ oldCall, broker.calls[other]? = some oldCall ∧
              oldCall.committed = true := by
      intro other otherCall otherFound committed
      rcases getElem?_set_cases otherFound with
        ⟨rfl, rfl⟩ | ⟨-, oldFound⟩
      · exact ⟨call, found, sameCommitted ▸ committed⟩
      · exact ⟨otherCall, oldFound, committed⟩
    obtain ⟨oldFirst, oldFirstFound, oldFirstCommitted⟩ :=
      original firstFound firstCommitted
    obtain ⟨oldSecond, oldSecondFound, oldSecondCommitted⟩ :=
      original secondFound secondCommitted
    exact once.one_committed first second oldFirst oldSecond oldFirstFound
      oldSecondFound oldFirstCommitted oldSecondCommitted
  case status_recorded =>
    intro other member recorded
    obtain ⟨position, otherFound⟩ := List.mem_iff_getElem?.mp member
    rcases getElem?_set_cases otherFound with
      ⟨-, rfl⟩ | ⟨different, oldFound⟩
    · exact records recorded
    · rcases keepsStatus with active | kept
      · have idle := once.not_committed found
          (by simp [Call.committed, active]) different oldFound
        simp [Call.committed, recorded] at idle
      · exact kept (once.status_recorded other
          (List.mem_of_getElem? oldFound) recorded)
  case unvisited_nodup =>
    intro other member
    rcases List.mem_or_eq_of_mem_set member with old | rfl
    · exact once.unvisited_nodup other old
    · exact (once.unvisited_nodup call callMember).sublist visits
  case copies_le =>
    intro queueName queue stored
    rw [sameQueues] at stored
    exact once.copies_le queueName queue stored
  case untouched =>
    intro idle queueName queue stored
    rw [sameQueues] at stored
    refine once.untouched ?_ queueName queue stored
    intro other member
    obtain ⟨position, otherFound⟩ := List.mem_iff_getElem?.mp member
    by_cases same : position = index
    · subst same
      rw [found] at otherFound
      cases otherFound
      rw [← sameCommitted]
      exact idle next
        (List.mem_of_getElem? (getElem?_set_moved found next))
    · have still : (broker.calls.set index next)[position]? =
          some other := by
        rw [List.getElem?_set_ne (Ne.symm same)]
        exact otherFound
      exact idle other (List.mem_of_getElem? still)
  case unvisited_empty =>
    intro other member queueName unvisited queue stored
    rw [sameQueues] at stored
    rcases List.mem_or_eq_of_mem_set member with old | rfl
    · exact once.unvisited_empty other old queueName unvisited queue stored
    · exact once.unvisited_empty call callMember queueName
        (visits.subset unvisited) queue stored

theorem PublishedOnce.append {request : PublishRequest}
    {targets queueSet remaining : List String} {queueName : String}
    {queue : List QueueEntry} {next : Call}
    (calling : call = .publish request
      (.enqueue targets queueSet (queueName :: remaining)))
    (stored : broker.shared.queues queueName = some queue)
    (sameMessage : ∃ point, next = .publish request point)
    (windowStays : next.inWindow = true)
    (visits : next.unvisited = remaining) :
    PublishedOnce messageId
      ⟨{ broker.shared with
          queues := broker.shared.queues.insert queueName
            (appended broker.shared.maxQueueSize request.message queue) },
        broker.calls.set index next⟩ := by
  subst calling
  have callMember := List.mem_of_getElem? found
  have nextCommitted : next.committed = true := by
    simp [Call.committed, windowStays]
  have nextUnrecorded : next.recorded = false := by
    obtain ⟨point, rfl⟩ := sameMessage
    cases point <;> simp_all [Call.recorded, Call.succeeded, Call.inWindow]
  have distinct : (queueName :: remaining).Nodup :=
    once.unvisited_nodup _ callMember
  obtain ⟨notAgain, restDistinct⟩ := List.nodup_cons.mp distinct
  have emptyBefore : copiesIn messageId queue = 0 :=
    once.unvisited_empty _ callMember queueName (by simp [Call.unvisited])
      queue stored
  have idle : ∀ other otherCall, other ≠ index →
      broker.calls[other]? = some otherCall →
        otherCall.committed = false :=
    fun _ _ different otherFound =>
      once.not_committed found rfl different otherFound
  constructor
  case topology =>
    refine once.topology.of_queues_kept rfl ?_
    intro other present
    by_cases same : other = queueName
    · simp [same]
    · simpa [same] using present
  case same_message =>
    intro other member
    rcases List.mem_or_eq_of_mem_set member with old | rfl
    · exact once.same_message other old
    · obtain ⟨_, _, same, sameId⟩ := once.same_message _ callMember
      obtain ⟨point, rfl⟩ := sameMessage
      cases same
      exact ⟨request, point, rfl, sameId⟩
  case one_committed =>
    intro first second firstCall secondCall firstFound secondFound
      firstCommitted secondCommitted
    rw [eq_index_of_committed idle firstFound firstCommitted,
      eq_index_of_committed idle secondFound secondCommitted]
  case status_recorded =>
    intro other member recorded
    rcases List.mem_or_eq_of_mem_set member with old | rfl
    · exact once.status_recorded other old recorded
    · rw [nextUnrecorded] at recorded
      cases recorded
  case unvisited_nodup =>
    intro other member
    rcases List.mem_or_eq_of_mem_set member with old | rfl
    · exact once.unvisited_nodup other old
    · rwa [visits]
  case copies_le =>
    intro other otherQueue otherStored
    by_cases same : other = queueName
    · simp only [same, KeyMap.insert_apply, if_true, Option.some.injEq]
        at otherStored
      subst otherStored
      have bound := copiesIn_appended_le messageId
        broker.shared.maxQueueSize request.message queue
      omega
    · simp only [KeyMap.insert_apply, same, if_false] at otherStored
      exact once.copies_le other otherQueue otherStored
  case untouched =>
    intro noneCommitted
    have committed := noneCommitted next
      (List.mem_of_getElem? (getElem?_set_moved found next))
    rw [nextCommitted] at committed
    cases committed
  case unvisited_empty =>
    intro other member otherName unvisited otherQueue otherStored
    obtain ⟨position, otherFound⟩ := List.mem_iff_getElem?.mp member
    rcases getElem?_set_cases otherFound with
      ⟨-, rfl⟩ | ⟨different, oldFound⟩
    · rw [visits] at unvisited
      have notSame : otherName ≠ queueName := by
        rintro rfl
        exact notAgain unvisited
      simp only [KeyMap.insert_apply, notSame, if_false] at otherStored
      exact once.unvisited_empty _ callMember otherName
        (by simp [Call.unvisited, unvisited]) otherQueue otherStored
    · have committed := Call.committed_of_mem_unvisited unvisited
      rw [idle _ _ different oldFound] at committed
      cases committed

theorem PublishedOnce.commit {request : PublishRequest}
    (calling : call = .publish request .findTargets)
    (noneCommitted : ∀ other ∈ broker.calls, other.committed = false) :
    PublishedOnce messageId
      ⟨broker.shared, broker.calls.set index (.publish request
        (.enqueue (broker.shared.targetQueues request.exchangeName
          request.routingKey) [] (broker.shared.targetQueues
            request.exchangeName request.routingKey)))⟩ := by
  subst calling
  have callMember := List.mem_of_getElem? found
  constructor
  case topology => exact once.topology
  case same_message =>
    intro other member
    rcases List.mem_or_eq_of_mem_set member with old | rfl
    · exact once.same_message other old
    · obtain ⟨_, _, same, sameId⟩ := once.same_message _ callMember
      cases same
      exact ⟨request, _, rfl, sameId⟩
  case one_committed =>
    intro first second firstCall secondCall firstFound secondFound
      firstCommitted secondCommitted
    have idle : ∀ other otherCall, other ≠ index →
        broker.calls[other]? = some otherCall →
          otherCall.committed = false :=
      fun _ otherCall _ otherFound =>
        noneCommitted otherCall (List.mem_of_getElem? otherFound)
    rw [eq_index_of_committed idle firstFound firstCommitted,
      eq_index_of_committed idle secondFound secondCommitted]
  case status_recorded =>
    intro other member recorded
    rcases List.mem_or_eq_of_mem_set member with old | rfl
    · exact once.status_recorded other old recorded
    · cases recorded
  case unvisited_nodup =>
    intro other member
    rcases List.mem_or_eq_of_mem_set member with old | rfl
    · exact once.unvisited_nodup other old
    · exact once.topology.targetQueues_nodup _ _
  case copies_le => exact once.copies_le
  case untouched =>
    intro _
    exact once.untouched noneCommitted
  case unvisited_empty =>
    intro _ _ queueName _ queue stored
    exact once.untouched noneCommitted queueName queue stored

end Steps

theorem PublishedOnce.advance {messageId : String} {broker : Broker}
    (once : PublishedOnce messageId broker) {index : Nat} {call : Call}
    (found : broker.calls[index]? = some call)
    (running : call.isReturned = false) (reading : Reading)
    (serialised : Serialised messageId broker (.advance index reading)) :
    PublishedOnce messageId ⟨(call.advance reading broker.shared).1,
      broker.calls.set index (call.advance reading broker.shared).2⟩ := by
  obtain ⟨request, point, rfl, sameId⟩ :=
    once.same_message call (List.mem_of_getElem? found)
  -- Accesses that change neither queues nor statuses and open no window.
  have looks : ∀ (next : PublishPoint) (storage : Storage),
      (Call.publish request next).committed =
          (Call.publish request point).committed →
        List.Sublist (Call.publish request next).unvisited
            (Call.publish request point).unvisited →
          ((Call.publish request next).recorded = true →
            (Call.publish request point).recorded = true) →
            PublishedOnce messageId
              ⟨{ broker.shared with storage := storage },
                broker.calls.set index (.publish request next)⟩ := by
    intro next storage sameCommitted visits records
    refine once.replace found ⟨request, next, rfl, sameId⟩ rfl rfl
      sameCommitted visits (Or.inr id) ?_
    intro recorded
    exact once.status_recorded _ (List.mem_of_getElem? found)
      (records recorded)
  cases point with
  | checkDuplicate =>
      simp only [Call.advance, publishStep]
      split
      · exact looks _ broker.shared.storage rfl
          (List.Sublist.refl _) (by rintro ⟨⟩)
      · exact looks _ broker.shared.storage rfl
          (List.Sublist.refl _) (by rintro ⟨⟩)
  | saveMetadata =>
      simp only [Call.advance, publishStep]
      split
      · exact looks _ _ rfl
          (List.Sublist.refl _) (by rintro ⟨⟩)
      · exact looks _ _ rfl
          (List.Sublist.refl _) (by rintro ⟨⟩)
  | findTargets =>
      simp only [Call.advance, publishStep]
      split
      · exact looks _ broker.shared.storage rfl
          (List.Sublist.refl _) (by rintro ⟨⟩)
      · rename_i bound
        simp only [Serialised, found] at serialised
        obtain ⟨fresh, noWindow⟩ :=
          serialised fun unbound => bound (by simp [unbound])
        refine once.commit found rfl ?_
        intro other member
        -- A recorded publish would have left a status behind.
        cases recorded : other.recorded with
        | false => simp [Call.committed, noWindow other member, recorded]
        | true =>
            have tracked := once.status_recorded other member recorded
            simp [fresh] at tracked
  | enqueue targets queueSet remaining =>
      cases remaining with
      | nil =>
          exact once.replace found ⟨request, _, rfl, sameId⟩ rfl rfl rfl
            (List.Sublist.refl _) (Or.inl rfl) (by rintro ⟨⟩)
      | cons queueName remaining =>
          simp only [Call.advance, publishStep]
          split
          · exact once.replace found ⟨request, _, rfl, sameId⟩ rfl rfl rfl
              (List.sublist_cons_self _ _) (Or.inl rfl) (by rintro ⟨⟩)
          · rename_i queue stored
            split
            · exact once.append found rfl stored ⟨_, rfl⟩ rfl rfl
            · exact once.append found rfl stored ⟨_, rfl⟩ rfl rfl
  | evictIndex targets queueSet remaining queueName oldMessageId =>
      exact once.replace found ⟨request, _, rfl, sameId⟩ rfl rfl rfl
        (List.Sublist.refl _) (Or.inl rfl) (by rintro ⟨⟩)
  | evictStatus targets queueSet remaining oldMessageId =>
      exact once.replace found ⟨request, _, rfl, sameId⟩ rfl rfl rfl
        (List.Sublist.refl _) (Or.inl rfl) (by rintro ⟨⟩)
  | insertStatus targets =>
      refine once.replace found ⟨request, _, rfl, sameId⟩ rfl rfl rfl
        (List.Sublist.refl _) (Or.inl rfl) fun _ => ?_
      simp [Call.advance, publishStep, sameId]
  | notify remaining =>
      cases remaining with
      | nil =>
          exact looks _ broker.shared.storage rfl (List.Sublist.refl _)
            fun _ => rfl
      | cons queueName remaining =>
          simp only [Call.advance, publishStep, notifyConsumers_eq]
          refine once.replace found ⟨request, _, rfl, sameId⟩ rfl rfl rfl
            (List.Sublist.refl _) (Or.inr id) fun _ => ?_
          exact once.status_recorded _ (List.mem_of_getElem? found) rfl
  | returned result => cases running

theorem PublishedOnce.of_same {messageId : String} {before after : Broker}
    (once : PublishedOnce messageId before)
    (sameCalls : after.calls = before.calls)
    (sameBindings : after.shared.bindings = before.shared.bindings)
    (sameQueues : after.shared.queues = before.shared.queues)
    (keepsStatus : (before.shared.messageStatus messageId).isSome →
      (after.shared.messageStatus messageId).isSome) :
    PublishedOnce messageId after where
  topology := by
    refine once.topology.of_queues_kept sameBindings ?_
    intro queueName present
    rwa [sameQueues]
  same_message := sameCalls ▸ once.same_message
  one_committed := sameCalls ▸ once.one_committed
  status_recorded call member recorded :=
    keepsStatus (once.status_recorded call (sameCalls ▸ member) recorded)
  unvisited_nodup := sameCalls ▸ once.unvisited_nodup
  copies_le := sameQueues ▸ once.copies_le
  untouched := sameCalls ▸ sameQueues ▸ once.untouched
  unvisited_empty := sameCalls ▸ sameQueues ▸ once.unvisited_empty

theorem PublishedOnce.step {messageId : String} {before after : Broker}
    {event : Event} (once : PublishedOnce messageId before)
    (serialised : Serialised messageId before event)
    (stepTo : before.step event = some after) :
    PublishedOnce messageId after := by
  rcases step_cases stepTo with
    ⟨invocation, rfl, rfl⟩ | ⟨index, reading, call, rfl, found, running, rfl⟩ |
    ⟨other, reading, -, rfl⟩ | ⟨channel, -, rfl⟩ | ⟨index, -, rfl⟩ |
    ⟨_, _, -, rfl⟩
  · exact serialised.elim
  · exact once.advance found running reading serialised
  · obtain ⟨messageStatus, storage, marked, sameStatus⟩ :=
      markDelivered_frame before.shared other reading.now reading.time
    rw [marked]
    refine once.of_same rfl rfl rfl ?_
    intro tracked
    have same := congrArg Option.isSome (sameStatus messageId)
    simp only [Option.isSome_map] at same
    rwa [same]
  · exact once.of_same rfl rfl rfl id
  · obtain ⟨channels, deliveryTasks, ran⟩ :=
      runDeliveryTask_frame before.shared index
    rw [ran]
    exact once.of_same rfl rfl rfl id
  · exact once.of_same rfl rfl rfl id

/-! ## Runs -/

def publishing (shared : ServerState) (requests : List PublishRequest) :
    Broker :=
  ⟨shared, requests.map fun request => .publish request .checkDuplicate⟩

theorem publishedOnce_publishing {shared : ServerState} {messageId : String}
    (topology : shared.Topology)
    (unqueued : ∀ queueName, ¬ shared.Queued queueName messageId)
    {requests : List PublishRequest}
    (sameId : ∀ request ∈ requests,
      request.message.messageId = messageId) :
    PublishedOnce messageId (publishing shared requests) := by
  have starting : ∀ call ∈ (publishing shared requests).calls,
      ∃ request ∈ requests, call = .publish request .checkDuplicate := by
    intro call member
    obtain ⟨request, listed, rfl⟩ := List.mem_map.mp member
    exact ⟨request, listed, rfl⟩
  have empty : ∀ queueName queue, shared.queues queueName = some queue →
      copiesIn messageId queue = 0 := by
    intro queueName queue stored
    rw [copiesIn, List.countP_eq_zero]
    intro entry member sameEntry
    exact unqueued queueName ⟨queue, stored,
      List.mem_map.mpr ⟨entry, member, by simpa using sameEntry⟩⟩
  constructor
  case topology => exact topology
  case same_message =>
    intro call member
    obtain ⟨request, listed, rfl⟩ := starting call member
    exact ⟨request, _, rfl, sameId request listed⟩
  case one_committed =>
    intro first second firstCall _ firstFound _ committed _
    obtain ⟨request, -, rfl⟩ :=
      starting firstCall (List.mem_of_getElem? firstFound)
    cases committed
  case status_recorded =>
    intro call member recorded
    obtain ⟨request, -, rfl⟩ := starting call member
    cases recorded
  case unvisited_nodup =>
    intro call member
    obtain ⟨request, -, rfl⟩ := starting call member
    exact List.nodup_nil
  case copies_le =>
    intro queueName queue stored
    rw [empty queueName queue stored]
    exact Nat.zero_le 1
  case untouched =>
    intro _
    exact empty
  case unvisited_empty =>
    intro _ _ queueName _ queue stored
    exact empty queueName queue stored

/-- In every serialised interleaving of publishes of one identifier, started
where no queue holds it, at most one publish succeeds and no queue comes to
hold the message twice. -/
theorem publishes_once_of_serialised {maxQueueSize : Nat} {start : Broker}
    (reached : Reachable step (new maxQueueSize) start)
    (messageId : String)
    (unqueued : ∀ queueName, ¬ start.shared.Queued queueName messageId)
    (requests : List PublishRequest)
    (sameId : ∀ request ∈ requests, request.message.messageId = messageId)
    {final : Broker}
    (run : ReachableWhile step (Serialised messageId)
      (publishing start.shared requests) final) :
    (∀ (first second : Nat) (firstCall secondCall : Call),
        final.calls[first]? = some firstCall →
          final.calls[second]? = some secondCall →
            firstCall.succeeded = true → secondCall.succeeded = true →
              first = second) ∧
      ∀ queueName queue, final.shared.queues queueName = some queue →
        copiesIn messageId queue ≤ 1 := by
  have once : PublishedOnce messageId final := by
    refine run.invariant _ (publishedOnce_publishing
      (wellFormed_of_reachable reached).topology unqueued sameId) ?_
    intro before event after once serialised stepTo
    exact once.step serialised stepTo
  refine ⟨?_, once.copies_le⟩
  have committed : ∀ call : Call, call.succeeded = true →
      call.committed = true := by
    intro call succeeded
    have recorded : call.recorded = true := by
      unfold Call.recorded
      split
      · rfl
      · exact succeeded
    simp [Call.committed, recorded]
  intro first second firstCall secondCall firstFound secondFound
    firstSucceeded secondSucceeded
  exact once.one_committed first second firstCall secondCall firstFound
    secondFound (committed _ firstSucceeded) (committed _ secondSucceeded)

def savedReading : Reading :=
  ⟨.ok (), 1, "t"⟩

def sampleRequest (messageId clientId : String) : PublishRequest where
  exchangeName := "e"
  routingKey := "k"
  message := sampleMessage messageId
  clientId := clientId
  receivedTime := 1

def twoPublishes : Broker :=
  publishing (after 10 singleQueue)
    [sampleRequest "m" "sender_1", sampleRequest "m" "sender_2"]

def accesses (index count : Nat) : List Event :=
  List.replicate count (.advance index savedReading)

def boundQueue : List Event :=
  [.invoke (.declareQueue "q"), .advance 0 savedReading,
    .invoke (.declareExchange "e"), .advance 1 savedReading,
    .invoke (.bindQueue "q" "e" "k")] ++ accesses 2 3

theorem unqueued_singleQueue (maxQueueSize : Nat)
    (queueName messageId : String) :
    ¬ (after maxQueueSize singleQueue).Queued queueName messageId := by
  rintro ⟨queue, stored, member⟩
  by_cases same : queueName = "q"
  · subst same
    have empty : (after maxQueueSize singleQueue).queues "q" = some [] := rfl
    rw [empty] at stored
    cases stored
    cases member
  · have missing : (after maxQueueSize singleQueue).queues queueName =
        none := by
      simp [after, runFrom, singleQueue, apply, ServerState.new,
        ServerState.declareQueue, ServerState.declareExchange,
        ServerState.bindQueue, ServerState.insertBinding,
        ServerState.registerConsumer, ServerState.addConsumer, same]
    rw [missing] at stored
    cases stored

/-- One publish after the other: the first succeeds and is the only one. -/
theorem publishes_once_twoPublishes :
    ∃ final, ReachableWhile step (Serialised "m") twoPublishes final ∧
      final.calls.map Call.isReturned = [true, true] ∧
      final.calls.map Call.succeeded = [true, false] ∧
      ∀ queueName queue, final.shared.queues queueName = some queue →
        copiesIn "m" queue ≤ 1 := by
  have ran : ((executeWhile step (Serialised "m") twoPublishes
      (accesses 0 8 ++ accesses 1 1)).map fun final =>
        (final.calls.map Call.isReturned,
          final.calls.map Call.succeeded)) =
      some ([true, true], [true, false]) := by
    decide
  obtain ⟨final, run, result⟩ := exists_reachableWhile_of_map ran
  simp only [Prod.mk.injEq] at result
  obtain ⟨calls, reached⟩ := reachable_after 10 singleQueue
  have sameId : ∀ request ∈
      [sampleRequest "m" "sender_1", sampleRequest "m" "sender_2"],
      request.message.messageId = "m" := by
    decide
  exact ⟨final, run, result.1, result.2,
    (publishes_once_of_serialised reached "m"
      (fun queueName => unqueued_singleQueue 10 queueName "m") _ sameId
      run).2⟩

/-- Both publishes pass the duplicate check before either records a status:
both succeed and the queue holds the message twice. -/
theorem duplicate_twoPublishes :
    (after 10 singleQueue).messageStatus "m" = none ∧
      (∀ queueName, ¬ (after 10 singleQueue).Queued queueName "m") ∧
      ∃ final, Reachable step twoPublishes final ∧
        final.calls.map Call.succeeded = [true, true] ∧
        (final.shared.queues "q").map (copiesIn "m") = some 2 := by
  have ran : ((executeWhile step (fun _ _ => True) twoPublishes
      (accesses 0 2 ++ accesses 1 2 ++ accesses 0 6 ++
        accesses 1 6)).map fun final =>
        (final.calls.map Call.succeeded,
          (final.shared.queues "q").map (copiesIn "m"))) =
      some ([true, true], some 2) := by
    decide
  obtain ⟨final, reached, result⟩ := exists_reachableWhile_of_map ran
  simp only [Prod.mk.injEq] at result
  exact ⟨rfl, fun queueName => unqueued_singleQueue 10 queueName "m", final,
    reached, result.1, result.2⟩

end Broker

end CipherMQ
