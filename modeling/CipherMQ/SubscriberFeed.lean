import CipherMQ.TransitionSystem
import Mathlib.Data.List.Nodup
import Mathlib.Data.Set.Insert

/-!
# A queue with a late subscriber

Items are appended to a log.  A queue holds those that have not been taken out
again, and every item is announced some time after it was appended.  A
subscriber joins at some point: announced items are sent to it from then on,
and what it finds in the queue when it looks there once becomes a backlog,
which is sent to it item by item.

Nothing keeps the three ways apart, so items may be sent out of order or
twice.  They are sent once if no item is between its push and its announcement
when the subscriber joins and none is pushed before it has looked into the
queue.  They are sent in the order of the log if moreover items are pushed one
at a time and not while a backlog is left.
-/

namespace CipherMQ

namespace Feed

/-- How far the subscriber has got: it has not joined, it has joined, or it
has looked into the queue. -/
inductive Phase where
  | outside
  | joined
  | captured
  deriving DecidableEq, Repr

end Feed

/-- A queue as one subscriber sees it. -/
@[ext]
structure Feed (Item : Type*) where
  log : List Item
  queue : List Item
  unannounced : Set Item
  phase : Feed.Phase
  backlog : List Item
  sent : List Item

namespace Feed

variable {Item : Type*}

def new : Feed Item :=
  ⟨[], [], ∅, .outside, [], []⟩

/-- What can happen next.  A push may have to make room in the queue, and an
announcement is received or not. -/
inductive Event (Item : Type*) where
  | push (item : Item) (kept : List Item)
  | announce (item : Item) (received : Bool)
  | join
  | capture
  | shrink (queue backlog : List Item)
  | deliver

open Classical in
noncomputable def step (feed : Feed Item) : Event Item → Option (Feed Item)
  | .push item kept =>
      if item ∉ feed.log ∧ kept.Sublist feed.queue then
        some { feed with
          log := feed.log ++ [item]
          queue := kept ++ [item]
          unannounced := insert item feed.unannounced }
      else
        none
  | .announce item received =>
      if item ∈ feed.unannounced ∧
          (received = true → feed.phase ≠ .outside) then
        some { feed with
          unannounced := feed.unannounced \ {item}
          sent := if received then feed.sent ++ [item] else feed.sent }
      else
        none
  | .join =>
      if feed.phase = .outside then
        some { feed with phase := .joined }
      else
        none
  | .capture =>
      if feed.phase = .joined then
        some { feed with phase := .captured, backlog := feed.queue }
      else
        none
  | .shrink queue backlog =>
      if queue.Sublist feed.queue ∧ backlog.Sublist feed.backlog then
        some { feed with queue := queue, backlog := backlog }
      else
        none
  | .deliver =>
      match feed.backlog with
      | [] => none
      | item :: rest =>
          some { feed with backlog := rest, sent := feed.sent ++ [item] }

section Steps

variable (feed : Feed Item)

theorem step_push {item : Item} {kept : List Item} (isNew : item ∉ feed.log)
    (isKept : kept.Sublist feed.queue) :
    feed.step (.push item kept) = some { feed with
      log := feed.log ++ [item]
      queue := kept ++ [item]
      unannounced := insert item feed.unannounced } :=
  if_pos ⟨isNew, isKept⟩

theorem step_announce {item : Item} {received : Bool}
    (isUnannounced : item ∈ feed.unannounced)
    (hasJoined : received = true → feed.phase ≠ .outside) :
    feed.step (.announce item received) = some { feed with
      unannounced := feed.unannounced \ {item}
      sent := if received then feed.sent ++ [item] else feed.sent } :=
  if_pos ⟨isUnannounced, hasJoined⟩

theorem step_join (isOutside : feed.phase = .outside) :
    feed.step .join = some { feed with phase := .joined } :=
  if_pos isOutside

theorem step_capture (isJoined : feed.phase = .joined) :
    feed.step .capture = some { feed with
      phase := .captured
      backlog := feed.queue } :=
  if_pos isJoined

theorem step_shrink {queue backlog : List Item}
    (isQueue : queue.Sublist feed.queue)
    (isBacklog : backlog.Sublist feed.backlog) :
    feed.step (.shrink queue backlog) = some { feed with
      queue := queue
      backlog := backlog } :=
  if_pos ⟨isQueue, isBacklog⟩

theorem step_deliver {item : Item} {rest : List Item}
    (isBacklog : feed.backlog = item :: rest) :
    feed.step .deliver = some { feed with
      backlog := rest
      sent := feed.sent ++ [item] } := by
  simp only [step, isBacklog]

end Steps

/-- The shapes of a step. -/
theorem step_cases {before after : Feed Item} {event : Event Item}
    (stepTo : before.step event = some after) :
    (∃ item kept, event = .push item kept ∧ item ∉ before.log ∧
      kept.Sublist before.queue ∧
      after = { before with
        log := before.log ++ [item]
        queue := kept ++ [item]
        unannounced := insert item before.unannounced }) ∨
    (∃ item received, event = .announce item received ∧
      item ∈ before.unannounced ∧
      (received = true → before.phase ≠ .outside) ∧
      after = { before with
        unannounced := before.unannounced \ {item}
        sent :=
          if received then before.sent ++ [item] else before.sent }) ∨
    (event = .join ∧ before.phase = .outside ∧
      after = { before with phase := .joined }) ∨
    (event = .capture ∧ before.phase = .joined ∧
      after = { before with
        phase := .captured
        backlog := before.queue }) ∨
    (∃ queue backlog, event = .shrink queue backlog ∧
      queue.Sublist before.queue ∧ backlog.Sublist before.backlog ∧
      after = { before with queue := queue, backlog := backlog }) ∨
    ∃ item rest, event = .deliver ∧ before.backlog = item :: rest ∧
      after = { before with
        backlog := rest
        sent := before.sent ++ [item] } := by
  cases event with
  | push item kept =>
      simp only [step] at stepTo
      split at stepTo
      · rename_i pushes
        exact .inl ⟨item, kept, rfl, pushes.1, pushes.2,
          (Option.some.inj stepTo).symm⟩
      · cases stepTo
  | announce item received =>
      simp only [step] at stepTo
      split at stepTo
      · rename_i announces
        exact .inr (.inl ⟨item, received, rfl, announces.1, announces.2,
          (Option.some.inj stepTo).symm⟩)
      · cases stepTo
  | join =>
      simp only [step] at stepTo
      split at stepTo
      · rename_i isOutside
        exact .inr (.inr (.inl ⟨rfl, isOutside,
          (Option.some.inj stepTo).symm⟩))
      · cases stepTo
  | capture =>
      simp only [step] at stepTo
      split at stepTo
      · rename_i isJoined
        exact .inr (.inr (.inr (.inl ⟨rfl, isJoined,
          (Option.some.inj stepTo).symm⟩)))
      · cases stepTo
  | shrink queue backlog =>
      simp only [step] at stepTo
      split at stepTo
      · rename_i shrinks
        exact .inr (.inr (.inr (.inr (.inl ⟨queue, backlog, rfl, shrinks.1,
          shrinks.2, (Option.some.inj stepTo).symm⟩))))
      · cases stepTo
  | deliver =>
      simp only [step] at stepTo
      split at stepTo
      · cases stepTo
      · rename_i item rest isBacklog
        exact .inr (.inr (.inr (.inr (.inr ⟨item, rest, rfl, isBacklog,
          (Option.some.inj stepTo).symm⟩))))

/-! ## Every run -/

/-- What holds whatever the order of the steps. -/
structure Sound (feed : Feed Item) : Prop where
  distinct : feed.log.Nodup
  queue : feed.queue.Sublist feed.log
  unannounced : ∀ item ∈ feed.unannounced, item ∈ feed.log
  backlog : feed.backlog ⊆ feed.log
  sent : feed.sent ⊆ feed.log
  outside : feed.phase = .outside → feed.sent = []
  waiting : feed.phase ≠ .captured → feed.backlog = []

theorem sound_new : (new : Feed Item).Sound := by
  constructor <;> simp [new]

theorem Sound.step {before after : Feed Item} {event : Event Item}
    (sound : before.Sound) (stepTo : before.step event = some after) :
    after.Sound := by
  rcases step_cases stepTo with
    ⟨item, kept, -, isNew, isKept, rfl⟩ |
    ⟨item, received, -, isUnannounced, hasJoined, rfl⟩ |
    ⟨-, isOutside, rfl⟩ | ⟨-, isJoined, rfl⟩ |
    ⟨queue, backlog, -, isQueue, isBacklog, rfl⟩ |
    ⟨item, rest, -, isBacklog, rfl⟩
  · refine ⟨?_, ?_, ?_, ?_, ?_, sound.outside, sound.waiting⟩
    · exact List.nodup_append.mpr ⟨sound.distinct, List.nodup_singleton _,
        fun other member last isLast same => isNew
          (List.mem_singleton.mp isLast ▸ same ▸ member)⟩
    · exact (isKept.trans sound.queue).append (List.Sublist.refl _)
    · rintro other (rfl | old)
      · exact List.mem_append_right _ (List.mem_singleton_self _)
      · exact List.mem_append_left _ (sound.unannounced other old)
    · exact List.subset_append_of_subset_left _ sound.backlog
    · exact List.subset_append_of_subset_left _ sound.sent
  · refine ⟨sound.distinct, sound.queue, fun other member =>
      sound.unannounced other member.1, sound.backlog, ?_, ?_,
      sound.waiting⟩
    · cases received with
      | false => exact sound.sent
      | true =>
          intro other member
          rcases List.mem_append.mp member with old | isItem
          · exact sound.sent old
          · rw [List.mem_singleton.mp isItem]
            exact sound.unannounced item isUnannounced
    · intro isOutside
      cases received with
      | false => exact sound.outside isOutside
      | true => exact absurd isOutside (hasJoined rfl)
  · refine ⟨sound.distinct, sound.queue, sound.unannounced, sound.backlog,
      sound.sent, ?_, ?_⟩
    · intro stillOutside
      cases stillOutside
    · intro _
      exact sound.waiting (by simp [isOutside])
  · refine ⟨sound.distinct, sound.queue, sound.unannounced,
      sound.queue.subset, sound.sent, ?_, ?_⟩
    · intro stillOutside
      cases stillOutside
    · intro notCaptured
      exact absurd rfl notCaptured
  · refine ⟨sound.distinct, isQueue.trans sound.queue, sound.unannounced,
      fun _ member => sound.backlog (isBacklog.subset member), sound.sent,
      sound.outside, fun notCaptured => ?_⟩
    have none_left := sound.waiting notCaptured
    rw [none_left] at isBacklog
    exact List.sublist_nil.mp isBacklog
  · have isCaptured : before.phase = .captured := by
      by_contra notCaptured
      rw [sound.waiting notCaptured] at isBacklog
      cases isBacklog
    have inBacklog := sound.backlog
    rw [isBacklog] at inBacklog
    refine ⟨sound.distinct, sound.queue, sound.unannounced,
      (List.cons_subset.mp inBacklog).2, ?_, ?_,
      fun notCaptured => absurd isCaptured notCaptured⟩
    · exact List.append_subset.mpr ⟨sound.sent,
        List.cons_subset.mpr ⟨(List.cons_subset.mp inBacklog).1,
          List.nil_subset _⟩⟩
    · intro isOutside
      rw [isCaptured] at isOutside
      cases isOutside

theorem sound_of_reachable {allowed : Feed Item → Event Item → Prop}
    {feed : Feed Item} (reached : ReachableWhile step allowed new feed) :
    feed.Sound := by
  apply reached.invariant Sound sound_new
  intro before event after sound _ stepTo
  exact sound.step stepTo

/-! ## Items are sent once -/

/-- The subscriber joins and looks into the queue while no item is between its
push and its announcement. -/
def JoinsApart (feed : Feed Item) : Event Item → Prop
  | .push _ _ => feed.phase ≠ .joined
  | .join => feed.unannounced = ∅
  | _ => True

/-- Nothing is sent twice, and what is still to be announced is neither sent
nor in the backlog. -/
structure SendsOnce (feed : Feed Item) : Prop where
  distinct : (feed.sent ++ feed.backlog).Nodup
  fresh : ∀ item ∈ feed.unannounced, item ∉ feed.sent ++ feed.backlog
  joined : feed.phase = .joined → feed.unannounced = ∅ ∧ feed.sent = []

theorem SendsOnce.step {before after : Feed Item} {event : Event Item}
    (sound : before.Sound) (once : before.SendsOnce)
    (apart : before.JoinsApart event)
    (stepTo : before.step event = some after) : after.SendsOnce := by
  rcases step_cases stepTo with
    ⟨item, kept, rfl, isNew, -, rfl⟩ |
    ⟨item, received, rfl, isUnannounced, -, rfl⟩ |
    ⟨rfl, isOutside, rfl⟩ | ⟨rfl, isJoined, rfl⟩ |
    ⟨queue, backlog, rfl, -, isBacklog, rfl⟩ |
    ⟨item, rest, rfl, isBacklog, rfl⟩
  · refine ⟨once.distinct, ?_, fun isJoined => absurd isJoined apart⟩
    rintro other (rfl | old)
    · -- everything sent or captured has been pushed before
      intro member
      rcases List.mem_append.mp member with isSent | inBacklog
      · exact isNew (sound.sent isSent)
      · exact isNew (sound.backlog inBacklog)
    · exact once.fresh other old
  · have notSent := once.fresh item isUnannounced
    refine ⟨?_, ?_, ?_⟩
    · cases received with
      | false => exact once.distinct
      | true =>
          change (before.sent ++ [item] ++ before.backlog).Nodup
          rw [List.append_assoc, List.singleton_append]
          exact List.nodup_middle.mpr
            (List.nodup_cons.mpr ⟨notSent, once.distinct⟩)
    · rintro other ⟨wasUnannounced, notItem⟩
      have fresh := once.fresh other wasUnannounced
      cases received with
      | false => exact fresh
      | true =>
          simp only [if_true, List.mem_append, List.mem_singleton] at fresh ⊢
          rintro ((isSent | isItem) | inBacklog)
          · exact fresh (.inl isSent)
          · exact notItem isItem
          · exact fresh (.inr inBacklog)
    · intro isJoined
      rw [(once.joined isJoined).1] at isUnannounced
      cases isUnannounced
  · exact ⟨once.distinct, once.fresh, fun _ =>
      ⟨apart, sound.outside isOutside⟩⟩
  · obtain ⟨noneLeft, noneSent⟩ := once.joined isJoined
    refine ⟨?_, ?_, ?_⟩
    · change (before.sent ++ before.queue).Nodup
      rw [noneSent, List.nil_append]
      exact sound.queue.nodup sound.distinct
    · intro other member
      rw [noneLeft] at member
      cases member
    · intro stillJoined
      cases stillJoined
  · have shrinks := (List.Sublist.refl before.sent).append isBacklog
    refine ⟨shrinks.nodup once.distinct, ?_, once.joined⟩
    intro other member kept
    exact once.fresh other member (shrinks.subset kept)
  · have same : before.sent ++ [item] ++ rest =
        before.sent ++ before.backlog := by
      rw [isBacklog, List.append_assoc, List.singleton_append]
    refine ⟨?_, ?_, ?_⟩
    · change (before.sent ++ [item] ++ rest).Nodup
      rw [same]
      exact once.distinct
    · intro other member
      change other ∉ before.sent ++ [item] ++ rest
      rw [same]
      exact once.fresh other member
    · intro isJoined
      have noBacklog := sound.waiting (by rw [isJoined]; simp)
      rw [noBacklog] at isBacklog
      cases isBacklog

theorem sent_nodup {feed : Feed Item}
    (reached : ReachableWhile step JoinsApart new feed) :
    feed.sent.Nodup := by
  have holds : feed.Sound ∧ feed.SendsOnce := by
    refine reached.invariant (fun feed => feed.Sound ∧ feed.SendsOnce) ?_ ?_
    · refine ⟨sound_new, List.nodup_nil, ?_, ?_⟩
      · intro item member
        cases member
      · intro isJoined
        cases isJoined
    · rintro before event after ⟨sound, once⟩ apart stepTo
      exact ⟨sound.step stepTo, once.step sound apart stepTo⟩
  exact (List.nodup_append.mp holds.2.distinct).1

/-! ## Items are sent in order -/

/-- Items are pushed one at a time, and neither while the subscriber is
joining nor while it has a backlog. -/
def PushesApart (feed : Feed Item) : Event Item → Prop
  | .push _ _ =>
      feed.unannounced = ∅ ∧ feed.phase ≠ .joined ∧ feed.backlog = []
  | .join => feed.unannounced = ∅
  | _ => True

/-- What is sent and what is in the backlog stands in the log in this order,
and an item to be announced is the last of the log. -/
structure SendsInOrder (feed : Feed Item) : Prop where
  ordered : (feed.sent ++ feed.backlog).Sublist feed.log
  last : ∀ item ∈ feed.unannounced, ∃ older, feed.log = older ++ [item] ∧
    feed.sent.Sublist older ∧ feed.backlog = []
  joined : feed.phase = .joined → feed.unannounced = ∅ ∧ feed.sent = []

theorem SendsInOrder.step {before after : Feed Item} {event : Event Item}
    (sound : before.Sound) (inOrder : before.SendsInOrder)
    (apart : before.PushesApart event)
    (stepTo : before.step event = some after) : after.SendsInOrder := by
  rcases step_cases stepTo with
    ⟨item, kept, rfl, isNew, -, rfl⟩ |
    ⟨item, received, rfl, isUnannounced, -, rfl⟩ |
    ⟨rfl, isOutside, rfl⟩ | ⟨rfl, isJoined, rfl⟩ |
    ⟨queue, backlog, rfl, -, isBacklog, rfl⟩ |
    ⟨item, rest, rfl, isBacklog, rfl⟩
  · obtain ⟨noneLeft, notJoined, noBacklog⟩ := apart
    refine ⟨inOrder.ordered.trans (List.sublist_append_left _ _), ?_,
      fun isJoined => absurd isJoined notJoined⟩
    intro other member
    rw [noneLeft, insert_empty_eq, Set.mem_singleton_iff] at member
    subst member
    exact ⟨before.log, rfl,
      (List.sublist_append_left _ _).trans inOrder.ordered, noBacklog⟩
  · obtain ⟨older, isLog, sentBefore, noBacklog⟩ :=
      inOrder.last item isUnannounced
    refine ⟨?_, ?_, ?_⟩
    · cases received with
      | false => exact inOrder.ordered
      | true =>
          change (before.sent ++ [item] ++ before.backlog).Sublist before.log
          rw [noBacklog, List.append_nil, isLog]
          exact sentBefore.append (List.Sublist.refl _)
    · -- there is only one last item
      rintro other ⟨wasUnannounced, notItem⟩
      obtain ⟨otherOlder, isOtherLog, -⟩ := inOrder.last other wasUnannounced
      rw [isLog] at isOtherLog
      exact absurd (List.singleton_inj.mp
        (List.append_inj_right' isOtherLog rfl)).symm notItem
    · intro isJoined
      rw [(inOrder.joined isJoined).1] at isUnannounced
      cases isUnannounced
  · exact ⟨inOrder.ordered, inOrder.last, fun _ =>
      ⟨apart, sound.outside isOutside⟩⟩
  · obtain ⟨noneLeft, noneSent⟩ := inOrder.joined isJoined
    refine ⟨?_, ?_, ?_⟩
    · change (before.sent ++ before.queue).Sublist before.log
      rw [noneSent, List.nil_append]
      exact sound.queue
    · intro other member
      rw [noneLeft] at member
      cases member
    · intro stillJoined
      cases stillJoined
  · refine ⟨?_, ?_, inOrder.joined⟩
    · exact ((List.Sublist.refl _).append isBacklog).trans inOrder.ordered
    · intro other member
      obtain ⟨older, isLog, sentBefore, noBacklog⟩ :=
        inOrder.last other member
      rw [noBacklog] at isBacklog
      exact ⟨older, isLog, sentBefore, List.sublist_nil.mp isBacklog⟩
  · refine ⟨?_, ?_, ?_⟩
    · have ordered := inOrder.ordered
      rw [isBacklog] at ordered
      change (before.sent ++ [item] ++ rest).Sublist before.log
      rwa [List.append_assoc, List.singleton_append]
    · intro other member
      obtain ⟨older, -, -, noBacklog⟩ := inOrder.last other member
      rw [noBacklog] at isBacklog
      cases isBacklog
    · intro isJoined
      have noBacklog := sound.waiting (by rw [isJoined]; simp)
      rw [noBacklog] at isBacklog
      cases isBacklog

theorem sent_sublist {feed : Feed Item}
    (reached : ReachableWhile step PushesApart new feed) :
    feed.sent.Sublist feed.log := by
  have holds : feed.Sound ∧ feed.SendsInOrder := by
    refine reached.invariant
      (fun feed => feed.Sound ∧ feed.SendsInOrder) ?_ ?_
    · refine ⟨sound_new, List.Sublist.refl _, ?_, ?_⟩
      · intro item member
        cases member
      · intro isJoined
        cases isJoined
    · rintro before event after ⟨sound, inOrder⟩ apart stepTo
      exact ⟨sound.step stepTo, inOrder.step sound apart stepTo⟩
  exact (List.sublist_append_left _ _).trans holds.2.ordered

/-- Of two items that were sent, the one that stands earlier in the log was
first sent earlier. -/
def InOrder [DecidableEq Item] (log sent : List Item) : Prop :=
  ∀ earlier later, [earlier, later].Sublist log →
    earlier ∈ sent → later ∈ sent →
      sent.idxOf earlier < sent.idxOf later

theorem inOrder_of_sublist [DecidableEq Item] {log sent : List Item}
    (distinct : log.Nodup) (sublist : sent.Sublist log) :
    InOrder log sent := by
  induction sublist with
  | slnil =>
      intro earlier later _ isSent
      cases isSent
  | @cons sent log item sublist ih =>
      obtain ⟨notInLog, restDistinct⟩ := List.nodup_cons.mp distinct
      intro earlier later stands isSent laterSent
      apply ih restDistinct earlier later ?_ isSent laterSent
      rcases List.sublist_cons_iff.mp stands with inRest | ⟨_, isHead, _⟩
      · exact inRest
      · cases isHead
        exact absurd (sublist.subset isSent) notInLog
  | @cons_cons sent log item sublist ih =>
      obtain ⟨notInLog, restDistinct⟩ := List.nodup_cons.mp distinct
      intro earlier later stands isSent laterSent
      have laterInLog : later ∈ log := by
        rcases List.sublist_cons_iff.mp stands with inRest | ⟨_, isHead, inRest⟩
        · exact inRest.subset (by simp)
        · cases isHead
          exact inRest.subset (by simp)
      have notLater : item ≠ later := fun same => notInLog (same ▸ laterInLog)
      rw [List.idxOf_cons_ne _ notLater]
      by_cases isFirst : item = earlier
      · rw [isFirst, List.idxOf_cons_self]
        omega
      · rw [List.idxOf_cons_ne _ isFirst]
        have inRest : [earlier, later].Sublist log := by
          rcases List.sublist_cons_iff.mp stands with inRest | ⟨_, isHead, _⟩
          · exact inRest
          · cases isHead
            exact absurd rfl isFirst
        have ordered := ih restDistinct earlier later inRest
          (List.mem_of_ne_of_mem (Ne.symm isFirst) isSent)
          (List.mem_of_ne_of_mem (Ne.symm notLater) laterSent)
        omega

end Feed

end CipherMQ
