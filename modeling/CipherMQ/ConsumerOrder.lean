import CipherMQ.ConsumerFeeds
import CipherMQ.QueueLogs

/-!
# Order and number of the copies a consumer gets

A registered consumer is served from two sides: publishes notify it of new
entries, and the entries it finds in the queue are sent by a task that runs
later.  An entry that was pushed and not yet announced when the consumer joins
comes from both sides, and an entry that is published while the task has not
finished overtakes the older ones.

The results read off what holds for the feed of a consumer when registrations,
or pushes, keep away from the publishes and registrations under way.
-/

namespace CipherMQ

open ServerState

/-- A publish that is between its push to the queue and the notification of
the consumers. -/
def Call.announcing (queueName : String) : Call → Bool
  | .publish _ point => decide (Announcing queueName point)
  | _ => false

/-- A registration on the queue that has added its consumer and not looked
into the queue. -/
def Call.joining (queueName : String) : Call → Bool
  | .registerConsumer other _ .readQueue => other == queueName
  | _ => false

/-- A registration on the queue that is at work on its copy. -/
def Call.capturing (queueName : String) : Call → Bool
  | .registerConsumer other _ (.readStatus _ _) => other == queueName
  | _ => false

def Call.joins : Call → Option String
  | .registerConsumer queueName _ .addConsumer => some queueName
  | _ => none

def Call.pushes : Call → Option String
  | .publish _ (.enqueue _ _ (queueName :: _)) => some queueName
  | _ => none

namespace TracedBroker

instance (traced : TracedBroker) (event : Broker.Event) :
    Decidable (traced.RegistersOnce event) :=
  match event with
  | .invoke (.registerConsumer _ channel) =>
      inferInstanceAs (Decidable (∀ call ∈ traced.broker.calls,
        call.registers ≠ some channel))
  | .invoke (.declareQueue _) | .invoke (.declareExchange _)
  | .invoke (.bindQueue _ _ _) | .invoke (.publish _)
  | .invoke (.acknowledge _) => instDecidableTrue
  | .advance _ _ | .markDelivered _ _ | .dropReceiver _
  | .runDeliveryTask _ | .bookkeep _ _ => instDecidableTrue

def NoneAnnouncing (traced : TracedBroker) (queueName : String) : Prop :=
  ∀ call ∈ traced.broker.calls, call.announcing queueName = false

def NoneJoining (traced : TracedBroker) (queueName : String) : Prop :=
  ∀ call ∈ traced.broker.calls, call.joining queueName = false

/-- Neither a registration on the queue nor a task that one has spawned has
entries left to send. -/
def NoBacklog (traced : TracedBroker) (queueName : String) : Prop :=
  (∀ call ∈ traced.broker.calls, call.capturing queueName = false) ∧
    ∀ task ∈ traced.broker.shared.deliveryTasks,
      task.source = queueName → task.remaining = []

/-- No channel is registered twice, and a consumer joins and looks into the
queue while no publish to the queue is between its push and its
notification. -/
def RegistersApart (traced : TracedBroker) (event : Broker.Event) : Prop :=
  traced.RegistersOnce event ∧
    match event with
    | .advance index _ => ∀ call ∈ traced.broker.calls[index]?,
        (∀ queueName ∈ call.joins, traced.NoneAnnouncing queueName) ∧
        ∀ queueName ∈ call.pushes, traced.NoneJoining queueName
    | _ => True

/-- No channel is registered twice, no consumer joins while a publish to the
queue is between its push and its notification, and a publish to a queue waits
for the other publishes to it, for the registrations on it and for the tasks
these have spawned. -/
def PushesApart (traced : TracedBroker) (event : Broker.Event) : Prop :=
  traced.RegistersOnce event ∧
    match event with
    | .advance index _ => ∀ call ∈ traced.broker.calls[index]?,
        (∀ queueName ∈ call.joins, traced.NoneAnnouncing queueName) ∧
        ∀ queueName ∈ call.pushes, traced.NoneAnnouncing queueName ∧
          traced.NoneJoining queueName ∧ traced.NoBacklog queueName
    | _ => True

instance (traced : TracedBroker) (queueName : String) :
    Decidable (traced.NoneAnnouncing queueName) :=
  inferInstanceAs (Decidable (∀ call ∈ traced.broker.calls, _))

instance (traced : TracedBroker) (queueName : String) :
    Decidable (traced.NoneJoining queueName) :=
  inferInstanceAs (Decidable (∀ call ∈ traced.broker.calls, _))

instance (traced : TracedBroker) (queueName : String) :
    Decidable (traced.NoBacklog queueName) :=
  inferInstanceAs (Decidable (_ ∧
    ∀ task ∈ traced.broker.shared.deliveryTasks, _ → _))

instance (traced : TracedBroker) (event : Broker.Event) :
    Decidable (traced.RegistersApart event) :=
  match event with
  | .advance _ _ => inferInstanceAs (Decidable (_ ∧
      ∀ call ∈ _, (∀ queueName ∈ Call.joins call, _) ∧
        ∀ queueName ∈ Call.pushes call, _))
  | .invoke _ | .markDelivered _ _ | .dropReceiver _ | .runDeliveryTask _
  | .bookkeep _ _ => inferInstanceAs (Decidable (_ ∧ True))

instance (traced : TracedBroker) (event : Broker.Event) :
    Decidable (traced.PushesApart event) :=
  match event with
  | .advance _ _ => inferInstanceAs (Decidable (_ ∧
      ∀ call ∈ _, (∀ queueName ∈ Call.joins call, _) ∧
        ∀ queueName ∈ Call.pushes call, _))
  | .invoke _ | .markDelivered _ _ | .dropReceiver _ | .runDeliveryTask _
  | .bookkeep _ _ => inferInstanceAs (Decidable (_ ∧ True))

section Conditions

variable {traced : TracedBroker} {queueName : String} {channel : ChannelId}
  {registration : Option Registration}

theorem announcing_eq_empty
    (silent : traced.NoneAnnouncing queueName) :
    announcing traced.broker.calls queueName = ∅ := by
  ext entry
  simp only [Set.mem_empty_iff_false, iff_false]
  rintro ⟨call, found, announces⟩
  have isSilent := silent call (List.mem_of_getElem? found)
  cases call with
  | publish request point =>
      exact absurd announces.2 (of_decide_eq_false isSilent)
  | _ => cases announces

theorem phase_ne_joined
    (noneJoins : traced.NoneJoining queueName)
    (registered : traced.IsRegistration queueName channel registration) :
    (traced.feed queueName channel registration).phase ≠ .joined := by
  cases registration with
  | none => simp [feed]
  | some made =>
      obtain ⟨index, point⟩ := made
      have notJoining := noneJoins _ (List.mem_of_getElem? registered)
      cases point with
      | readQueue => simp [Call.joining] at notJoining
      | _ => simp [feed, RegisterPoint.phase]

theorem backlog_eq_nil (tracked : traced.Tracked)
    (noBacklog : traced.NoBacklog queueName)
    (registered : traced.IsRegistration queueName channel registration) :
    (traced.feed queueName channel registration).backlog = [] := by
  cases registration with
  | none => rfl
  | some made =>
      obtain ⟨index, point⟩ := made
      have notCapturing := noBacklog.1 _ (List.mem_of_getElem? registered)
      cases point with
      | readStatus => simp [Call.capturing] at notCapturing
      | returned position =>
          cases position with
          | none => rfl
          | some position =>
              obtain ⟨remaining, isTask⟩ :=
                tracked.registrations.spawned _ _ _ _ registered
              have isDone := noBacklog.2 _ (List.mem_of_getElem? isTask) rfl
              have sameTask := congrArg (fun tasks => tasks[position]?)
                tracked.faithful.tasks
              simp only [List.getElem?_map, isTask, Option.map_some]
                at sameTask
              obtain ⟨stamped, isStamped, isEmpty⟩ :=
                Option.map_eq_some_iff.mp sameTask
              simp [feed, Trace.backlog, isStamped,
                List.map_eq_nil_iff.mp (isEmpty.trans isDone)]
      | declareQueue | addConsumer | readQueue => rfl

end Conditions

/-! ## One copy -/

theorem RegistersApart.joinsApart {traced : TracedBroker}
    {event : Broker.Event} {queueName : String} {channel : ChannelId}
    {registration : Option Registration} {feedEvent : Feed.Event Stamped}
    (apart : traced.RegistersApart event)
    (registered : traced.IsRegistration queueName channel registration)
    (underlies : traced.Underlies event queueName feedEvent) :
    (traced.feed queueName channel registration).JoinsApart feedEvent := by
  cases feedEvent with
  | push =>
      obtain ⟨index, reading, request, targets, queueSet, remaining, rfl,
        found⟩ := underlies
      exact phase_ne_joined ((apart.2 _ found).2 queueName rfl) registered
  | join =>
      obtain ⟨index, reading, other, rfl, found⟩ := underlies
      exact announcing_eq_empty ((apart.2 _ found).1 queueName rfl)
  | announce | capture | shrink | deliver => trivial

theorem IsRegistration.eq_some {traced : TracedBroker} {queueName : String}
    {channel : ChannelId} {registration : Option Registration} {index : Nat}
    {point : RegisterPoint}
    (registered : traced.IsRegistration queueName channel registration)
    (registers : traced.Registers index queueName channel point) :
    ∃ made, registration = some made := by
  cases registration with
  | none => exact absurd registers (registered index point)
  | some made => exact ⟨made, rfl⟩

theorem Placement.entry_eq {traced : TracedBroker}
    (placement : traced.Placement) {queueName : String}
    {first second : Stamped} (isFirst : first ∈ traced.trace.log queueName)
    (isSecond : second ∈ traced.trace.log queueName)
    (sameCall : first.1 = second.1) : first = second := by
  obtain ⟨request, point, isCall, isEntry, -⟩ :=
    placement.logged queueName first isFirst
  obtain ⟨other, otherPoint, isOther, isOtherEntry, -⟩ :=
    placement.logged queueName second isSecond
  rw [← sameCall, isCall] at isOther
  cases isOther
  exact Prod.ext sameCall (isEntry.trans isOtherEntry.symm)

theorem countP_le_one {entries : List Stamped} {index : Nat}
    (distinct : entries.Nodup)
    (alike : ∀ first ∈ entries, ∀ second ∈ entries, first.1 = second.1 →
      first = second) :
    entries.countP (fun entry => entry.1 == index) ≤ 1 := by
  by_cases occurs : ∃ first ∈ entries, first.1 = index
  · obtain ⟨first, isFirst, rfl⟩ := occurs
    refine le_trans (List.countP_mono_left ?_)
      (List.nodup_iff_count_le_one.mp distinct first)
    intro second isSecond sameCall
    rw [beq_iff_eq] at sameCall ⊢
    exact alike second isSecond first isFirst sameCall
  · rw [List.countP_eq_zero.mpr]
    · exact Nat.zero_le 1
    · intro entry isEntry isIndex
      exact occurs ⟨entry, isEntry, beq_iff_eq.mp isIndex⟩

/-- If registrations keep away from the publishes under way, a publish puts at
most one copy of its message on a channel. -/
theorem copies_le_one {maxQueueSize : Nat} {traced : TracedBroker}
    (reached : ReachableWhile step RegistersApart (new maxQueueSize) traced)
    (channel : ChannelId) (index : Nat) :
    traced.Faithful ∧
      (traced.trace.sent channel).countP
        (fun entry => entry.1 == index) ≤ 1 := by
  have follows : ∀ queueName, traced.Tracked ∧ ∃ registration,
      traced.IsRegistration queueName channel registration ∧
        ReachableWhile Feed.step Feed.JoinsApart Feed.new
          (traced.feed queueName channel registration) := by
    intro queueName
    exact feed_reachable (fun _ _ apart => apart.1)
      (fun _ _ _ _ _ apart registered => apart.joinsApart registered) reached
  have tracked := (follows "").1
  refine ⟨tracked.faithful, ?_⟩
  by_cases isRegistered : ∃ made queueName point,
      traced.Registers made queueName channel point
  · obtain ⟨made, queueName, point, registers⟩ := isRegistered
    obtain ⟨-, registration, registered, feedReached⟩ := follows queueName
    obtain ⟨_, rfl⟩ := registered.eq_some registers
    have sentInLog := (Feed.sound_of_reachable feedReached).sent
    apply countP_le_one (Feed.sent_nodup feedReached)
    intro first isFirst second isSecond
    exact tracked.placement.entry_eq (sentInLog isFirst) (sentInLog isSecond)
  · have isSilent := tracked.registrations.silent channel
      fun made queueName point registers =>
        isRegistered ⟨made, queueName, point, registers⟩
    simp [isSilent]

/-- Call `index` registers channel 0 on the queue, up to its next access after
`count` ones. -/
def registering (index count : Nat) : List Broker.Event :=
  .invoke (.registerConsumer "q" 0) :: Broker.accesses index count

/-- A consumer registers between two publishes: it finds the first message in
the queue and is notified of the second one before its task runs. -/
def overtaking : List Broker.Event :=
  Broker.boundQueue ++ publishing 3 8 "m1" ++ registering 4 5 ++
    publishing 5 8 "m2" ++ [.runDeliveryTask 0]

theorem copies_le_one_between :
    ∃ traced, ReachableWhile step RegistersApart (new 10) traced ∧
      (traced.broker.shared.channels 0).sent.map Delivery.messageId =
        ["m2", "m1"] ∧
      (traced.trace.sent 0).countP (fun entry => entry.1 == 3) ≤ 1 := by
  have ran : (executeWhile step RegistersApart (new 10) overtaking).map
      (fun traced =>
        (traced.broker.shared.channels 0).sent.map Delivery.messageId) =
      some ["m2", "m1"] := by
    decide +kernel
  obtain ⟨traced, reached, isSent⟩ := exists_reachableWhile_of_map ran
  exact ⟨traced, reached, isSent, (copies_le_one reached 0 3).2⟩

/-- A consumer registers when a publish has recorded its message and not yet
notified the consumers: the message is sent by the publish and by the task of
the registration. -/
theorem copies_eq_two_duringPublish :
    ∃ traced, Reachable step (new 10) traced ∧
      traced.broker.calls[3]? = some (.publish
        (Broker.sampleRequest "m1" "sender_1") (.returned (.ok ()))) ∧
      (traced.broker.shared.channels 0).closed = false ∧
      (traced.broker.shared.channels 0).sent.map Delivery.messageId =
        ["m1", "m1"] ∧
      (traced.trace.sent 0).countP (fun entry => entry.1 == 3) = 2 := by
  have ran : (executeWhile step (fun _ _ => True) (new 10)
      (Broker.boundQueue ++ publishing 3 6 "m1" ++ registering 4 5 ++
        Broker.accesses 3 2 ++ [.runDeliveryTask 0])).map
        (fun traced => (traced.broker.calls[3]?,
          (traced.broker.shared.channels 0).closed,
          (traced.broker.shared.channels 0).sent.map Delivery.messageId,
          (traced.trace.sent 0).countP fun entry => entry.1 == 3)) =
      some (some (.publish (Broker.sampleRequest "m1" "sender_1")
        (.returned (.ok ()))), false, ["m1", "m1"], 2) := by
    decide +kernel
  obtain ⟨traced, reached, account⟩ := exists_reachableWhile_of_map ran
  simp only [Prod.mk.injEq] at account
  exact ⟨traced, reached, account⟩

/-! ## The order of the queue -/

theorem PushesApart.feedApart {traced : TracedBroker}
    {event : Broker.Event} {queueName : String} {channel : ChannelId}
    {registration : Option Registration} {feedEvent : Feed.Event Stamped}
    (apart : traced.PushesApart event) (tracked : traced.Tracked)
    (registered : traced.IsRegistration queueName channel registration)
    (underlies : traced.Underlies event queueName feedEvent) :
    (traced.feed queueName channel registration).PushesApart feedEvent := by
  cases feedEvent with
  | push =>
      obtain ⟨index, reading, request, targets, queueSet, remaining, rfl,
        found⟩ := underlies
      obtain ⟨noneAnnouncing, noneJoining, noBacklog⟩ :=
        (apart.2 _ found).2 queueName rfl
      exact ⟨announcing_eq_empty noneAnnouncing,
        phase_ne_joined noneJoining registered,
        backlog_eq_nil tracked noBacklog registered⟩
  | join =>
      obtain ⟨index, reading, other, rfl, found⟩ := underlies
      exact announcing_eq_empty ((apart.2 _ found).1 queueName rfl)
  | announce | capture | shrink | deliver => trivial

/-- If publishes to a queue run one after the other and wait for the backlogs
of its consumers, a consumer gets its messages in the order of the queue. -/
theorem sent_inOrder {maxQueueSize : Nat} {traced : TracedBroker}
    (reached : ReachableWhile step PushesApart (new maxQueueSize) traced)
    {index : Nat} {queueName : String} {channel : ChannelId}
    {point : RegisterPoint}
    (registers : traced.Registers index queueName channel point) :
    traced.Faithful ∧
      Feed.InOrder (traced.trace.log queueName)
        (traced.trace.sent channel) := by
  obtain ⟨tracked, registration, registered, feedReached⟩ :=
    feed_reachable (fun _ _ apart => apart.1)
      (fun _ _ _ _ tracked apart registered =>
        apart.feedApart tracked registered) reached
  obtain ⟨_, rfl⟩ := registered.eq_some registers
  exact ⟨tracked.faithful, Feed.inOrder_of_sublist
    (Feed.sound_of_reachable feedReached).distinct
    (Feed.sent_sublist feedReached)⟩

/-- The second publish waits until the task has sent the first message. -/
theorem sent_inOrder_waiting :
    ∃ traced, ReachableWhile step PushesApart (new 10) traced ∧
      traced.Registers 4 "q" 0 (.returned (some 0)) ∧
      (traced.broker.shared.channels 0).sent.map Delivery.messageId =
        ["m1", "m2"] ∧
      Feed.InOrder (traced.trace.log "q") (traced.trace.sent 0) := by
  have ran : (executeWhile step PushesApart (new 10)
      (Broker.boundQueue ++ publishing 3 8 "m1" ++ registering 4 5 ++
        [.runDeliveryTask 0] ++ publishing 5 8 "m2")).map
        (fun traced => (traced.broker.calls[4]?,
          (traced.broker.shared.channels 0).sent.map Delivery.messageId)) =
      some (some (.registerConsumer "q" 0 (.returned (some 0))),
        ["m1", "m2"]) := by
    decide +kernel
  obtain ⟨traced, reached, account⟩ := exists_reachableWhile_of_map ran
  simp only [Prod.mk.injEq] at account
  exact ⟨traced, reached, account.1, account.2,
    (sent_inOrder reached account.1).2⟩

/-- A message published before the task runs overtakes the one that the
consumer has found in the queue. -/
theorem not_inOrder_delayedTask :
    ∃ traced, Reachable step (new 10) traced ∧ traced.Faithful ∧
      traced.Registers 4 "q" 0 (.returned (some 0)) ∧
      traced.trace.log "q" =
        [(3, "m1", sampleMessage "m1"), (5, "m2", sampleMessage "m2")] ∧
      traced.trace.sent 0 =
        [(5, "m2", sampleMessage "m2"), (3, "m1", sampleMessage "m1")] ∧
      ¬ Feed.InOrder (traced.trace.log "q") (traced.trace.sent 0) := by
  have ran : (executeWhile step (fun _ _ => True) (new 10) overtaking).map
      (fun traced => traced.broker.calls[4]?) =
      some (some (.registerConsumer "q" 0 (.returned (some 0)))) := by
    decide +kernel
  have flowed : (executeWhile step (fun _ _ => True) (new 10) overtaking).map
      (fun traced => (traced.trace.log "q", traced.trace.sent 0)) =
      some ([(3, "m1", sampleMessage "m1"), (5, "m2", sampleMessage "m2")],
        [(5, "m2", sampleMessage "m2"), (3, "m1", sampleMessage "m1")]) := by
    decide +kernel
  obtain ⟨traced, executed, registers⟩ := Option.map_eq_some_iff.mp ran
  rw [executed, Option.map_some, Option.some.injEq, Prod.mk.injEq] at flowed
  obtain ⟨isLog, isSent⟩ := flowed
  have reached := reachableWhile_of_executeWhile executed
  refine ⟨traced, reached, faithful_of_reachable reached, registers, isLog,
    isSent, ?_⟩
  rw [isLog, isSent]
  intro inOrder
  have overtaken := inOrder (3, "m1", sampleMessage "m1")
    (5, "m2", sampleMessage "m2") (List.Sublist.refl _) (by simp) (by simp)
  revert overtaken
  decide +kernel

end TracedBroker

end CipherMQ
