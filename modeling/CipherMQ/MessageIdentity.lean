import CipherMQ.DuplicateSuppression
import CipherMQ.HybridEncryption

/-!
# What a message identifier identifies

The sender joins its common name, the correlation identifier and the receiver
with dashes.  The correlation identifier has eight hexadecimal digits, but the
two names around it may contain dashes, so one identifier can be read in two
ways: the name of one sender then ends in what is the correlation identifier
of the other message.

The broker takes a message for a duplicate if its identifier has a status.
-/

namespace CipherMQ

/-! ## Two readings of one text -/

/-- Two readings of a text as three parts, of which the middle ones have the
same length and hold no separator: either the parts are the same, or the
middle of the first lies within the beginning of the second. -/
theorem joined_eq_cases {Letter : Type*} {separator : Letter}
    {start middle rest start' middle' rest' : List Letter}
    (sameLength : middle.length = middle'.length)
    (unseparated : separator ∉ middle) (shorter : start.length ≤ start'.length)
    (same : start ++ separator :: (middle ++ separator :: rest) =
      start' ++ separator :: (middle' ++ separator :: rest')) :
    (start = start' ∧ middle = middle' ∧ rest = rest') ∨
    (start' = start ++ separator :: middle ∧
      rest = middle' ++ separator :: rest') ∨
    (∃ between, start' = start ++ separator :: (middle ++ separator :: between) ∧
      rest = between ++ separator :: (middle' ++ separator :: rest')) := by
  have extends' : ∃ more, start' = start ++ more ∧
      separator :: (middle ++ separator :: rest) =
        more ++ separator :: (middle' ++ separator :: rest') := by
    rcases List.append_eq_append_iff.mp same with
      found | ⟨more, rfl, isRest⟩
    · exact found
    · have isNil : more = [] := by
        rw [List.length_append] at shorter
        exact List.eq_nil_of_length_eq_zero (by omega)
      subst isNil
      exact ⟨[], by simp, by simpa using isRest.symm⟩
  obtain ⟨more, rfl, sameTail⟩ := extends'
  cases more with
  | nil =>
      left
      simp only [List.nil_append, List.cons.injEq, true_and] at sameTail
      obtain ⟨sameMiddle, sameRest⟩ := List.append_inj sameTail sameLength
      exact ⟨by simp, sameMiddle, (List.cons.inj sameRest).2⟩
  | cons letter more =>
      right
      simp only [List.cons_append, List.cons.injEq] at sameTail
      obtain ⟨rfl, sameTail⟩ := sameTail
      rcases List.append_eq_append_iff.mp sameTail with
        ⟨between, rfl, isRest⟩ | ⟨between, isMiddle, isRest⟩
      · cases between with
        | nil =>
            left
            simp only [List.nil_append, List.cons.injEq, true_and] at isRest
            exact ⟨by simp, isRest⟩
        | cons letter between =>
            right
            simp only [List.cons_append, List.cons.injEq] at isRest
            obtain ⟨rfl, isRest⟩ := isRest
            exact ⟨between, rfl, isRest⟩
      · cases between with
        | nil =>
            left
            simp only [List.nil_append, List.cons.injEq, true_and] at isRest
            rw [List.append_nil] at isMiddle
            exact ⟨by rw [isMiddle], isRest.symm⟩
        | cons letter between =>
            simp only [List.cons_append, List.cons.injEq] at isRest
            rw [isMiddle, ← isRest.1] at unseparated
            simp at unseparated

namespace Sender

def isHexDigit (character : Char) : Bool :=
  ('0' ≤ character && character ≤ '9') ||
    ('a' ≤ character && character ≤ 'f') ||
    ('A' ≤ character && character ≤ 'F')

structure IsCorrelationId (text : String) : Prop where
  length : text.toList.length = 8
  hex : text.toList.all isHexDigit = true

instance (text : String) : Decidable (IsCorrelationId text) :=
  decidable_of_iff (text.toList.length = 8 ∧ text.toList.all isHexDigit = true)
    ⟨fun holds => ⟨holds.1, holds.2⟩, fun isId => ⟨isId.length, isId.hex⟩⟩

theorem IsCorrelationId.dash_not_mem {text : String}
    (isId : IsCorrelationId text) : '-' ∉ text.toList := by
  intro isMember
  have isHex := List.all_eq_true.mp isId.hex '-' isMember
  revert isHex
  decide

def SameParts (first : PlainMessage × String)
    (second : PlainMessage × String) : Prop :=
  first.1.senderId = second.1.senderId ∧
    first.1.correlationId = second.1.correlationId ∧ first.2 = second.2

/-- The sender of the second message is named like the sender and the
correlation identifier of the first, and the receiver of the first makes up
for it. -/
def Overlaps (first second : PlainMessage × String) : Prop :=
  (second.1.senderId = first.1.senderId ++ "-" ++ first.1.correlationId ∧
    first.2 = second.1.correlationId ++ "-" ++ second.2) ∨
  ∃ between,
    second.1.senderId =
      first.1.senderId ++ "-" ++ first.1.correlationId ++ "-" ++ between ∧
    first.2 =
      between ++ "-" ++ second.1.correlationId ++ "-" ++ second.2

theorem toList_join (first second : String) :
    (first ++ "-" ++ second).toList =
      first.toList ++ '-' :: second.toList := by
  rw [String.toList_append, String.toList_append, List.append_assoc]
  rfl

theorem toList_messageIdOf (message : PlainMessage) (receiver : String) :
    (messageIdOf message receiver).toList =
      message.senderId.toList ++ '-' ::
        (message.correlationId.toList ++ '-' :: receiver.toList) := by
  unfold messageIdOf
  rw [toList_join, toList_join, List.append_assoc]
  rfl

theorem messageIdOf_eq_of_overlaps {first second : PlainMessage × String}
    (overlaps : Overlaps first second) :
    messageIdOf first.1 first.2 = messageIdOf second.1 second.2 := by
  unfold messageIdOf
  rcases overlaps with ⟨isSender, isReceiver⟩ |
    ⟨between, isSender, isReceiver⟩
  · rw [isSender, isReceiver]
    simp only [String.append_assoc]
  · rw [isSender, isReceiver]
    simp only [String.append_assoc]

theorem sameParts_or_overlaps {first second : PlainMessage × String}
    (isFirst : IsCorrelationId first.1.correlationId)
    (isSecond : IsCorrelationId second.1.correlationId)
    (shorter : first.1.senderId.toList.length ≤
      second.1.senderId.toList.length)
    (same : messageIdOf first.1 first.2 = messageIdOf second.1 second.2) :
    SameParts first second ∨ Overlaps first second := by
  have characters := congrArg String.toList same
  rw [toList_messageIdOf, toList_messageIdOf] at characters
  rcases joined_eq_cases (isFirst.length.trans isSecond.length.symm)
    isFirst.dash_not_mem shorter characters with
    ⟨sameSender, sameId, sameReceiver⟩ | ⟨isSender, isReceiver⟩ |
    ⟨between, isSender, isReceiver⟩
  · exact Or.inl ⟨String.toList_injective sameSender,
      String.toList_injective sameId, String.toList_injective sameReceiver⟩
  · refine Or.inr (Or.inl ⟨String.toList_injective ?_,
      String.toList_injective ?_⟩)
    · rw [toList_join, isSender]
    · rw [toList_join, isReceiver]
  · refine Or.inr (Or.inr ⟨String.ofList between,
      String.toList_injective ?_, String.toList_injective ?_⟩)
    · rw [toList_join, toList_join, isSender, String.toList_ofList,
        List.append_assoc]
      rfl
    · rw [toList_join, toList_join, isReceiver, String.toList_ofList,
        List.append_assoc]
      rfl

/-- Two identifiers are equal exactly if their parts are, or one is read in
the two ways. -/
theorem messageIdOf_eq_iff {first second : PlainMessage × String}
    (isFirst : IsCorrelationId first.1.correlationId)
    (isSecond : IsCorrelationId second.1.correlationId) :
    messageIdOf first.1 first.2 = messageIdOf second.1 second.2 ↔
      SameParts first second ∨ Overlaps first second ∨
        Overlaps second first := by
  constructor
  · intro same
    rcases Nat.le_total first.1.senderId.toList.length
      second.1.senderId.toList.length with shorter | longer
    · rcases sameParts_or_overlaps isFirst isSecond shorter same with
        sameParts | overlaps
      · exact Or.inl sameParts
      · exact Or.inr (Or.inl overlaps)
    · rcases sameParts_or_overlaps isSecond isFirst longer same.symm with
        sameParts | overlaps
      · exact Or.inl ⟨sameParts.1.symm, sameParts.2.1.symm,
          sameParts.2.2.symm⟩
      · exact Or.inr (Or.inr overlaps)
  · rintro (⟨sameSender, sameId, sameReceiver⟩ | overlaps | overlaps)
    · unfold messageIdOf
      rw [sameSender, sameId, sameReceiver]
    · exact messageIdOf_eq_of_overlaps overlaps
    · exact (messageIdOf_eq_of_overlaps overlaps).symm

theorem Overlaps.sender_ne {first second : PlainMessage × String}
    (overlaps : Overlaps first second) :
    first.1.senderId ≠ second.1.senderId := by
  intro same
  rcases overlaps with ⟨isSender, -⟩ | ⟨between, isSender, -⟩
  · have lengths := congrArg (fun text => text.toList.length) isSender
    simp only [toList_join, List.length_append, List.length_cons, same]
      at lengths
    omega
  · have lengths := congrArg (fun text => text.toList.length) isSender
    simp only [toList_join, List.length_append, List.length_cons, same]
      at lengths
    omega

/-- Equal identifiers mean equal parts exactly if neither can be read in the
two ways. -/
theorem sameParts_of_eq_iff {first second : PlainMessage × String}
    (isFirst : IsCorrelationId first.1.correlationId)
    (isSecond : IsCorrelationId second.1.correlationId) :
    (messageIdOf first.1 first.2 = messageIdOf second.1 second.2 →
        SameParts first second) ↔
      ¬ Overlaps first second ∧ ¬ Overlaps second first := by
  rw [messageIdOf_eq_iff isFirst isSecond]
  constructor
  · intro identifies
    constructor
    · intro overlaps
      exact overlaps.sender_ne (identifies (Or.inr (Or.inl overlaps))).1
    · intro overlaps
      exact overlaps.sender_ne (identifies (Or.inr (Or.inr overlaps))).1.symm
  · rintro ⟨notFirst, notSecond⟩ (sameParts | overlaps | overlaps)
    · exact sameParts
    · exact absurd overlaps notFirst
    · exact absurd overlaps notSecond

end Sender

/-! ## Messages taken for duplicates -/

namespace Call

def publishedId : Call → Option String
  | .publish request _ => some request.message.messageId
  | _ => none

/-- A publish that was refused because its identifier had a status. -/
def isDuplicate : Call → Bool
  | .publish request (.returned (.error text)) =>
      text = "Duplicate message " ++ request.message.messageId ++ " ignored"
  | _ => false

theorem isDuplicate_returned (request : PublishRequest) (text : String) :
    (Call.publish request (.returned (.error text))).isDuplicate = true ↔
      text =
        "Duplicate message " ++ request.message.messageId ++ " ignored" :=
  decide_eq_true_iff

theorem publishedId_advance (call : Call) (reading : Reading)
    (state : ServerState) :
    (call.advance reading state).2.publishedId = call.publishedId := by
  cases call with
  | declareQueue queueName point => cases point <;> rfl
  | declareExchange exchangeName point => cases point <;> rfl
  | _ => rfl

theorem recorded_advance {call : Call} (isRecorded : call.recorded = true)
    (reading : Reading) (state : ServerState) :
    (call.advance reading state).2.recorded = true := by
  cases call with
  | publish request point =>
      cases point with
      | notify remaining => cases remaining <;> rfl
      | returned result => exact isRecorded
      | _ => cases isRecorded
  | _ => cases isRecorded

theorem ne_duplicate_of_head {text : String}
    (otherLetter : text.toList.head? ≠ some 'D') (messageId : String) :
    text ≠ "Duplicate message " ++ messageId := by
  intro same
  rw [same] at otherLetter
  simp at otherLetter

/-- Only the first check of a publish finds a duplicate. -/
theorem tracked_of_isDuplicate {call : Call} {reading : Reading}
    {state : ServerState} (running : call.isReturned = false)
    (isDuplicate : (call.advance reading state).2.isDuplicate = true) :
    ∃ messageId, call.publishedId = some messageId ∧
      (state.messageStatus messageId).isSome = true := by
  cases call with
  | publish request point =>
      refine ⟨request.message.messageId, rfl, ?_⟩
      cases point with
      | checkDuplicate =>
          simp only [Call.advance, ServerState.publishStep] at isDuplicate
          split at isDuplicate
          · rename_i tracked
            simpa using tracked
          · cases isDuplicate
      | saveMetadata =>
          simp only [Call.advance, ServerState.publishStep] at isDuplicate
          split at isDuplicate
          · have same := (isDuplicate_returned request _).mp isDuplicate
            rw [String.append_assoc] at same
            exact absurd same (ne_duplicate_of_head (by simp) _)
          · cases isDuplicate
      | findTargets =>
          simp only [Call.advance, ServerState.publishStep] at isDuplicate
          split at isDuplicate
          · have same := (isDuplicate_returned request _).mp isDuplicate
            simp only [String.append_assoc] at same
            exact absurd same (ne_duplicate_of_head (by simp) _)
          · cases isDuplicate
      | enqueue targets queueSet remaining =>
          cases remaining with
          | nil => cases isDuplicate
          | cons queueName remaining =>
              simp only [Call.advance, ServerState.publishStep] at isDuplicate
              split at isDuplicate
              · cases isDuplicate
              · split at isDuplicate <;> cases isDuplicate
      | notify remaining => cases remaining <;> cases isDuplicate
      | returned result => cases running
      | _ => cases isDuplicate
  | declareQueue queueName point => cases point <;> cases isDuplicate
  | declareExchange exchangeName point => cases point <;> cases isDuplicate
  | _ => cases isDuplicate

end Call

theorem Access.tracked_cases {before after : ServerState} {call : Call}
    (access : Access before call after) {messageId : String}
    (tracked : (after.messageStatus messageId).isSome = true) :
    (before.messageStatus messageId).isSome = true ∨
      ∃ request targets, call = .publish request (.insertStatus targets) ∧
        request.message.messageId = messageId := by
  have fewer : ∀ {removed : String},
      (before.messageStatus.remove removed messageId).isSome = true →
        (before.messageStatus messageId).isSome = true := by
    intro removed isTracked
    rw [KeyMap.remove_apply] at isTracked
    split at isTracked
    · cases isTracked
    · exact isTracked
  cases access with
  | insertStatus request targets =>
      by_cases same : messageId = request.message.messageId
      · exact Or.inr ⟨request, targets, rfl, same.symm⟩
      · left
        simpa [same] using tracked
  | evictStatus request targets queueSet remaining oldMessageId =>
      exact Or.inl (fewer tracked)
  | removeStatus other => exact Or.inl (fewer tracked)
  | markAcknowledged other now =>
      left
      simp only [ServerState.markAcknowledged, KeyMap.modify_apply] at tracked
      split at tracked
      · rwa [Option.isSome_map] at tracked
      · exact tracked
  | _ => exact Or.inl tracked

namespace Broker

def Announces (broker : Broker) (messageId : String) : Prop :=
  ∃ call ∈ broker.calls, call.recorded = true ∧
    call.publishedId = some messageId

/-- Every status, and every refusal of a duplicate, goes back to a publish of
the same identifier. -/
structure Attributed (broker : Broker) : Prop where
  tracked : ∀ messageId,
    (broker.shared.messageStatus messageId).isSome = true →
      broker.Announces messageId
  duplicates : ∀ call ∈ broker.calls, call.isDuplicate = true →
    ∃ messageId, call.publishedId = some messageId ∧
      broker.Announces messageId

theorem attributed_new (maxQueueSize : Nat) :
    (new maxQueueSize).Attributed where
  tracked messageId isTracked := by cases isTracked
  duplicates call isMember := by cases isMember

theorem Announces.advance {broker : Broker} {index : Nat} {call : Call}
    {messageId : String} (found : broker.calls[index]? = some call)
    (announces : broker.Announces messageId) (reading : Reading)
    (shared : ServerState) :
    Announces ⟨shared, broker.calls.set index
      (call.advance reading broker.shared).2⟩ messageId := by
  obtain ⟨other, isMember, isRecorded, isPublished⟩ := announces
  obtain ⟨position, isOther⟩ := List.mem_iff_getElem?.mp isMember
  by_cases same : position = index
  · subst same
    rw [found] at isOther
    cases isOther
    refine ⟨_, List.mem_of_getElem? (getElem?_set_moved found _),
      Call.recorded_advance isRecorded reading broker.shared, ?_⟩
    rw [Call.publishedId_advance]
    exact isPublished
  · refine ⟨other, List.mem_iff_getElem?.mpr ⟨position, ?_⟩, isRecorded,
      isPublished⟩
    rw [List.getElem?_set_ne (Ne.symm same)]
    exact isOther

theorem Attributed.advance {broker : Broker} {index : Nat} {call : Call}
    (attributed : broker.Attributed)
    (found : broker.calls[index]? = some call)
    (running : call.isReturned = false) (reading : Reading) :
    Attributed ⟨(call.advance reading broker.shared).1,
      broker.calls.set index (call.advance reading broker.shared).2⟩ := by
  have keeps : ∀ {messageId}, broker.Announces messageId →
      Announces ⟨(call.advance reading broker.shared).1,
        broker.calls.set index (call.advance reading broker.shared).2⟩
          messageId := fun announces =>
    announces.advance found reading _
  constructor
  case tracked =>
    intro messageId tracked
    rcases (access_advance reading broker.shared call).tracked_cases
      tracked with wasTracked | ⟨request, targets, rfl, rfl⟩
    · exact keeps (attributed.tracked messageId wasTracked)
    · exact ⟨_, List.mem_of_getElem? (getElem?_set_moved found _), rfl, rfl⟩
  case duplicates =>
    intro other isMember isDuplicate
    obtain ⟨position, isOther⟩ := List.mem_iff_getElem?.mp isMember
    rcases getElem?_set_cases isOther with ⟨-, rfl⟩ | ⟨-, unchanged⟩
    · obtain ⟨messageId, isPublished, tracked⟩ :=
        Call.tracked_of_isDuplicate running isDuplicate
      refine ⟨messageId, ?_, keeps (attributed.tracked messageId tracked)⟩
      rw [Call.publishedId_advance]
      exact isPublished
    · obtain ⟨messageId, isPublished, announces⟩ :=
        attributed.duplicates other (List.mem_of_getElem? unchanged)
          isDuplicate
      exact ⟨messageId, isPublished, keeps announces⟩

/-- A step beside the calls that tracks no new identifier. -/
theorem Attributed.of_same {broker : Broker} (attributed : broker.Attributed)
    {shared : ServerState}
    (statuses : ∀ messageId, (shared.messageStatus messageId).isSome = true →
      (broker.shared.messageStatus messageId).isSome = true) :
    Attributed { broker with shared := shared } where
  tracked messageId tracked :=
    attributed.tracked messageId (statuses messageId tracked)
  duplicates := attributed.duplicates

theorem Attributed.step {before after : Broker} {event : Event}
    (attributed : before.Attributed)
    (stepTo : before.step event = some after) : after.Attributed := by
  rcases step_cases stepTo with ⟨invocation, -, rfl⟩ |
    ⟨index, reading, call, -, found, running, rfl⟩ |
    ⟨messageId, reading, -, rfl⟩ | ⟨channel, -, rfl⟩ | ⟨index, -, rfl⟩ |
    ⟨connectedClients, storage, -, rfl⟩
  · have keeps : ∀ {messageId}, before.Announces messageId →
        Announces { before with
          calls := before.calls ++ [invocation.start] } messageId := by
      rintro messageId ⟨call, isMember, announces⟩
      exact ⟨call, List.mem_append_left _ isMember, announces⟩
    constructor
    · intro messageId tracked
      exact keeps (attributed.tracked messageId tracked)
    · intro call isMember isDuplicate
      rcases List.mem_append.mp isMember with old | isNew
      · obtain ⟨messageId, isPublished, announces⟩ :=
          attributed.duplicates call old isDuplicate
        exact ⟨messageId, isPublished, keeps announces⟩
      · rw [List.mem_singleton.mp isNew] at isDuplicate
        cases invocation <;> cases isDuplicate
  · exact attributed.advance found running reading
  · apply attributed.of_same
    intro other tracked
    obtain ⟨messageStatus, storage, marked, sameStatus⟩ :=
      before.shared.markDelivered_frame messageId reading.now reading.time
    rw [marked] at tracked
    have same := congrArg Option.isSome (sameStatus other)
    rw [Option.isSome_map, Option.isSome_map] at same
    rwa [← same]
  · apply attributed.of_same
    intro other tracked
    exact tracked
  · apply attributed.of_same
    intro other tracked
    obtain ⟨channels, deliveryTasks, ran⟩ :=
      before.shared.runDeliveryTask_frame index
    rwa [ran] at tracked
  · apply attributed.of_same
    intro other tracked
    exact tracked

theorem attributed_of_reachable {maxQueueSize : Nat} {broker : Broker}
    (reached : Reachable step (new maxQueueSize) broker) :
    broker.Attributed := by
  apply reached.invariant Attributed (attributed_new maxQueueSize)
  intro before event after attributed _ stepTo
  exact attributed.step stepTo

/-! ## The messages of senders -/

open Sender

/-- The publishes of the broker are about messages that senders have made. -/
def MadeBySenders (broker : Broker)
    (made : PublishRequest → PlainMessage × String) : Prop :=
  ∀ request point, Call.publish request point ∈ broker.calls →
    request.message.messageId =
        messageIdOf (made request).1 (made request).2 ∧
      IsCorrelationId (made request).1.correlationId

/-- A refused duplicate has the parts of a message that was published, when no
identifier can be read in two ways. -/
theorem sameParts_of_isDuplicate {maxQueueSize : Nat} {broker : Broker}
    (reached : Reachable step (new maxQueueSize) broker)
    {made : PublishRequest → PlainMessage × String}
    (isMade : broker.MadeBySenders made) {request : PublishRequest}
    {point : PublishPoint}
    (isCall : Call.publish request point ∈ broker.calls)
    (isDuplicate : (Call.publish request point).isDuplicate = true)
    (apart : ∀ other point, Call.publish other point ∈ broker.calls →
      ¬ Overlaps (made other) (made request) ∧
        ¬ Overlaps (made request) (made other)) :
    ∃ other point, Call.publish other point ∈ broker.calls ∧
      (Call.publish other point).recorded = true ∧
      SameParts (made other) (made request) := by
  obtain ⟨messageId, isPublished, announced, isMember, isRecorded,
      isAnnounced⟩ :=
    (attributed_of_reachable reached).duplicates _ isCall isDuplicate
  cases isPublished
  cases announced with
  | publish other otherPoint =>
      have isOther := isMade other otherPoint isMember
      have isRequest := isMade request point isCall
      have sameId : messageIdOf (made other).1 (made other).2 =
          messageIdOf (made request).1 (made request).2 := by
        rw [← isOther.1, ← isRequest.1]
        exact Option.some.inj isAnnounced
      have notOverlaps := apart other otherPoint isMember
      rcases (messageIdOf_eq_iff isOther.2 isRequest.2).mp sameId with
        same | overlaps | overlaps
      · exact ⟨other, otherPoint, isMember, isRecorded, same⟩
      · exact absurd overlaps notOverlaps.1
      · exact absurd overlaps notOverlaps.2
  | _ => cases isAnnounced

/-- Equal identifiers mean equal parts exactly if neither of them can be read
in two ways.  Where that does not happen, a publish is refused as a duplicate
only if a message with the same parts was published. -/
theorem message_ids_identify {first second : PlainMessage × String}
    (isFirst : IsCorrelationId first.1.correlationId)
    (isSecond : IsCorrelationId second.1.correlationId) :
    ((messageIdOf first.1 first.2 = messageIdOf second.1 second.2 →
        SameParts first second) ↔
      ¬ Overlaps first second ∧ ¬ Overlaps second first) ∧
    (∀ (maxQueueSize : Nat) (broker : Broker),
      Reachable step (new maxQueueSize) broker →
      ∀ made : PublishRequest → PlainMessage × String,
        broker.MadeBySenders made →
      ∀ (request : PublishRequest) (point : PublishPoint),
        Call.publish request point ∈ broker.calls →
        (Call.publish request point).isDuplicate = true →
        (∀ other point, Call.publish other point ∈ broker.calls →
          ¬ Overlaps (made other) (made request) ∧
            ¬ Overlaps (made request) (made other)) →
          ∃ other point, Call.publish other point ∈ broker.calls ∧
            (Call.publish other point).recorded = true ∧
            SameParts (made other) (made request)) :=
  ⟨sameParts_of_eq_iff isFirst isSecond,
    fun _ _ reached _ isMade _ _ isCall isDuplicate apart =>
      sameParts_of_isDuplicate reached isMade isCall isDuplicate apart⟩

def repeated : PlainMessage × String :=
  (⟨"deadbeef", "sender_1", "Hello"⟩, "receiver_1")

def different : PlainMessage × String :=
  (⟨"12345678", "sender_1", "Hello"⟩, "receiver_2")

def publicationOf (message : PlainMessage × String) : PublishRequest :=
  sampleRequest (messageIdOf message.1 message.2) "sender_1"

def madeFor (request : PublishRequest) : PlainMessage × String :=
  if request = publicationOf repeated then repeated else different

/-- Both messages are published, and `repeated` once more. -/
def repeatingRun : List Event :=
  boundQueue ++
    .invoke (.publish (publicationOf repeated)) :: accesses 3 8 ++
    .invoke (.publish (publicationOf different)) :: accesses 4 8 ++
    .invoke (.publish (publicationOf repeated)) :: accesses 5 1

def refusal : Call :=
  .publish (publicationOf repeated) (.returned (.error
    "Duplicate message sender_1-deadbeef-receiver_1 ignored"))

theorem message_ids_identify_sample :
    ¬ Overlaps repeated different ∧ ¬ Overlaps different repeated ∧
    ∃ broker, Reachable step (new 10) broker ∧ refusal ∈ broker.calls ∧
      ∃ other point, Call.publish other point ∈ broker.calls ∧
        (Call.publish other point).recorded = true ∧
        SameParts (madeFor other) repeated := by
  have ran : (executeWhile step (fun _ _ => True) (new 10)
      repeatingRun).map Broker.calls =
      some [.declareQueue "q" .returned, .declareExchange "e" .returned,
        .bindQueue "q" "e" "k" .returned,
        .publish (publicationOf repeated) (.returned (.ok ())),
        .publish (publicationOf different) (.returned (.ok ())),
        refusal] := by
    decide +kernel
  obtain ⟨broker, reached, calls⟩ := exists_reachableWhile_of_map ran
  have isFirst : IsCorrelationId repeated.1.correlationId := by decide
  have isSecond : IsCorrelationId different.1.correlationId := by decide
  obtain ⟨identifies, refuses⟩ := message_ids_identify isFirst isSecond
  have apart := identifies.mp fun same => absurd same (by decide)
  have isMade : broker.MadeBySenders madeFor := by
    intro request point isCall
    simp only [calls, refusal, List.mem_cons, List.not_mem_nil, or_false,
      reduceCtorEq, false_or, Call.publish.injEq] at isCall
    rcases isCall with ⟨rfl, -⟩ | ⟨rfl, -⟩ | ⟨rfl, -⟩ <;> decide
  have isRefused : refusal ∈ broker.calls := by simp [calls]
  refine ⟨apart.1, apart.2, broker, reached, isRefused, ?_⟩
  refine refuses 10 broker reached madeFor isMade _ _ isRefused (by decide) ?_
  intro other point isCall
  rw [show madeFor (publicationOf repeated) = repeated from if_pos rfl]
  by_cases same : other = publicationOf repeated
  · rw [madeFor, if_pos same]
    exact and_self_iff.mpr fun overlaps => overlaps.sender_ne rfl
  · rw [madeFor, if_neg same]
    exact apart.symm

/-- A message of the sender `a` to `12345678-b`. -/
def shortSender : PlainMessage × String :=
  (⟨"deadbeef", "a", "Hello"⟩, "12345678-b")

/-- A message of the sender `a-deadbeef` to `b`. -/
def longSender : PlainMessage × String :=
  (⟨"12345678", "a-deadbeef", "Hello"⟩, "b")

def overlappingPublishes : Broker :=
  publishing (ServerState.after 10 ServerState.singleQueue)
    [sampleRequest (messageIdOf shortSender.1 shortSender.2) "a",
      sampleRequest (messageIdOf longSender.1 longSender.2) "a-deadbeef"]

/-- The two messages have one identifier, and the second is refused. -/
theorem isDuplicate_overlappingPublishes :
    IsCorrelationId shortSender.1.correlationId ∧
    IsCorrelationId longSender.1.correlationId ∧
    shortSender.1.senderId ≠ longSender.1.senderId ∧
    shortSender.2 ≠ longSender.2 ∧
    messageIdOf shortSender.1 shortSender.2 =
      messageIdOf longSender.1 longSender.2 ∧
    ∃ broker, Reachable step overlappingPublishes broker ∧
      broker.calls.map Call.succeeded = [true, false] ∧
      broker.calls.map Call.isDuplicate = [false, true] := by
  have ran : ((executeWhile step (fun _ _ => True) overlappingPublishes
      (accesses 0 8 ++ accesses 1 1)).map fun broker =>
        (broker.calls.map Call.succeeded,
          broker.calls.map Call.isDuplicate)) =
      some ([true, false], [false, true]) := by
    decide +kernel
  obtain ⟨broker, reached, result⟩ := exists_reachableWhile_of_map ran
  simp only [Prod.mk.injEq] at result
  exact ⟨by decide, by decide, by decide, by decide, by decide, broker,
    reached, result.1, result.2⟩

end Broker

end CipherMQ
