import Mathlib.Algebra.BigOperators.Group.List.Basic
import Mathlib.Algebra.Order.Ring.Nat
import Mathlib.Data.List.Infix

/-!
# Runs of event-driven systems

A system is given by a partial step function on labelled events; an event that
is not enabled has no successor.  Runs are finite event sequences.  Two rules
carry the results about whole runs: an invariant kept by every allowed step
holds in every state reached by allowed steps, and an invariant which each
step preserves exactly when it meets a condition holds along a whole run
exactly when every step of the run meets that condition.

What a run has done so far can be kept in a ledger beside the state, which the
steps of the system do not look at.
-/

namespace CipherMQ

section Partial

variable {State Event : Type*} (step : State → Event → Option State)

/-- The states reached from `initial` when every step is `allowed` in the
state in which it is taken. -/
inductive ReachableWhile (allowed : State → Event → Prop)
    (initial : State) : State → Prop
  | start : ReachableWhile allowed initial initial
  | next {before after : State} (event : Event) :
      ReachableWhile allowed initial before →
        allowed before event →
          step before event = some after →
            ReachableWhile allowed initial after

/-- The states reached from `initial` by any run. -/
def Reachable (initial : State) : State → Prop :=
  ReachableWhile step (fun _ _ => True) initial

/-- Take the events of a run one after the other, failing at the first event
that is not allowed or not enabled. -/
def executeWhile (allowed : State → Event → Prop)
    [∀ state event, Decidable (allowed state event)] :
    State → List Event → Option State
  | state, [] => some state
  | state, event :: events =>
      if allowed state event then
        match step state event with
        | some next => executeWhile allowed next events
        | none => none
      else
        none

variable {step}

namespace ReachableWhile

variable {allowed : State → Event → Prop} {initial final : State}

/-- An invariant of the initial state that every allowed step keeps holds in
every state reached by allowed steps. -/
theorem invariant (property : State → Prop)
    (holds : property initial)
    (keeps : ∀ before event after, property before → allowed before event →
      step before event = some after → property after)
    (reached : ReachableWhile step allowed initial final) :
    property final := by
  induction reached with
  | start => exact holds
  | next event _ permitted stepTo ih =>
      exact keeps _ event _ ih permitted stepTo

/-- When a step keeps the property exactly if it is allowed, the property
holds in every state reached by allowed steps, and is lost at the first step
that is not.  `support` collects what every step keeps. -/
theorem exact_invariant {property : State → Prop} (support : State → Prop)
    (holds : property initial) (supported : support initial)
    (keepsSupport : ∀ before event after, support before →
      step before event = some after → support after)
    (exact_step : ∀ before event after, support before → property before →
      step before event = some after →
        (property after ↔ allowed before event))
    (reached : ReachableWhile step allowed initial final) :
    property final ∧ ∀ event after, step final event = some after →
      (property after ↔ allowed final event) := by
  have both : property final ∧ support final := by
    refine reached.invariant (fun state => property state ∧ support state)
      ⟨holds, supported⟩ ?_
    rintro before event after ⟨held, known⟩ permitted stepTo
    exact ⟨(exact_step before event after known held stepTo).mpr permitted,
      keepsSupport before event after known stepTo⟩
  exact ⟨both.1, fun event after stepTo =>
    exact_step final event after both.2 both.1 stepTo⟩

theorem single {before after : State} (event : Event)
    (permitted : allowed before event)
    (stepTo : step before event = some after) :
    ReachableWhile step allowed before after :=
  .next event .start permitted stepTo

theorem mono {weaker : State → Event → Prop}
    (weaken : ∀ state event, allowed state event → weaker state event)
    (reached : ReachableWhile step allowed initial final) :
    ReachableWhile step weaker initial final := by
  induction reached with
  | start => exact .start
  | next event _ permitted stepTo ih =>
      exact .next event ih (weaken _ _ permitted) stepTo

theorem trans {middle : State}
    (first : ReachableWhile step allowed initial middle)
    (second : ReachableWhile step allowed middle final) :
    ReachableWhile step allowed initial final := by
  induction second with
  | start => exact first
  | next event _ permitted stepTo ih => exact .next event ih permitted stepTo

/-- A run is followed by a run of another system if every allowed step either
is an allowed step there or leaves the related state as it is. -/
theorem simulate {View ViewEvent : Type*}
    {viewStep : View → ViewEvent → Option View}
    {viewAllowed : View → ViewEvent → Prop} {viewInitial : View}
    (related : State → View → Prop) (starts : related initial viewInitial)
    (follows : ∀ before event after view, related before view →
      allowed before event → step before event = some after →
        ∃ following, related after following ∧
          (following = view ∨ ∃ viewEvent, viewAllowed view viewEvent ∧
            viewStep view viewEvent = some following))
    (reached : ReachableWhile step allowed initial final) :
    ∃ view, related final view ∧
      ReachableWhile viewStep viewAllowed viewInitial view := by
  induction reached with
  | start => exact ⟨viewInitial, starts, .start⟩
  | next event _ permitted stepTo ih =>
      obtain ⟨view, isRelated, viewReached⟩ := ih
      obtain ⟨following, stays, rfl | ⟨viewEvent, viewPermitted, viewStepTo⟩⟩ :=
        follows _ event _ view isRelated permitted stepTo
      · exact ⟨following, stays, viewReached⟩
      · exact ⟨following, stays,
          .next viewEvent viewReached viewPermitted viewStepTo⟩

end ReachableWhile

/-- A run that can be executed reaches its final state. -/
theorem reachableWhile_of_executeWhile {allowed : State → Event → Prop}
    [∀ state event, Decidable (allowed state event)]
    {initial final : State} {events : List Event}
    (ran : executeWhile step allowed initial events = some final) :
    ReachableWhile step allowed initial final := by
  induction events generalizing initial with
  | nil =>
      cases ran
      exact .start
  | cons event events ih =>
      simp only [executeWhile] at ran
      split at ran
      · rename_i permitted
        split at ran
        · rename_i next stepTo
          have first := ReachableWhile.single event permitted stepTo
          exact first.trans (ih ran)
        · cases ran
      · cases ran

/-- What an executed run is seen to end with holds of a reached state. -/
theorem exists_reachableWhile_of_map {allowed : State → Event → Prop}
    [∀ state event, Decidable (allowed state event)] {initial : State}
    {events : List Event} {Result : Type*} {view : State → Result}
    {result : Result}
    (ran : (executeWhile step allowed initial events).map view =
      some result) :
    ∃ final, ReachableWhile step allowed initial final ∧
      view final = result := by
  obtain ⟨final, executed, seen⟩ := Option.map_eq_some_iff.mp ran
  exact ⟨final, reachableWhile_of_executeWhile executed, seen⟩

end Partial

/-- A system with a ledger kept beside it. -/
structure Recorded (State Ledger : Type*) where
  state : State
  ledger : Ledger

namespace Recorded

variable {State Event Ledger : Type*} {inner : State → Event → Option State}
  {note : State → Event → Ledger → Ledger}

def step (inner : State → Event → Option State)
    (note : State → Event → Ledger → Ledger)
    (before : Recorded State Ledger) (event : Event) :
    Option (Recorded State Ledger) :=
  (inner before.state event).map fun after =>
    ⟨after, note before.state event before.ledger⟩

theorem step_cases {before after : Recorded State Ledger} {event : Event}
    (stepTo : step inner note before event = some after) :
    inner before.state event = some after.state ∧
      after.ledger = note before.state event before.ledger := by
  obtain ⟨state, stepped, rfl⟩ := Option.map_eq_some_iff.mp stepTo
  exact ⟨stepped, rfl⟩

end Recorded

section Components

/-! The parties of a system are kept in a list: a new one is appended, and one
that moves is replaced at its position. -/

variable {Item : Type*} {items : List Item} {position : Nat} {item : Item}

theorem getElem?_append_kept (found : items[position]? = some item)
    (more : List Item) : (items ++ more)[position]? = some item := by
  obtain ⟨inRange, -⟩ := List.getElem?_eq_some_iff.mp found
  rw [List.getElem?_append_left inRange, found]

theorem getElem?_concat_cases {last : Item}
    (found : (items ++ [last])[position]? = some item) :
    items[position]? = some item ∨
      (position = items.length ∧ item = last) := by
  rcases Nat.lt_trichotomy position items.length with isOld | isLast | beyond
  · left
    rwa [List.getElem?_append_left isOld] at found
  · right
    subst isLast
    rw [List.getElem?_concat_length] at found
    exact ⟨rfl, (Option.some.inj found).symm⟩
  · rw [List.getElem?_eq_none (by simp; omega)] at found
    cases found

theorem getElem?_set_moved (found : items[position]? = some item)
    (next : Item) : (items.set position next)[position]? = some next := by
  rw [List.getElem?_set_self', found]
  rfl

theorem getElem?_set_cases {other : Nat} {next : Item}
    (found : (items.set position next)[other]? = some item) :
    (other = position ∧ item = next) ∨
      (other ≠ position ∧ items[other]? = some item) := by
  by_cases same : other = position
  · subst same
    left
    rw [List.getElem?_set_self'] at found
    cases old : items[other]? with
    | none => simp [old] at found
    | some _ =>
        simp only [old] at found
        exact ⟨rfl, (Option.some.inj found).symm⟩
  · right
    rw [List.getElem?_set_ne (Ne.symm same)] at found
    exact ⟨same, found⟩

/-- A total over all parties changes by what the moving one contributes. -/
theorem sum_map_set (weight : Item → Nat)
    (found : items[position]? = some item) (next : Item) :
    ((items.set position next).map weight).sum + weight item =
      (items.map weight).sum + weight next := by
  induction items generalizing position with
  | nil => simp at found
  | cons first rest ih =>
      cases position with
      | zero =>
          simp only [List.getElem?_cons_zero, Option.some.injEq] at found
          subst found
          simp only [List.set_cons_zero, List.map_cons, List.sum_cons]
          omega
      | succ position =>
          simp only [List.getElem?_cons_succ] at found
          have later := ih found
          simp only [List.set_cons_succ, List.map_cons, List.sum_cons]
          omega

end Components

section Total

variable {State Event : Type*} (step : State → Event → State)

def runFrom (initial : State) (events : List Event) : State :=
  events.foldl step initial

variable {step}

@[simp]
theorem runFrom_nil (initial : State) : runFrom step initial [] = initial :=
  rfl

@[simp]
theorem runFrom_concat (initial : State) (events : List Event)
    (event : Event) :
    runFrom step initial (events ++ [event]) =
      step (runFrom step initial events) event := by
  simp [runFrom]

/-- An invariant that every step keeps holds after every run. -/
theorem runFrom_invariant (property : State → Prop) {initial : State}
    (holds : property initial)
    (keeps : ∀ state event, property state → property (step state event))
    (events : List Event) :
    property (runFrom step initial events) := by
  induction events using List.reverseRecOn with
  | nil => exact holds
  | append_singleton events event ih =>
      rw [runFrom_concat]
      exact keeps _ event ih

/-- Two systems that take the same events side by side. -/
theorem runFrom_pair {Other : Type*} (otherStep : Other → Event → Other)
    (initial : State) (other : Other) (events : List Event) :
    runFrom (fun both event => (step both.1 event, otherStep both.2 event))
        (initial, other) events =
      (runFrom step initial events, runFrom otherStep other events) := by
  induction events using List.reverseRecOn with
  | nil => rfl
  | append_singleton before event ih =>
      rw [runFrom_concat, ih, runFrom_concat, runFrom_concat]

/-- The steps of a run, by their positions. -/
theorem forall_prefix_iff_forall_take {condition : List Event → Event → Prop}
    (events : List Event) :
    (∀ before event, before ++ [event] <+: events → condition before event) ↔
      ∀ position : Fin events.length,
        condition (events.take position) (events.get position) := by
  constructor
  · intro all position
    apply all
    have isTake : events.take position ++ [events.get position] =
        events.take (position + 1) := by
      simp
    rw [isTake]
    exact List.take_prefix _ _
  · rintro all before event ⟨rest, rfl⟩
    have atEvent := all ⟨before.length, by simp⟩
    simpa using atEvent

/-- When a step keeps the property exactly if it meets `condition`, the
property holds in every state a run visits exactly if every step of the run
meets the condition.  `support` collects what is known of every state, and
`admitted` what is assumed of every step of the run. -/
theorem runFrom_forall_prefix_iff_of_admitted {property : State → Prop}
    (support : State → Prop) (admitted : State → Event → Prop)
    {condition : State → Event → Prop} {initial : State}
    (holds : property initial) (supported : support initial)
    (keepsSupport : ∀ state event, support state → admitted state event →
      support (step state event))
    (exact_step : ∀ state event, support state → admitted state event →
      property state → (property (step state event) ↔ condition state event))
    (events : List Event)
    (admits : ∀ before event, before ++ [event] <+: events →
      admitted (runFrom step initial before) event) :
    (∀ visited, visited <+: events →
        property (runFrom step initial visited)) ↔
      ∀ before event, before ++ [event] <+: events →
        condition (runFrom step initial before) event := by
  have supportedAt : ∀ visited, visited <+: events →
      support (runFrom step initial visited) := by
    intro visited isPrefix
    induction visited using List.reverseRecOn with
    | nil => exact supported
    | append_singleton before event ih =>
        rw [runFrom_concat]
        exact keepsSupport _ event (ih ((List.prefix_append _ _).trans isPrefix))
          (admits before event isPrefix)
  constructor
  · intro always before event isPrefix
    have earlier : before <+: events :=
      (List.prefix_append _ _).trans isPrefix
    have atAfter := always _ isPrefix
    rw [runFrom_concat] at atAfter
    exact (exact_step _ event (supportedAt before earlier)
      (admits before event isPrefix) (always before earlier)).mp atAfter
  · intro conditions visited isPrefix
    induction visited using List.reverseRecOn with
    | nil => exact holds
    | append_singleton before event ih =>
        have earlier : before <+: events :=
          (List.prefix_append _ _).trans isPrefix
        rw [runFrom_concat]
        exact (exact_step _ event (supportedAt before earlier)
          (admits before event isPrefix) (ih earlier)).mpr
          (conditions before event isPrefix)

/-- The same for runs whose steps are not restricted. -/
theorem runFrom_forall_prefix_iff {property : State → Prop}
    (support : State → Prop) {condition : State → Event → Prop}
    {initial : State}
    (holds : property initial) (supported : support initial)
    (keepsSupport : ∀ state event, support state → support (step state event))
    (exact_step : ∀ state event, support state → property state →
      (property (step state event) ↔ condition state event))
    (events : List Event) :
    (∀ visited, visited <+: events →
        property (runFrom step initial visited)) ↔
      ∀ before event, before ++ [event] <+: events →
        condition (runFrom step initial before) event :=
  runFrom_forall_prefix_iff_of_admitted support (fun _ _ => True) holds
    supported (fun state event supported _ => keepsSupport state event supported)
    (fun state event supported _ => exact_step state event supported) events
    (fun _ _ _ => trivial)

end Total

end CipherMQ
