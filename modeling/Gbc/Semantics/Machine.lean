import Mathlib.Tactic.Basic

/-!
# Partial step machines

`Machine.step` is a partial function, so a run is computed from its events and
`runWhile` can replay a concrete schedule. `Machine.Reachable` collects the states
of all runs whose every step meets a guard, `Machine.Reaches` those of the runs
whose every step passes a test; `anyStep` gives the plain reachable states. A note of
what happened is kept beside the state by `Machine.noting`.
-/

namespace Gbc

/-- A labelled transition system with a computable, partial step function. -/
structure Machine where
  State : Type
  Event : Type
  step : State → Event → Option State

namespace Machine

variable {m : Machine}

/-- A condition on steps, stated about the state before the step and its event. -/
abbrev Guard (m : Machine) := m.State → m.Event → Prop

/-- The states reached from `start` by runs whose every step meets `guard`. -/
inductive Reachable (guard : m.Guard) (start : m.State) : m.State → Prop where
  | refl : Reachable guard start start
  | step {state next : m.State} {event : m.Event}
      (prior : Reachable guard start state) (meets : guard state event)
      (taken : m.step state event = some next) : Reachable guard start next

namespace Reachable

variable {guard weaker : m.Guard} {start middle state : m.State}

/-- Runs compose when the second starts where the first ended. -/
theorem trans (first : Reachable guard start middle) (second : Reachable guard middle state) :
    Reachable guard start state := by
  induction second with
  | refl => exact first
  | step _ meets taken inductionHypothesis => exact .step inductionHypothesis meets taken

/-- A run under a guard is a run under every weaker guard. -/
theorem weaken (implied : ∀ state event, guard state event → weaker state event)
    (reached : Reachable guard start state) : Reachable weaker start state := by
  induction reached with
  | refl => exact .refl
  | step _ meets taken inductionHypothesis =>
      exact .step inductionHypothesis (implied _ _ meets) taken

/-- As `weaken`, where the weaker guard may rest on what holds of reachable states. -/
theorem weakenWith
    (implied : ∀ {state event next}, Reachable guard start state → guard state event →
      m.step state event = some next → weaker state event)
    (reached : Reachable guard start state) : Reachable weaker start state := by
  induction reached with
  | refl => exact .refl
  | step prior meets taken inductionHypothesis =>
      exact .step inductionHypothesis (implied prior meets taken) taken

/-- A property of the start which every guarded step preserves holds in every
state reached. -/
theorem invariant {holds : m.State → Prop} (initial : holds start)
    (preserved : ∀ {state event next}, holds state → guard state event →
      m.step state event = some next → holds next)
    (reached : Reachable guard start state) : holds state := by
  induction reached with
  | refl => exact initial
  | step _ meets taken inductionHypothesis => exact preserved inductionHypothesis meets taken

/-- As `invariant`, where the step may also use that its target is reachable. -/
theorem invariantWith {holds : m.State → Prop} (initial : holds start)
    (preserved : ∀ {state event next}, Reachable guard start next → holds state →
      guard state event → m.step state event = some next → holds next)
    (reached : Reachable guard start state) : holds state := by
  induction reached with
  | refl => exact initial
  | step prior meets taken inductionHypothesis =>
      exact preserved (.step prior meets taken) inductionHypothesis meets taken

end Reachable

/-- The states of the runs whose every step passes `test`. -/
abbrev Reaches (m : Machine) (test : m.State → m.Event → Bool) (start state : m.State) : Prop :=
  Reachable (fun state event => test state event = true) start state

/-- The test that every step passes. -/
def anyStep (m : Machine) : m.State → m.Event → Bool := fun _ _ => true

/-- Replay a schedule, failing also at the first step that does not pass `test`. -/
def runWhile (m : Machine) (test : m.State → m.Event → Bool) :
    m.State → List m.Event → Option m.State
  | state, [] => some state
  | state, event :: events =>
      if test state event then
        (m.step state event).bind fun next => m.runWhile test next events
      else none

theorem runWhile_cons_of_step {start next : m.State} {event : m.Event}
    (taken : m.step start event = some next) (events : List m.Event) :
    m.runWhile m.anyStep start (event :: events) = m.runWhile m.anyStep next events := by
  simp [runWhile, anyStep, taken]

/-- The end of a replayed schedule is reachable by tested steps. -/
theorem reaches_of_runWhile {test : m.State → m.Event → Bool} {start state : m.State}
    {events : List m.Event} (replayed : m.runWhile test start events = some state) :
    m.Reaches test start state := by
  induction events generalizing start with
  | nil => cases replayed; exact .refl
  | cons event events inductionHypothesis =>
      simp only [runWhile, Option.ite_none_right_eq_some] at replayed
      obtain ⟨next, taken, rest⟩ := Option.bind_eq_some_iff.mp replayed.2
      exact (Reachable.step .refl replayed.1 taken).trans (inductionHypothesis rest)

/-- A schedule that ends in a state with a checked property reaches such a state. -/
theorem exists_reaches (test : m.State → m.Event → Bool) (start : m.State)
    (events : List m.Event) (check : m.State → Bool)
    (succeeds : (m.runWhile test start events).any check = true) :
    ∃ state, m.Reaches test start state ∧ check state = true := by
  cases replayed : m.runWhile test start events with
  | none => rw [replayed] at succeeds; cases succeeds
  | some state =>
      rw [replayed] at succeeds
      exact ⟨state, reaches_of_runWhile replayed, succeeds⟩

/-- Two schedules in a row that end in states with a checked relation reach such states. -/
theorem exists_reaches_later (test : m.State → m.Event → Bool) (start : m.State)
    (first second : List m.Event) (check : m.State → m.State → Bool)
    (succeeds : ((m.runWhile test start first).any fun before =>
      (m.runWhile test before second).any (check before)) = true) :
    ∃ before state, m.Reaches test start before ∧ m.Reaches test before state ∧
      check before state = true := by
  cases replayed : m.runWhile test start first with
  | none => rw [replayed] at succeeds; cases succeeds
  | some before =>
      rw [replayed] at succeeds
      obtain ⟨state, reached, checked⟩ :=
        exists_reaches test before second (check before) succeeds
      exact ⟨before, state, reaches_of_runWhile replayed, reached, checked⟩

/-- A machine with a note that is kept of its steps. -/
def noting {Note : Type} (m : Machine) (note : m.State → m.Event → Note → Note) : Machine where
  State := m.State × Note
  Event := m.Event
  step state event :=
    (m.step state.1 event).map fun next => (next, note state.1 event state.2)

section Noting

variable {Note : Type} {note : m.State → m.Event → Note → Note}

theorem noting_step {state next : m.State × Note} {event : m.Event} :
    (m.noting note).step state event = some next ↔
      m.step state.1 event = some next.1 ∧ note state.1 event state.2 = next.2 := by
  constructor
  · intro taken
    obtain ⟨later, reached, rfl⟩ := Option.map_eq_some_iff.mp taken
    exact ⟨reached, rfl⟩
  · rintro ⟨taken, noted⟩
    exact Option.map_eq_some_iff.mpr ⟨next.1, taken, Prod.ext rfl noted⟩

end Noting

/-- A machine with the events that have led to each state, newest first. -/
abbrev recording (m : Machine) : Machine := m.noting fun _ event events => event :: events

/-- A property of the events and the state which every step preserves holds of every state
reached. -/
theorem Reachable.recorded {guard : m.recording.Guard} {start state : m.State}
    {events : List m.Event} {holds : List m.Event → m.State → Prop} (initial : holds [] start)
    (preserved : ∀ events state event next, holds events state → m.step state event = some next →
      holds (event :: events) next)
    (reached : m.recording.Reachable guard (start, []) (state, events)) : holds events state := by
  refine @Reachable.invariant m.recording guard (start, []) (state, events)
    (fun recorded => holds recorded.2 recorded.1) initial ?_ reached
  intro recorded event next held _ taken
  obtain ⟨stepped, noted⟩ := noting_step.mp taken
  rw [← noted]
  exact preserved _ _ _ _ held stepped

/-- A recorded run is a run. -/
theorem Reachable.unrecorded {start state : m.State} {events : List m.Event}
    (reached : m.recording.Reaches m.recording.anyStep (start, []) (state, events)) :
    m.Reaches m.anyStep start state := by
  let holds (_ : List m.Event) (state : m.State) : Prop := m.Reaches m.anyStep start state
  have opened : holds [] start := .refl
  exact reached.recorded opened fun _ _ _ _ prior taken => .step prior rfl taken

/-- Every run can be recorded. -/
theorem Reachable.exists_recorded {start state : m.State}
    (reached : m.Reaches m.anyStep start state) :
    ∃ events, m.recording.Reaches m.recording.anyStep (start, []) (state, events) := by
  induction reached with
  | refl => exact ⟨[], .refl⟩
  | @step state next event _ _ taken inductionHypothesis =>
      obtain ⟨events, recorded⟩ := inductionHypothesis
      exact ⟨event :: events, recorded.step rfl (noting_step.mpr ⟨taken, rfl⟩)⟩

/-- A replayed schedule whose every step makes a measure smaller is no longer than it. -/
theorem length_le_of_runWhile {test : m.State → m.Event → Bool} {measure : m.State → Nat}
    (decreases : ∀ state event next, test state event = true → m.step state event = some next →
      measure next < measure state)
    {start state : m.State} {events : List m.Event}
    (replayed : m.runWhile test start events = some state) :
    events.length + measure state ≤ measure start := by
  induction events generalizing start with
  | nil =>
      cases replayed
      exact Nat.le_of_eq (Nat.zero_add _)
  | cons event events inductionHypothesis =>
      simp only [runWhile, Option.ite_none_right_eq_some] at replayed
      obtain ⟨next, taken, rest⟩ := Option.bind_eq_some_iff.mp replayed.2
      have smaller := decreases start event next replayed.1 taken
      have bounded := inductionHypothesis rest
      rw [List.length_cons]
      omega

end Machine

end Gbc
