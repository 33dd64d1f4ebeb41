import Gbc.Semantics.Machine

/-!
# Refinement of machines

A machine is seen as another one when each of its steps shows a list of events which
the other can take. The events that a run has shown are kept beside its state, so a
result about runs of the abstract machine reads as one about the runs of the concrete
one.
-/

namespace Gbc.Machine

variable {m abstract : Machine}

/-- Two schedules are replayed one after the other. -/
theorem runWhile_append {test : m.State → m.Event → Bool} (first second : List m.Event)
    (start : m.State) :
    m.runWhile test start (first ++ second) =
      (m.runWhile test start first).bind fun middle => m.runWhile test middle second := by
  induction first generalizing start with
  | nil => rfl
  | cons event first inductionHypothesis =>
      simp only [List.cons_append, runWhile]
      split
      · rw [Option.bind_assoc]
        exact congrArg _ (funext inductionHypothesis)
      · rfl

/-- How a machine is seen as another: the events that a step shows, and the states that
stand for each other. -/
structure View (m abstract : Machine) where
  shows : m.State → m.Event → List abstract.Event
  related : m.State → abstract.State → Prop

namespace View

/-- The machine with the events that its run has shown. -/
abbrev traced (view : View m abstract) : Machine :=
  m.noting fun state event trace => trace ++ view.shows state event

/-- What every guarded step shows can be taken. -/
def Sound (view : View m abstract) (guard : m.Guard) (start : m.State) : Prop :=
  ∀ {state next event above}, Reachable guard start state → guard state event →
    m.step state event = some next → view.related state above →
    ∃ after, abstract.runWhile abstract.anyStep above (view.shows state event) = some after ∧
      view.related next after

/-- The state is reached by guarded steps, and what these have shown is a run that ends in
a state which stands for it. -/
structure Stands (view : View m abstract) (guard : m.Guard) (start : m.State)
    (above : abstract.State) (noted : m.State × List abstract.Event) : Prop where
  reached : Reachable guard start noted.1
  shown : ∃ after, abstract.runWhile abstract.anyStep above noted.2 = some after ∧
    view.related noted.1 after

variable {view : View m abstract} {guard : m.Guard} {start : m.State}

/-- What a run has shown is a run of the abstract machine, which ends in a state that
stands for the one reached. -/
theorem Sound.run (sound : view.Sound guard start) {above : abstract.State}
    (opened : view.related start above) {noted : m.State × List abstract.Event}
    (reached : Reachable (m := view.traced) (fun noted event => guard noted.1 event)
      (start, []) noted) :
    view.Stands guard start above noted := by
  refine reached.invariant ⟨.refl, above, rfl, opened⟩ ?_
  rintro noted event next ⟨prior, middle, shown, stands⟩ meets taken
  obtain ⟨stepped, extended⟩ := noting_step.mp taken
  obtain ⟨after, further, related⟩ := sound prior meets stepped stands
  refine ⟨.step prior meets stepped, after, ?_, related⟩
  rw [← extended, runWhile_append, shown]
  exact further

end View

end Gbc.Machine
