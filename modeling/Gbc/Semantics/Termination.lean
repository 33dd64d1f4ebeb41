import Mathlib.Order.WellFounded
import Gbc.Semantics.Machine

/-!
# What a machine comes to

The runs whose every step passes a test, taken as far as they go. `Inevitably` says that
all of them end, and what holds where they do.
-/

namespace Gbc.Machine

variable {m : Machine} {test : m.State → m.Event → Bool} {holds : m.State → Prop}
  {state : m.State}

/-- No event that passes the test can happen. -/
def Settled (m : Machine) (test : m.State → m.Event → Bool) (state : m.State) : Prop :=
  ∀ event, test state event = true → m.step state event = none

/-- Whatever happens among the events that pass the test comes to an end, and the state is
then one of these. -/
inductive Inevitably (m : Machine) (test : m.State → m.Event → Bool) (holds : m.State → Prop) :
    m.State → Prop where
  | intro {state : m.State} (ends : m.Settled test state → holds state)
      (goesOn : ∀ event next, test state event = true → m.step state event = some next →
        Inevitably m test holds next) : Inevitably m test holds state

/-- The events that pass the test can only happen finitely often in a row. -/
abbrev Terminates (m : Machine) (test : m.State → m.Event → Bool) : Prop :=
  WellFounded fun later earlier : m.State =>
    ∃ event, test earlier event = true ∧ m.step earlier event = some later

/-- A machine that terminates comes to what holds of all settled states it reaches. -/
theorem Terminates.inevitably (terminates : m.Terminates test)
    (ends : ∀ later, m.Reaches test state later → m.Settled test later → holds later) :
    m.Inevitably test holds state := by
  induction state using terminates.induction with
  | _ state inductionHypothesis =>
      refine .intro (ends state .refl) fun event next passes taken => ?_
      refine inductionHypothesis next ⟨event, passes, taken⟩ fun later reached => ends later ?_
      exact (Reachable.step .refl passes taken).trans reached

end Gbc.Machine
