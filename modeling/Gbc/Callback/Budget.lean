import Mathlib
import Gbc.Callback.History

/-!
# What operations cost and what answers yield

A budget says how much an operation costs, how much its answer yields, and how much an
object has left. If each handler body can afford the operations it starts, then in every run
the operations of an object have cost no more than their answers have yielded. The programs
here create no further objects.
-/

namespace Gbc.Callback

variable {I : Interface} {app : App I} {service : Service I}

/-- Costs of operations, yields of answers, and what an object has left. -/
structure Budget (app : App I) where
  cost : I.Request → Nat
  yield : Exchange I → Nat
  left : app.Object → Nat

namespace Budget

variable {budget : Budget app}

/-- With these means, a handler body can start its operations and leave its object with what
that has left. Completion handlers have what is left then and the yield of their answer. -/
def Affords (budget : Budget app) :
    Code I app.Object app.Fault → app.Object → Nat → Prop
  | .done, object, means => budget.left object ≤ means
  | .trap _, object, means => budget.left object ≤ means
  | .look next, object, means => Affords budget (next object) object means
  | .modify change next, object, means => Affords budget next (change object) means
  | .alert _ next, object, means => Affords budget next object means
  | .call request completion next, object, means =>
      (∀ response target, Affords budget (completion response) target
        (budget.left target + budget.yield ⟨request, response⟩)) ∧
      ∃ rest, means = budget.cost request + rest ∧ Affords budget next object rest
  | .present _ _, _, _ => False

/-- What the operations of an object have cost. -/
def spent (budget : Budget app) (index : Nat) (world : World app service) : Nat :=
  (world.pending.map fun pending =>
    if pending.past.entry.self = index then budget.cost pending.request else 0).sum +
  (world.acknowledged.map fun handled =>
    if handled.1.entry.self = index then budget.cost handled.2.request else 0).sum

/-- What their answers have yielded. -/
def earned (budget : Budget app) (index : Nat) (world : World app service) : Nat :=
  (world.acknowledged.map fun handled =>
    if handled.1.entry.self = index then budget.yield handled.2 else 0).sum

/-- What the object has left. -/
def leftOf (budget : Budget app) (index : Nat) (world : World app service) : Nat :=
  ((world.objects[index]?).map fun target => budget.left target.object).getD 0

/-- The outstanding completion handlers can afford what they start, for their own object. -/
def Covered (budget : Budget app) (world : World app service) : Prop :=
  ∀ pending ∈ world.pending, pending.self = pending.past.entry.self ∧
    ∀ response target, budget.Affords (pending.completion response) target
      (budget.left target + budget.yield ⟨pending.request, response⟩)

/-- Nothing is spent that has not been earned. -/
structure Balanced (budget : Budget app) (world : World app service) : Prop where
  covered : budget.Covered world
  balance : ∀ index, budget.spent index world + budget.leftOf index world ≤
    budget.earned index world

section Steps

open World

variable {world next : World app service} {event : Event app service}

/-- What a handler body that can afford its operations leaves of the accounts. -/
structure Settles (budget : Budget app) (place means : Nat) (world next : World app service) :
    Prop where
  covered : budget.Covered next
  earned : ∀ index, budget.earned index next = budget.earned index world
  others : ∀ index, index ≠ place → budget.spent index next = budget.spent index world ∧
    budget.leftOf index next = budget.leftOf index world
  own : budget.spent place next + budget.leftOf place next ≤ budget.spent place world + means

/-- An operation is paid when it starts. -/
theorem spent_call {self : Nat} {past : Past app} {request : I.Request}
    {completion : I.Response request → Code I app.Object app.Fault} (index : Nat) :
    budget.spent index
        { world with pending := world.pending ++ [⟨self, past, request, completion, none⟩] } =
      budget.spent index world +
        if past.entry.self = index then budget.cost request else 0 := by
  simp only [spent, List.map_append, List.map_cons, List.map_nil, List.sum_append, List.sum_cons,
    List.sum_nil]
  omega

theorem settles_exec {self means : Nat} {past : Past app} {code : Code I app.Object app.Fault}
    {target : Instance app} (affords : budget.Affords code target.object means)
    (own : past.entry.self = self) (placed : world.objects[self]? = some target)
    (covered : budget.Covered world) :
    budget.Settles self means world (exec self past code target world) := by
  have same : budget.leftOf self world = budget.left target.object := by simp [leftOf, placed]
  induction code generalizing target world means with
  | done =>
      refine ⟨covered, fun _ => rfl, fun _ _ => ⟨rfl, rfl⟩, ?_⟩
      exact Nat.add_le_add_left (same ▸ affords) _
  | trap fault =>
      refine ⟨covered, fun _ => rfl, fun _ _ => ⟨rfl, rfl⟩, ?_⟩
      exact Nat.add_le_add_left (same ▸ affords) _
  | look following inductionHypothesis =>
      exact inductionHypothesis _ affords placed covered same
  | modify change following inductionHypothesis =>
      have bound := (List.getElem?_eq_some_iff.mp placed).1
      let changed : Instance app := { target with object := change target.object }
      have settles : budget.Settles self means (world.setObject self changed)
          (exec self past following changed (world.setObject self changed)) :=
        inductionHypothesis affords (by simp [setObject, bound]) covered
          (by simp [leftOf, setObject, bound])
      refine ⟨settles.covered, settles.earned, fun index other => ?_, settles.own⟩
      refine ⟨(settles.others index other).1, (settles.others index other).2.trans ?_⟩
      simp [leftOf, setObject, List.getElem?_set_ne (Ne.symm other)]
  | alert title following inductionHypothesis =>
      have settles : budget.Settles self means
          { world with alerts := (past, title) :: world.alerts }
          (exec self past following target
            { world with alerts := (past, title) :: world.alerts }) :=
        inductionHypothesis affords placed covered same
      exact ⟨settles.covered, settles.earned, settles.others, settles.own⟩
  | call request completion following _ inductionHypothesis =>
      obtain ⟨later, rest, rfl, affords⟩ := affords
      let started : World app service :=
        { world with pending := world.pending ++ [⟨self, past, request, completion, none⟩] }
      have settles : budget.Settles self rest started
          (exec self past following target started) := by
        refine inductionHypothesis affords placed (fun pending member => ?_) same
        rcases List.mem_append.mp member with older | added
        · exact covered pending older
        · obtain rfl := List.mem_singleton.mp added
          exact ⟨own.symm, later⟩
      refine ⟨settles.covered, settles.earned, fun index other => ⟨?_, ?_⟩, ?_⟩
      · rw [exec, (settles.others index other).1, spent_call, own, if_neg (Ne.symm other)]
        rfl
      · exact (settles.others index other).2
      · have paid : budget.spent self started =
            budget.spent self world + budget.cost request := by rw [spent_call, if_pos own]
        have total := settles.own
        rw [paid, Nat.add_assoc] at total
        exact total
  | present object start => exact affords.elim

/-- An answered operation costs what it did. -/
theorem spent_served {place self : Nat} {past : Past app} {request : I.Request}
    {completion : I.Response request → Code I app.Object app.Fault} {later : service.State}
    {response : I.Response request}
    (found : world.pending[place]? = some ⟨self, past, request, completion, none⟩) (index : Nat) :
    budget.spent index { world with
        server := later
        pending := world.pending.set place ⟨self, past, request, completion, some response⟩ } =
      budget.spent index world := by
  obtain ⟨before, after⟩ := perm_of_getElem? found (.refl _)
  let cost : Pending app → Nat := fun pending =>
    if pending.past.entry.self = index then budget.cost pending.request else 0
  have same := (((after ⟨self, past, request, completion, some response⟩).map cost).trans
    (before.map cost).symm).sum_nat
  simp only [spent]
  rw [same]

/-- A handled operation costs what it did. -/
theorem spent_completed {place self : Nat} {past : Past app} {request : I.Request}
    {completion : I.Response request → Code I app.Object app.Fault}
    {response : I.Response request}
    (found : world.pending[place]? = some ⟨self, past, request, completion, some response⟩)
    (index : Nat) :
    budget.spent index { world with
        pending := world.pending.eraseIdx place
        acknowledged := (past, ⟨request, response⟩) :: world.acknowledged } =
      budget.spent index world := by
  obtain ⟨before, -⟩ := perm_of_getElem? found (.refl _)
  have same := (before.map fun pending =>
    if pending.past.entry.self = index then budget.cost pending.request else 0).sum_nat
  rw [List.map_cons, List.sum_cons] at same
  simp only [spent, List.map_cons, List.sum_cons, same]
  omega

/-- A step of a program whose handlers can afford what they start. -/
theorem Balanced.step (opened : ∀ root, budget.left (app.root root) = 0)
    (handlers : ∀ input object,
      budget.Affords (app.handler input) object (budget.left object))
    (balanced : budget.Balanced world) (taken : world.step event = some next) :
    budget.Balanced next := by
  cases stepped_of_step taken with
  | @launched process root =>
      refine ⟨balanced.covered, fun index => ?_⟩
      have same : budget.leftOf index
          { world with objects := world.objects ++ [⟨process, app.root root⟩] } =
            budget.leftOf index world := by
        simp only [leftOf, List.getElem?_append]
        split
        · rfl
        · rename_i beyond
          rw [List.getElem?_eq_none (Nat.not_lt.mp beyond), List.getElem?_singleton]
          split <;> simp [opened]
      have balance := balanced.balance index
      rw [← same] at balance
      exact balance
  | @began self input target placed =>
      have left : budget.leftOf self world = budget.left target.object := by simp [leftOf, placed]
      have settles : budget.Settles self (budget.left target.object)
          { world with clock := world.clock + 1 } (exec self
            ⟨⟨world.clock, self, input, target.object⟩, []⟩ (app.handler input) target
            { world with clock := world.clock + 1 }) :=
        settles_exec (handlers input target.object) rfl placed balanced.covered
      refine ⟨settles.covered, fun index => ?_⟩
      rw [settles.earned]
      have balance : budget.spent index world + budget.leftOf index world ≤
        budget.earned index world := balanced.balance index
      by_cases here : index = self
      · subst here
        rw [left] at balance
        exact Nat.le_trans settles.own balance
      · obtain ⟨spent, same⟩ := settles.others index here
        rw [spent, same]
        exact balance
  | @served place self choice past request completion later response found =>
      refine ⟨fun pending member => ?_, fun index => ?_⟩
      · rcases List.mem_or_eq_of_mem_set member with older | rfl
        · exact balanced.covered pending older
        · exact balanced.covered ⟨self, past, request, completion, none⟩
            (List.mem_of_getElem? found)
      · rw [spent_served found]
        exact balanced.balance index
  | @completed place self past request completion response target found placed =>
      obtain ⟨own, affords⟩ := balanced.covered _ (List.mem_of_getElem? found)
      obtain rfl : self = past.entry.self := own
      let handled : World app service := { world with
        pending := world.pending.eraseIdx place
        acknowledged := (past, ⟨request, response⟩) :: world.acknowledged }
      have left : budget.leftOf past.entry.self world = budget.left target.object := by
        simp [leftOf, placed]
      have spent : ∀ index, budget.spent index handled = budget.spent index world :=
        spent_completed found
      have earned : ∀ index, budget.earned index handled = (if past.entry.self = index then
          budget.yield ⟨request, response⟩ else 0) + budget.earned index world := fun _ => rfl
      have settles : budget.Settles past.entry.self
          (budget.left target.object + budget.yield ⟨request, response⟩) handled
          (exec past.entry.self (past.answered request response) (completion response) target
            handled) :=
        settles_exec (affords response target.object) rfl placed fun pending member =>
          balanced.covered pending (List.mem_of_mem_eraseIdx member)
      refine ⟨settles.covered, fun index => ?_⟩
      have balance := balanced.balance index
      by_cases here : index = past.entry.self
      · subst here
        have total := settles.own
        rw [spent] at total
        rw [settles.earned, earned, if_pos rfl]
        refine Nat.le_trans total ?_
        omega
      · obtain ⟨same, kept⟩ := settles.others index here
        have still : budget.leftOf index handled = budget.leftOf index world := rfl
        rw [settles.earned, earned, if_neg (Ne.symm here), same, kept, spent, still]
        omega

/-- In every run, the operations of an object have cost no more than their answers have
yielded, with what the object has left. -/
theorem balanced_of_reachable {guard : (machine app service).Guard} {server : service.State}
    (opened : ∀ root, budget.left (app.root root) = 0)
    (handlers : ∀ input object,
      budget.Affords (app.handler input) object (budget.left object))
    (reached : Machine.Reachable guard (World.initial app server) world) :
    budget.Balanced world := by
  have initial : budget.Balanced (World.initial app server : World app service) :=
    ⟨nofun, fun index => Nat.le_refl 0⟩
  exact reached.invariant initial fun balanced _ taken => balanced.step opened handlers taken

end Steps

end Budget

end Gbc.Callback
