import Mathlib.Logic.Function.Basic
import Gbc.Semantics.Machine

/-!
# Stores whose entries have owners

Whoever acts on an entry first owns it, and from then on nobody else may act on it. In
such a store the acts of other actors do not interfere: an actor's entries are what that
actor's own acts alone make of them.
-/

namespace Gbc

/-- An act on one entry of a store. -/
structure Act (Actor Key Value : Type) where
  actor : Actor
  key : Key
  effect : Option Value → Option Value

/-- A store, with the owners of its entries. -/
structure Owned (Actor Key Value : Type) where
  owner : Key → Option Actor
  value : Key → Option Value

namespace Owned

variable {Actor Key Value : Type}

/-- Nobody has acted. -/
def empty : Owned Actor Key Value where
  owner _ := none
  value _ := none

variable {store own next : Owned Actor Key Value} {act : Act Actor Key Value} {actor : Actor}
  {key : Key}

section Acts

variable [DecidableEq Actor]

/-- The actor owns the entry, or nobody does. -/
def Allows (store : Owned Actor Key Value) (act : Act Actor Key Value) : Bool :=
  (store.owner act.key).all fun owner => decide (owner = act.actor)

theorem allows_iff : store.Allows act = true ↔
    ∀ owner, store.owner act.key = some owner → owner = act.actor := by
  cases owned : store.owner act.key <;> simp [Allows, owned]

end Acts

section Entries

variable [DecidableEq Key]

/-- The store after an act. -/
def apply (store : Owned Actor Key Value) (act : Act Actor Key Value) : Owned Actor Key Value where
  owner := Function.update store.owner act.key (some act.actor)
  value := Function.update store.value act.key (act.effect (store.value act.key))

@[simp] theorem apply_owner_self : (store.apply act).owner act.key = some act.actor := by
  simp [apply]

@[simp] theorem apply_value_self :
    (store.apply act).value act.key = act.effect (store.value act.key) := by
  simp [apply]

theorem apply_owner_of_ne (other : key ≠ act.key) :
    (store.apply act).owner key = store.owner key := by
  simp [apply, other]

theorem apply_value_of_ne (other : key ≠ act.key) :
    (store.apply act).value key = store.value key := by
  simp [apply, other]

end Entries

/-- `own` is the part of a store that belongs to one actor. -/
structure Part [DecidableEq Actor] (actor : Actor) (store own : Owned Actor Key Value) : Prop where
  owner : ∀ key, own.owner key = if store.owner key = some actor then some actor else none
  value : ∀ key, store.owner key = some actor → own.value key = store.value key
  absent : ∀ key, store.owner key ≠ some actor → own.value key = none
  /-- An entry without an owner is empty. -/
  unowned : ∀ key, store.owner key = none → store.value key = none

section Parts

variable [DecidableEq Actor]

/-- Nobody owns anything in the empty store. -/
theorem part_empty : Part actor (empty : Owned Actor Key Value) empty where
  owner _ := rfl
  value _ _ := rfl
  absent _ _ := rfl
  unowned _ _ := rfl

/-- An act of the actor is allowed in its part, too. -/
theorem Part.allows (part : Part act.actor store own) : own.Allows act = true := by
  rw [allows_iff]
  intro owner owned
  rw [part.owner] at owned
  split at owned
  · exact (Option.some.inj owned).symm
  · cases owned

end Parts

variable [DecidableEq Actor] [DecidableEq Key]

/-- The stores as a machine, which takes the acts that are allowed. -/
abbrev machine (Actor Key Value : Type) [DecidableEq Actor] [DecidableEq Key] : Machine where
  State := Owned Actor Key Value
  Event := Act Actor Key Value
  step store act := if store.Allows act then some (store.apply act) else none

/-- The store after these acts, if they are all allowed. -/
abbrev run (acts : List (Act Actor Key Value)) : Option (Owned Actor Key Value) :=
  (machine Actor Key Value).runWhile (machine Actor Key Value).anyStep empty acts

theorem step_iff : (machine Actor Key Value).step store act = some next ↔
    store.Allows act = true ∧ store.apply act = next := by
  simp [machine]

/-- An act of the actor changes its part as it changes the store. -/
theorem Part.apply_self (part : Part act.actor store own) (allowed : store.Allows act = true) :
    Part act.actor (store.apply act) (own.apply act) := by
  constructor
  · intro key
    by_cases here : key = act.key
    · subst here
      simp
    · rw [apply_owner_of_ne here, apply_owner_of_ne here, part.owner]
  · intro key owned
    by_cases here : key = act.key
    · subst here
      simp only [apply_value_self]
      cases before : store.owner act.key with
      | none =>
          rw [part.unowned _ before, part.absent _ (by simp [before])]
      | some owner =>
          obtain rfl := allows_iff.mp allowed owner before
          rw [part.value _ before]
    · rw [apply_owner_of_ne here] at owned
      rw [apply_value_of_ne here, apply_value_of_ne here, part.value _ owned]
  · intro key foreign
    by_cases here : key = act.key
    · subst here
      simp at foreign
    · rw [apply_owner_of_ne here] at foreign
      rw [apply_value_of_ne here, part.absent _ foreign]
  · intro key unowned
    by_cases here : key = act.key
    · subst here
      simp at unowned
    · rw [apply_owner_of_ne here] at unowned
      rw [apply_value_of_ne here, part.unowned _ unowned]

/-- An act of another actor leaves the part alone. -/
theorem Part.apply_other (part : Part actor store own) (allowed : store.Allows act = true)
    (other : act.actor ≠ actor) : Part actor (store.apply act) own := by
  have foreign : store.owner act.key ≠ some actor :=
    fun owned => other (allows_iff.mp allowed actor owned).symm
  constructor
  · intro key
    by_cases here : key = act.key
    · subst here
      rw [part.owner, if_neg foreign, apply_owner_self, if_neg (by simpa using other)]
    · rw [apply_owner_of_ne here, part.owner]
  · intro key owned
    by_cases here : key = act.key
    · subst here
      rw [apply_owner_self] at owned
      exact absurd (Option.some.inj owned) other
    · rw [apply_owner_of_ne here] at owned
      rw [apply_value_of_ne here, part.value _ owned]
  · intro key notOwned
    by_cases here : key = act.key
    · subst here
      exact part.absent _ foreign
    · rw [apply_owner_of_ne here] at notOwned
      exact part.absent _ notOwned
  · intro key unowned
    by_cases here : key = act.key
    · subst here
      simp at unowned
    · rw [apply_owner_of_ne here] at unowned
      rw [apply_value_of_ne here, part.unowned _ unowned]

/-- Without the acts of all others, a run still goes through and leaves the part of the
store that belongs to the actor. -/
theorem Part.runWhile (acts : List (Act Actor Key Value)) (part : Part actor store own)
    (ran : (machine Actor Key Value).runWhile (machine Actor Key Value).anyStep store acts =
      some next) :
    ∃ after, (machine Actor Key Value).runWhile (machine Actor Key Value).anyStep own
        (acts.filter fun act => act.actor = actor) = some after ∧ Part actor next after := by
  induction acts generalizing store own with
  | nil =>
      obtain rfl := Option.some.inj ran
      exact ⟨own, rfl, part⟩
  | cons act acts inductionHypothesis =>
      simp only [Machine.runWhile, Machine.anyStep, if_true, Option.bind_eq_some_iff] at ran
      obtain ⟨middle, taken, rest⟩ := ran
      obtain ⟨allowed, rfl⟩ := step_iff.mp taken
      by_cases mine : act.actor = actor
      · subst mine
        obtain ⟨after, ran, left⟩ := inductionHypothesis (part.apply_self allowed) rest
        refine ⟨after, ?_, left⟩
        rw [List.filter_cons_of_pos (by simp),
          Machine.runWhile_cons_of_step (step_iff.mpr ⟨part.allows, rfl⟩)]
        exact ran
      · obtain ⟨after, ran, left⟩ := inductionHypothesis (part.apply_other allowed mine) rest
        refine ⟨after, ?_, left⟩
        rw [List.filter_cons_of_neg (by simpa using mine)]
        exact ran

/-- Actors do not interfere: their entries are what their own acts alone make of them. -/
theorem part_of_run {acts : List (Act Actor Key Value)} (actor : Actor)
    (ran : run acts = some store) :
    ∃ own, run (acts.filter fun act => act.actor = actor) = some own ∧ Part actor store own :=
  part_empty.runWhile acts ran

end Owned

end Gbc
