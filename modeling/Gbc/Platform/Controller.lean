import Gbc.Callback.Chronicle
import Gbc.Callback.Contract
import Gbc.Callback.Crashes
import Gbc.Callback.Effects
import Gbc.Callback.Steady
import Gbc.Platform.Backend

/-!
# View controllers

The handlers of a program act on one of its screens. `Controller` says how the
instances of a view controller class appear among the screens; `this` and `assign`
read and write the properties of `self`.
-/

namespace Gbc

/-- The body of a handler of a screen. -/
abbrev Handling (rules : URLRules) (Screen : Type) := Callback.Code (remote rules) Screen Fault

/-- A view controller class: how its instances appear among the screens. -/
class Controller (Screen : outParam Type) (Self : Type) where
  screen : Self → Screen
  ofScreen : Screen → Option Self
  ofScreen_screen : ∀ self, ofScreen (screen self) = some self

/-- A controller whose instances are the screens of its class. -/
class LawfulController (Screen : outParam Type) (Self : Type) [Controller Screen Self] :
    Prop where
  eq_screen : ∀ {screen : Screen} {self : Self}, Controller.ofScreen screen = some self →
    screen = Controller.screen self

namespace Handler

variable {rules : URLRules} {Screen Self : Type} [Controller Screen Self]

/-- Read `self`. -/
def this (next : Self → Handling rules Screen) : Handling rules Screen :=
  .look fun screen =>
    match Controller.ofScreen screen with
    | some self => next self
    | none => .done

/-- Assign to properties of `self`. -/
def assign (change : Self → Self) (next : Handling rules Screen) : Handling rules Screen :=
  .modify (fun screen =>
    match Controller.ofScreen screen with
    | some self => Controller.screen (change self)
    | none => screen) next

/-- `db.collection(collection).document(path)`, which fails on an empty path. -/
def document (path : String) (next : Handling rules Screen) : Handling rules Screen :=
  if path = "" then .trap .documentPath else next

section Rules

variable {Root Input : Type} {root : Root → Screen} {handler : Input → Handling rules Screen}
  {service : Callback.Service (remote rules)}
  {contract : Callback.Contract (⟨Screen, Root, Input, Fault, root, handler⟩ :
    Callback.App (remote rules)) service}
  {server : service.State}
  {past : Callback.Past (⟨Screen, Root, Input, Fault, root, handler⟩ :
    Callback.App (remote rules))} {screen : Screen}

/-- A handler of another class than its screen does nothing. -/
theorem safe_this {next : Self → Handling rules Screen} :
    contract.Safe server past (this next) screen ↔
      ∀ self, Controller.ofScreen screen = some self →
        contract.Safe server past (next self) screen := by
  simp only [this, Callback.Contract.Safe]
  cases (Controller.ofScreen screen : Option Self) with
  | none => simp [Callback.Contract.Safe]
  | some self => simp

/-- An assignment is safe when it keeps what the contract says of the screen. -/
theorem safe_assign [LawfulController Screen Self] {change : Self → Self}
    {next : Handling rules Screen} (valid : contract.Object server screen)
    (keeps : ∀ self : Self, contract.Object server (Controller.screen self) →
      contract.Object server (Controller.screen (change self)))
    (rest : ∀ changed, contract.Object server changed →
      contract.Safe server past next changed) :
    contract.Safe server past (assign change next) screen := by
  have kept : contract.Object server (match (Controller.ofScreen screen : Option Self) with
      | some self => Controller.screen (change self)
      | none => screen) := by
    cases shown : (Controller.ofScreen screen : Option Self) with
    | none => exact valid
    | some self =>
        rw [LawfulController.eq_screen shown] at valid
        exact keeps self valid
  exact ⟨kept, rest _ kept⟩

/-- An empty path traps. -/
theorem safe_document {path : String} {next : Handling rules Screen} :
    contract.Safe server past (document path next) screen ↔
      (path = "" → contract.Fault .documentPath) ∧
      (path ≠ "" → contract.Safe server past next screen) := by
  by_cases empty : path = "" <;> simp [document, empty, Callback.Contract.Safe]

end Rules

section Crashes

variable {Root Input : Type} {root : Root → Screen} {handler : Input → Handling rules Screen}
  {diagnosis : Callback.Diagnosis (⟨Screen, Root, Input, Fault, root, handler⟩ :
    Callback.App (remote rules))}
  {past : Callback.Past (⟨Screen, Root, Input, Fault, root, handler⟩ :
    Callback.App (remote rules))} {screen : Screen}

/-- The traps of a handler that reads `self` are those of the rest of it. -/
theorem explains_this {next : Self → Handling rules Screen} :
    diagnosis.Explains past (this next) screen ↔
      ∀ self, Controller.ofScreen screen = some self →
        diagnosis.Explains past (next self) screen := by
  simp only [this, Callback.Diagnosis.Explains]
  cases (Controller.ofScreen screen : Option Self) with
  | none => simp [Callback.Diagnosis.Explains]
  | some self => simp

/-- An assignment explains what the rest does, if it keeps what the diagnosis says of the
screen. -/
theorem explains_assign [LawfulController Screen Self] {change : Self → Self}
    {next : Handling rules Screen} (valid : diagnosis.Object screen)
    (keeps : ∀ self : Self, diagnosis.Object (Controller.screen self) →
      diagnosis.Object (Controller.screen (change self)))
    (rest : ∀ changed, diagnosis.Object changed → diagnosis.Explains past next changed) :
    diagnosis.Explains past (assign change next) screen := by
  have kept : diagnosis.Object (match (Controller.ofScreen screen : Option Self) with
      | some self => Controller.screen (change self)
      | none => screen) := by
    cases shown : (Controller.ofScreen screen : Option Self) with
    | none => exact valid
    | some self =>
        rw [LawfulController.eq_screen shown] at valid
        exact keeps self valid
  exact ⟨kept, rest _ kept⟩

/-- An empty path traps. -/
theorem explains_document {path : String} {next : Handling rules Screen} :
    diagnosis.Explains past (document path next) screen ↔
      (path = "" → diagnosis.Cause past screen .documentPath) ∧
      (path ≠ "" → diagnosis.Explains past next screen) := by
  by_cases empty : path = "" <;> simp [document, empty, Callback.Diagnosis.Explains]

end Crashes

section Chronicles

variable {Root Input : Type} {root : Root → Screen} {handler : Input → Handling rules Screen}
  {service : Callback.Service (remote rules)}
  {chronicle : Callback.Chronicle (⟨Screen, Root, Input, Fault, root, handler⟩ :
    Callback.App (remote rules)) service}
  {events : List (Callback.Event (⟨Screen, Root, Input, Fault, root, handler⟩ :
    Callback.App (remote rules)) service)} {index : Nat}
  {past : Callback.Past (⟨Screen, Root, Input, Fault, root, handler⟩ :
    Callback.App (remote rules))} {screen : Screen}

/-- A handler of another class than its screen does nothing. -/
theorem tells_this {next : Self → Handling rules Screen}
    (rest : ∀ self, Controller.ofScreen screen = some self →
      chronicle.Tells events index past (next self) screen) :
    chronicle.Tells events index past (this next) screen := by
  simp only [this, Callback.Chronicle.Tells]
  cases shown : (Controller.ofScreen screen : Option Self) with
  | none => trivial
  | some self => exact rest self shown

/-- An assignment to properties of which the events tell. -/
theorem tells_assign [LawfulController Screen Self] {change : Self → Self}
    {next : Handling rules Screen} (told : chronicle.Object events index screen)
    (keeps : ∀ self : Self, chronicle.Object events index (Controller.screen self) →
      chronicle.Object events index (Controller.screen (change self)))
    (rest : ∀ changed, chronicle.Object events index changed →
      chronicle.Tells events index past next changed) :
    chronicle.Tells events index past (assign change next) screen := by
  have kept : chronicle.Object events index
      (match (Controller.ofScreen screen : Option Self) with
      | some self => Controller.screen (change self)
      | none => screen) := by
    cases shown : (Controller.ofScreen screen : Option Self) with
    | none => exact told
    | some self =>
        rw [LawfulController.eq_screen shown] at told
        exact keeps self told
  exact ⟨kept, rest _ kept⟩

/-- Naming a document starts nothing. -/
theorem tells_document {path : String} {next : Handling rules Screen}
    (rest : path ≠ "" → chronicle.Tells events index past next screen) :
    chronicle.Tells events index past (document path next) screen := by
  unfold document
  split
  · trivial
  · exact rest ‹_›

end Chronicles

section Steady

variable {frame : Callback.Frame Screen}

/-- A handler that reads `self` is steady when the rest of it is. -/
theorem steady_this {next : Self → Handling rules Screen}
    (rest : ∀ self, (next self).Steady frame) : (this next).Steady frame := by
  intro screen
  dsimp only
  cases (Controller.ofScreen screen : Option Self) with
  | none => trivial
  | some self => exact rest self

/-- An assignment is steady when it keeps to the frame. -/
theorem steady_assign [LawfulController Screen Self] {change : Self → Self}
    {next : Handling rules Screen}
    (kept : ∀ self : Self, frame.keeps (Controller.screen self)
      (Controller.screen (change self)))
    (rest : next.Steady frame) : (assign change next).Steady frame := by
  refine ⟨fun screen => ?_, rest⟩
  dsimp only
  cases shown : (Controller.ofScreen screen : Option Self) with
  | none => exact frame.refl screen
  | some self =>
      rw [LawfulController.eq_screen shown]
      exact kept self

/-- Naming a document changes nothing. -/
theorem steady_document {path : String} {next : Handling rules Screen}
    (rest : next.Steady frame) : (document path next).Steady frame := by
  unfold document
  split
  · trivial
  · exact rest

end Steady

section Effects

variable {loud : List String}

/-- The alerts of a handler that reads `self` are those of the rest of it. -/
theorem avoids_this {next : Self → Handling rules Screen}
    (rest : ∀ self, (next self).Avoids loud) : (this next).Avoids loud := by
  intro screen title member
  simp only [this, Callback.Code.titles] at member
  cases shown : (Controller.ofScreen screen : Option Self) with
  | none => simp [shown, Callback.Code.titles] at member
  | some self =>
      rw [shown] at member
      exact rest self screen title member

theorem avoids_document {path : String} {next : Handling rules Screen}
    (rest : next.Avoids loud) : (document path next).Avoids loud := by
  unfold document
  split
  · exact Callback.Code.avoids_trap
  · exact rest

variable {related : (request : Request rules) → (request.Response → Handling rules Screen) → Prop}
  {screen : Screen}

/-- The operations of a handler that reads `self` are those of the rest of it. -/
theorem calls_this {next : Self → Handling rules Screen}
    (rest : ∀ self, Controller.ofScreen screen = some self → (next self).Calls related screen) :
    (this next).Calls related screen := by
  simp only [this, Callback.Code.Calls]
  cases shown : (Controller.ofScreen screen : Option Self) with
  | none => trivial
  | some self => exact rest self shown

theorem calls_document {path : String} {next : Handling rules Screen}
    (rest : next.Calls related screen) : (document path next).Calls related screen := by
  unfold document
  split
  · trivial
  · exact rest

end Effects

end Handler

end Gbc
