import Gbc.Callback.Settling
import Gbc.Platform.Controller

/-!
# Operations of view controllers come to an end

The backend can refuse whatever it is asked, so when it and the completion handlers have
nothing left to do, every operation of a process that runs has been handled.
-/

namespace Gbc

open Callback World

variable {rules : URLRules}

/-- The backend can answer every operation. -/
theorem firebase_responsive : (firebase rules).Responsive := by
  intro state request
  cases request with
  | createUser email password => exact ⟨.refuse .invalidEmail, rfl⟩
  | _ => exact ⟨.fail, rfl⟩

namespace Handler

variable {Screen Root Input Self : Type} {root : Root → Screen}
  {handler : Input → Handling rules Screen} {frame : Frame Screen}
  {related : Past (⟨Screen, Root, Input, Fault, root, handler⟩ : App (remote rules)) → Screen →
    (request : Request rules) → (request.Response → Handling rules Screen) → Prop}
  {past : Past (⟨Screen, Root, Input, Fault, root, handler⟩ : App (remote rules))}
  {screen : Screen}

/-- The operations of a handler that reads `self` are those of the rest of it. -/
theorem issues_this [Controller Screen Self] [LawfulController Screen Self]
    {next : Self → Handling rules Screen}
    (rest : ∀ self, screen = Controller.screen self →
      Code.Issues frame related past (next self) screen) :
    Code.Issues frame related past (this next) screen := by
  simp only [this, Code.Issues]
  cases shown : (Controller.ofScreen screen : Option Self) with
  | none => trivial
  | some self => exact rest self (LawfulController.eq_screen shown)

theorem issues_document {path : String} {next : Handling rules Screen}
    (rest : Code.Issues frame related past next screen) :
    Code.Issues frame related past (document path next) screen := by
  unfold document
  split
  · trivial
  · exact rest

end Handler

variable {app : App (remote rules)} {frame : Frame app.Object} {follows : Sequel app}
  {world : World app (firebase rules)}

/-- When nothing goes on, the operations that follow a handled one have been handled, and the
alerts have been shown. -/
theorem Callback.World.Pursues.onward (pursues : Pursues frame follows world)
    (settled : (machine app (firebase rules)).Settled answering world)
    {past : Past app} (runs : ¬ world.Stopped past.entry)
    {exchange : Exchange (remote rules)} (handled : (past, exchange) ∈ world.acknowledged) :
    ∃ started shown, follows past exchange started shown ∧
      (∀ request ∈ started, ∃ response,
        (past.answered exchange.request exchange.response, ⟨request, response⟩) ∈
          world.acknowledged) ∧
      ∀ title ∈ shown,
        (past.answered exchange.request exchange.response, title) ∈ world.alerts := by
  obtain ⟨started, shown, onward, issued, alerted⟩ :=
    (pursues.followed _ handled).resolve_left runs
  refine ⟨started, shown, onward, fun request asked => ?_, alerted⟩
  exact ((issued request asked).ended pursues.homed firebase_responsive settled).resolve_left runs

end Gbc
