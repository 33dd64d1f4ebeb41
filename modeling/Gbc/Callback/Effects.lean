import Gbc.Callback.History

/-!
# What a handler body does

The alerts that a handler body presents and the operations that it starts, by the object
it runs on. `Code.Calls` relates every operation of a program to its completion
handler, so what an answer sets off can be told from the operation it answers. A chain
of operations goes on when each answer sets off the next one.
-/

namespace Gbc.Callback

variable {I : Interface} {app : App I} {service : Service I}

namespace Code

variable {Object Fault : Type}

/-- The titles of the alerts that a handler body presents, in order. -/
def titles : Code I Object Fault → Object → List String
  | .done, _ => []
  | .trap _, _ => []
  | .look next, object => titles (next object) object
  | .modify change next, object => titles next (change object)
  | .alert title next, object => title :: titles next object
  | .call _ _ next, object => titles next object
  | .present created start, _ => titles start created

/-- The operations that a handler body starts, in order. -/
def requests : Code I Object Fault → Object → List I.Request
  | .done, _ => []
  | .trap _, _ => []
  | .look next, object => requests (next object) object
  | .modify change next, object => requests next (change object)
  | .alert _ next, object => requests next object
  | .call request _ next, object => request :: requests next object
  | .present created start, _ => requests start created

/-- The object as a handler body leaves it, when the body runs to its end and creates no
other object. -/
def leaves : Code I Object Fault → Object → Option Object
  | .done, object => some object
  | .trap _, _ => none
  | .look next, object => leaves (next object) object
  | .modify change next, object => leaves next (change object)
  | .alert _ next, object => leaves next object
  | .call _ _ next, object => leaves next object
  | .present _ _, _ => none

/-- A handler body presents none of these alerts, whatever object it runs on. -/
def Avoids (loud : List String) (code : Code I Object Fault) : Prop :=
  ∀ object, ∀ title ∈ code.titles object, title ∉ loud

section Avoids

variable {loud : List String}

theorem avoids_done : (done : Code I Object Fault).Avoids loud := fun _ _ => nofun

theorem avoids_trap {fault : Fault} : (trap fault : Code I Object Fault).Avoids loud :=
  fun _ _ => nofun

theorem avoids_alert {title : String} {next : Code I Object Fault} (quiet : title ∉ loud)
    (rest : next.Avoids loud) : (alert title next).Avoids loud := by
  intro object shown member
  rcases List.mem_cons.mp member with rfl | later
  · exact quiet
  · exact rest object shown later

theorem avoids_unwrap {Value : Type} {value : Option Value} {fault : Fault}
    {next : Value → Code I Object Fault} (rest : ∀ found, (next found).Avoids loud) :
    (unwrap value fault next).Avoids loud := by
  cases value with
  | none => exact avoids_trap
  | some found => exact rest found

end Avoids

/-- Every operation that a handler body or a later completion handler starts is related
to its completion handler. -/
def Calls (related : (request : I.Request) → (I.Response request → Code I Object Fault) → Prop) :
    Code I Object Fault → Object → Prop
  | .done, _ => True
  | .trap _, _ => True
  | .look next, object => Calls related (next object) object
  | .modify change next, object => Calls related next (change object)
  | .alert _ next, object => Calls related next object
  | .call request completion next, object =>
      related request completion ∧
      (∀ response target, Calls related (completion response) target) ∧
      Calls related next object
  | .present created start, _ => Calls related start created

theorem calls_unwrap
    {related : (request : I.Request) → (I.Response request → Code I Object Fault) → Prop}
    {object : Object} {Value : Type} {value : Option Value} {fault : Fault}
    {next : Value → Code I Object Fault}
    (rest : ∀ found, value = some found → (next found).Calls related object) :
    (unwrap value fault next).Calls related object := by
  cases value with
  | none => trivial
  | some found => exact rest found rfl

end Code

namespace World

variable {world next : World app service} {event : Event app service}

/-- A handler body presents its alerts, the last one first. -/
theorem exec_alerts {self : Nat} {past : Past app} {code : Code I app.Object app.Fault}
    {target : Instance app} :
    (exec self past code target world).alerts =
      (code.titles target.object).reverse.map (past, ·) ++ world.alerts := by
  induction code generalizing self target world with
  | done => rfl
  | trap fault => rfl
  | look next inductionHypothesis => exact inductionHypothesis _
  | modify change next inductionHypothesis => exact inductionHypothesis
  | alert title next inductionHypothesis =>
      simp only [exec]
      rw [inductionHypothesis]
      simp [Code.titles]
  | call request completion next _ inductionHypothesis =>
      simp only [exec]
      rw [inductionHypothesis]
      rfl
  | present object start inductionHypothesis => exact inductionHypothesis

/-- The operations that a handler body starts are outstanding after it. -/
theorem exec_requests {self : Nat} {past : Past app} {code : Code I app.Object app.Fault}
    {target : Instance app} {request : I.Request}
    (started : request ∈ code.requests target.object) :
    ∃ pending ∈ (exec self past code target world).pending,
      pending.past = past ∧ pending.request = request := by
  induction code generalizing self target world with
  | done => cases started
  | trap fault => cases started
  | look next inductionHypothesis => exact inductionHypothesis _ started
  | modify change next inductionHypothesis => exact inductionHypothesis started
  | alert title next inductionHypothesis => exact inductionHypothesis started
  | call other completion next _ inductionHypothesis =>
      simp only [exec]
      rcases List.mem_cons.mp started with rfl | later
      · exact ⟨⟨self, past, request, completion, none⟩,
          mem_exec_pending (List.mem_append_right _ List.mem_cons_self), rfl, rfl⟩
      · exact inductionHypothesis later
  | present object start inductionHypothesis => exact inductionHypothesis started

/-- A handler body that runs to its end replaces its object and leaves the others alone. -/
theorem exec_objects (world : World app service) {self : Nat} (past : Past app)
    {code : Code I app.Object app.Fault} {target : Instance app} {object : app.Object}
    (ends : code.leaves target.object = some object)
    (placed : world.objects[self]? = some target) :
    (exec self past code target world).objects =
      world.objects.set self { target with object := object } := by
  induction code generalizing target world with
  | done =>
      obtain rfl := Option.some.inj ends
      obtain ⟨bound, rfl⟩ := List.getElem?_eq_some_iff.mp placed
      exact (List.set_getElem_self bound).symm
  | trap fault => cases ends
  | look next inductionHypothesis => exact inductionHypothesis _ _ ends placed
  | modify change next inductionHypothesis =>
      have bound := (List.getElem?_eq_some_iff.mp placed).1
      let changed : Instance app := { target with object := change target.object }
      have still : next.leaves changed.object = some object := ends
      have kept := inductionHypothesis (world.setObject self changed) still
        (by simp [setObject, bound])
      simp only [setObject, List.set_set] at kept
      exact kept
  | alert title next inductionHypothesis =>
      simp only [exec]
      exact inductionHypothesis _ ends placed
  | call request completion next _ inductionHypothesis =>
      simp only [exec]
      exact inductionHypothesis _ ends placed
  | present object start => cases ends

/-- Such a handler body does not trap. -/
theorem exec_faults {self : Nat} {past : Past app} {code : Code I app.Object app.Fault}
    {target : Instance app} {object : app.Object}
    (ends : code.leaves target.object = some object) :
    (exec self past code target world).faults = world.faults := by
  induction code generalizing target world with
  | done => rfl
  | trap fault => cases ends
  | look next inductionHypothesis => exact inductionHypothesis _ ends
  | modify change next inductionHypothesis => exact inductionHypothesis ends
  | alert title next inductionHypothesis => exact inductionHypothesis ends
  | call request completion next _ inductionHypothesis => exact inductionHypothesis ends
  | present object start => cases ends

theorem exec_leaves {self : Nat} {past : Past app} {code : Code I app.Object app.Fault}
    {target : Instance app} {object : app.Object} (ends : code.leaves target.object = some object)
    (placed : world.objects[self]? = some target) :
    (exec self past code target world).objects[self]? = some { target with object := object } ∧
      (exec self past code target world).faults = world.faults := by
  have bound := (List.getElem?_eq_some_iff.mp placed).1
  refine ⟨?_, exec_faults ends⟩
  rw [exec_objects world past ends placed, List.getElem?_set_self bound]

/-- The operations that such a handler body starts, all of them for its object, are
outstanding after the older ones. -/
theorem exec_started (world : World app service) (self : Nat) (past : Past app)
    {code : Code I app.Object app.Fault} {target : Instance app} {object : app.Object}
    (ends : code.leaves target.object = some object) :
    ∃ started : List (Pending app),
      (exec self past code target world).pending = world.pending ++ started ∧
      started.map Pending.request = code.requests target.object ∧
      ∀ pending ∈ started, pending.self = self := by
  induction code generalizing target world with
  | done => exact ⟨[], by simp [exec], rfl, nofun⟩
  | trap fault => cases ends
  | look next inductionHypothesis => exact inductionHypothesis _ _ ends
  | modify change next inductionHypothesis => exact inductionHypothesis _ ends
  | alert title next inductionHypothesis => exact inductionHypothesis _ ends
  | call request completion next _ inductionHypothesis =>
      obtain ⟨started, outstanding, requests, own⟩ := inductionHypothesis _ ends
      refine ⟨⟨self, past, request, completion, none⟩ :: started, ?_, ?_, ?_⟩
      · simp only [exec]
        rw [outstanding, List.append_assoc, List.singleton_append]
      · rw [List.map_cons, requests]
        rfl
      · intro pending member
        rcases List.mem_cons.mp member with rfl | later
        · rfl
        · exact own pending later
  | present object start => cases ends

/-- The alerts that a step has presented, the last one first. -/
def newAlerts (world next : World app service) : List (Past app × String) :=
  next.alerts.take (next.alerts.length - world.alerts.length)

theorem newAlerts_of_append {shown : List (Past app × String)}
    (alerts : next.alerts = shown ++ world.alerts) : newAlerts world next = shown := by
  simp [newAlerts, alerts]

section Calls

variable {related : (request : I.Request) →
  (I.Response request → Code I app.Object app.Fault) → Prop}

/-- The outstanding operations are related to their completion handlers. -/
def CallsPending (related : (request : I.Request) →
    (I.Response request → Code I app.Object app.Fault) → Prop) (world : World app service) :
    Prop :=
  ∀ pending ∈ world.pending, related pending.request pending.completion ∧
    ∀ response target, (pending.completion response).Calls related target

theorem exec_callsPending {self : Nat} {past : Past app} {code : Code I app.Object app.Fault}
    {target : Instance app} (calls : code.Calls related target.object)
    (older : CallsPending related world) :
    CallsPending related (exec self past code target world) := by
  induction code generalizing self target world with
  | done => exact older
  | trap fault => exact older
  | look next inductionHypothesis => exact inductionHypothesis _ calls older
  | modify change next inductionHypothesis => exact inductionHypothesis calls older
  | alert title next inductionHypothesis => exact inductionHypothesis calls older
  | call request completion next _ inductionHypothesis =>
      refine inductionHypothesis calls.2.2 fun pending member => ?_
      rcases List.mem_append.mp member with old | added
      · exact older pending old
      · obtain rfl := List.mem_singleton.mp added
        exact ⟨calls.1, calls.2.1⟩
  | present object start inductionHypothesis => exact inductionHypothesis calls older

/-- A step of handlers whose operations are related to their completion handlers. -/
theorem CallsPending.step
    (handlers : ∀ {self input target}, event = .input self input →
      world.objects[self]? = some target → (app.handler input).Calls related target.object)
    (older : CallsPending related world) (taken : world.step event = some next) :
    CallsPending related next := by
  cases stepped_of_step taken with
  | launched => exact older
  | @began self input target placed =>
      exact exec_callsPending (handlers rfl placed) older
  | @served index self choice past request completion later response found =>
      intro pending member
      rcases List.mem_or_eq_of_mem_set member with old | rfl
      · exact older pending old
      · exact older ⟨self, past, request, completion, none⟩ (List.mem_of_getElem? found)
  | @completed index self past request completion response target found =>
      exact exec_callsPending ((older _ (List.mem_of_getElem? found)).2 response target.object)
        fun pending member => older pending (List.mem_of_mem_eraseIdx member)

/-- Operations are related to their completion handlers in every run. -/
theorem callsPending_of_reachable {guard : (machine app service).Guard} {server : service.State}
    (handlers : ∀ {world : World app service} {self input target},
      guard world (.input self input) → world.objects[self]? = some target →
      (app.handler input).Calls related target.object)
    (reached : Machine.Reachable guard (World.initial app server) world) :
    CallsPending related world := by
  refine reached.invariant ?_ fun older meets taken =>
    older.step (fun same placed => handlers (same ▸ meets) placed) taken
  intro pending member
  cases member

end Calls

end World

end Gbc.Callback
