import Mathlib.Data.List.Perm.Basic
import Gbc.Semantics.Machine

/-!
# Callback programs

Programs whose objects react to inputs, start remote operations and finish them
in completion handlers. `Code` is the body of one handler: it runs to its end
without interruption, and what it leaves outstanding is kept in the `World`.
Between two handlers anything may happen, so interleavings are interleavings of
whole handlers and of the answers of a `Service`.
-/

namespace Gbc.Callback

/-- The remote operations of a program, each with the type of its answer. -/
structure Interface where
  Request : Type
  Response : Request → Type

/-- The body of one handler of an object. -/
inductive Code (I : Interface) (Object Fault : Type) where
  | done
  /-- The process stops: a forced unwrap, a forced cast or an index fails. -/
  | trap (fault : Fault)
  | look (next : Object → Code I Object Fault)
  | modify (change : Object → Object) (next : Code I Object Fault)
  /-- Call `present` with an alert. Whether it is seen is not followed: a screen that has been
  closed, or that presents something already, does not show it. -/
  | alert (title : String) (next : Code I Object Fault)
  /-- Start a remote operation and go on; `completion` runs when it is answered. -/
  | call (request : I.Request) (completion : I.Response request → Code I Object Fault)
      (next : Code I Object Fault)
  /-- Create an object in the same process and run its first handler. -/
  | present (object : Object) (start : Code I Object Fault)

namespace Code

variable {I : Interface} {Object Fault Value : Type}

/-- The forced unwrap `value!`. -/
def unwrap (value : Option Value) (fault : Fault) (next : Value → Code I Object Fault) :
    Code I Object Fault :=
  match value with
  | some value => next value
  | none => .trap fault

/-- A remote operation started without a completion handler. -/
def fire (request : I.Request) (next : Code I Object Fault) : Code I Object Fault :=
  .call request (fun _ => .done) next

@[simp] theorem unwrap_some (value : Value) (fault : Fault)
    (next : Value → Code I Object Fault) : unwrap (some value) fault next = next value := rfl

@[simp] theorem unwrap_none (fault : Fault) (next : Value → Code I Object Fault) :
    unwrap none fault next = .trap fault := rfl

end Code

/-- A program: its objects, the ones that open by themselves, and its handlers. -/
structure App (I : Interface) where
  Object : Type
  Root : Type
  Input : Type
  Fault : Type
  root : Root → Object
  handler : Input → Code I Object Fault

/-- A backend. `Choice` resolves its nondeterminism: failures, names it picks. -/
structure Service (I : Interface) where
  State : Type
  Choice : Type
  serve : State → (request : I.Request) → Choice → Option (State × I.Response request)

variable {I : Interface}

/-- A remote operation together with its answer. -/
structure Exchange (I : Interface) where
  request : I.Request
  response : I.Response request

/-- The input a chain of handlers began with, and the object as it then was. -/
structure Entry (app : App I) where
  serial : Nat
  self : Nat
  input : app.Input
  object : app.Object

/-- What led to a handler: an input, then the answers awaited since, newest first. -/
structure Past (app : App I) where
  entry : Entry app
  trail : List (Exchange I)

/-- The past of the completion handler of `request`. -/
def Past.answered {app : App I} (past : Past app) (request : I.Request)
    (response : I.Response request) : Past app :=
  { past with trail := ⟨request, response⟩ :: past.trail }

@[simp] theorem Past.answered_entry {app : App I} (past : Past app) (request : I.Request)
    (response : I.Response request) : (past.answered request response).entry = past.entry := rfl

/-- An outstanding operation: not yet served, or answered and not yet handled. -/
structure Pending (app : App I) where
  self : Nat
  past : Past app
  request : I.Request
  completion : I.Response request → Code I app.Object app.Fault
  answer : Option (I.Response request)

/-- An object and the process it lives in. -/
structure Instance (app : App I) where
  process : Nat
  object : app.Object

/-- The backend and all processes of the program. -/
structure World (app : App I) (service : Service I) where
  server : service.State
  objects : List (Instance app)
  pending : List (Pending app)
  /-- Operations whose completion handler has run, newest first. -/
  acknowledged : List (Past app × Exchange I)
  /-- The alerts that `present` has been called with, newest first. -/
  alerts : List (Past app × String)
  /-- Processes that trapped, with the reason. -/
  faults : List (Nat × app.Fault)
  /-- The number of inputs so far. -/
  clock : Nat

/-- What may happen next. -/
inductive Event (app : App I) (service : Service I) where
  | launch (process : Nat) (root : app.Root)
  | input (self : Nat) (input : app.Input)
  | serve (index : Nat) (choice : service.Choice)
  | reply (index : Nat)

namespace World

variable {app : App I} {service : Service I}

/-- The world before any process has started. -/
def initial (app : App I) (server : service.State) : World app service where
  server := server
  objects := []
  pending := []
  acknowledged := []
  alerts := []
  faults := []
  clock := 0

/-- A process that trapped runs no further handler. -/
def crashed (world : World app service) (process : Nat) : Bool :=
  world.faults.any fun fault => fault.1 == process

/-- Replace the state of one object. -/
def setObject (world : World app service) (self : Nat) (target : Instance app) :
    World app service :=
  { world with objects := world.objects.set self target }

/-- Run one handler of object `self` to its end. -/
def exec (self : Nat) (past : Past app) :
    Code I app.Object app.Fault → Instance app → World app service → World app service
  | .done, _, world => world
  | .trap fault, target, world =>
      { world with faults := (target.process, fault) :: world.faults }
  | .look next, target, world => exec self past (next target.object) target world
  | .modify change next, target, world =>
      exec self past next { target with object := change target.object }
        (world.setObject self { target with object := change target.object })
  | .alert title next, target, world =>
      exec self past next target { world with alerts := (past, title) :: world.alerts }
  | .call request completion next, target, world =>
      exec self past next target
        { world with pending := world.pending ++ [⟨self, past, request, completion, none⟩] }
  | .present object start, target, world =>
      exec world.objects.length past start { target with object := object }
        { world with objects := world.objects ++ [{ target with object := object }] }

/-- The effect of one event, if it can happen. -/
def step (world : World app service) : Event app service → Option (World app service)
  | .launch process root =>
      if world.crashed process then none
      else some { world with objects := world.objects ++ [⟨process, app.root root⟩] }
  | .input self input =>
      match world.objects[self]? with
      | some target =>
          if world.crashed target.process then none
          else some (exec self ⟨⟨world.clock, self, input, target.object⟩, []⟩
            (app.handler input) target { world with clock := world.clock + 1 })
      | none => none
  | .serve index choice =>
      match world.pending[index]? with
      | some ⟨self, past, request, completion, none⟩ =>
          (service.serve world.server request choice).map fun answered =>
            { world with
              server := answered.1
              pending := world.pending.set index
                ⟨self, past, request, completion, some answered.2⟩ }
      | _ => none
  | .reply index =>
      match world.pending[index]? with
      | some ⟨self, past, request, completion, some response⟩ =>
          match world.objects[self]? with
          | some target =>
              if world.crashed target.process then none
              else some (exec self (past.answered request response) (completion response) target
                { world with
                  pending := world.pending.eraseIdx index
                  acknowledged := (past, ⟨request, response⟩) :: world.acknowledged })
          | none => none
      | _ => none

/-- What a step can do: one case for each kind of event. -/
inductive Stepped (world : World app service) : Event app service → World app service → Prop where
  | launched {process : Nat} {root : app.Root} (runs : world.crashed process = false) :
      Stepped world (.launch process root)
        { world with objects := world.objects ++ [⟨process, app.root root⟩] }
  | began {self : Nat} {input : app.Input} {target : Instance app}
      (placed : world.objects[self]? = some target)
      (runs : world.crashed target.process = false) :
      Stepped world (.input self input)
        (exec self ⟨⟨world.clock, self, input, target.object⟩, []⟩ (app.handler input) target
          { world with clock := world.clock + 1 })
  | served {index self : Nat} {choice : service.Choice} {past : Past app} {request : I.Request}
      {completion : I.Response request → Code I app.Object app.Fault} {later : service.State}
      {response : I.Response request}
      (found : world.pending[index]? = some ⟨self, past, request, completion, none⟩)
      (serves : service.serve world.server request choice = some (later, response)) :
      Stepped world (.serve index choice)
        { world with
          server := later
          pending := world.pending.set index ⟨self, past, request, completion, some response⟩ }
  | completed {index self : Nat} {past : Past app} {request : I.Request}
      {completion : I.Response request → Code I app.Object app.Fault}
      {response : I.Response request} {target : Instance app}
      (found : world.pending[index]? = some ⟨self, past, request, completion, some response⟩)
      (placed : world.objects[self]? = some target)
      (runs : world.crashed target.process = false) :
      Stepped world (.reply index)
        (exec self (past.answered request response) (completion response) target
          { world with
            pending := world.pending.eraseIdx index
            acknowledged := (past, ⟨request, response⟩) :: world.acknowledged })

theorem stepped_of_step {world next : World app service} {event : Event app service}
    (taken : world.step event = some next) : world.Stepped event next := by
  cases event with
  | launch process root =>
      simp only [step] at taken
      split at taken
      · cases taken
      · rename_i runs
        cases taken
        exact .launched (Bool.eq_false_iff.mpr runs)
  | input self input =>
      simp only [step] at taken
      split at taken
      · rename_i target placed
        split at taken
        · cases taken
        · rename_i runs
          cases taken
          exact .began placed (Bool.eq_false_iff.mpr runs)
      · cases taken
  | serve index choice =>
      simp only [step] at taken
      split at taken
      · rename_i self past request completion found
        obtain ⟨⟨later, response⟩, serves, rfl⟩ := Option.map_eq_some_iff.mp taken
        exact .served found serves
      · cases taken
  | reply index =>
      simp only [step] at taken
      split at taken
      · rename_i self past request completion response found
        split at taken
        · rename_i target placed
          split at taken
          · cases taken
          · rename_i runs
            cases taken
            exact .completed found placed (Bool.eq_false_iff.mpr runs)
        · cases taken
      · cases taken

/-- A handler leaves the backend to the operations it starts. -/
@[simp] theorem exec_server (self : Nat) (past : Past app)
    (code : Code I app.Object app.Fault) (target : Instance app) (world : World app service) :
    (exec self past code target world).server = world.server := by
  induction code generalizing self target world with
  | done => rfl
  | trap fault => rfl
  | look next inductionHypothesis => exact inductionHypothesis _ _ _ _
  | modify change next inductionHypothesis => exact inductionHypothesis _ _ _
  | alert title next inductionHypothesis => exact inductionHypothesis _ _ _
  | call request completion next _ inductionHypothesis => exact inductionHypothesis _ _ _
  | present object start inductionHypothesis => exact inductionHypothesis _ _ _

/-- An outstanding operation was there before a handler or is one it started. -/
theorem mem_pending_exec {self : Nat} {past : Past app} {code : Code I app.Object app.Fault}
    {target : Instance app} {world : World app service} {pending : Pending app}
    (member : pending ∈ (exec self past code target world).pending) :
    pending ∈ world.pending ∨
      ∃ other request completion, pending = ⟨other, past, request, completion, none⟩ := by
  induction code generalizing self target world with
  | done => exact .inl member
  | trap fault => exact .inl member
  | look next inductionHypothesis => exact inductionHypothesis _ member
  | modify change next inductionHypothesis =>
      simp only [exec] at member
      have started := inductionHypothesis member
      exact started
  | alert title next inductionHypothesis =>
      simp only [exec] at member
      have started := inductionHypothesis member
      exact started
  | call request completion next _ inductionHypothesis =>
      rcases inductionHypothesis member with older | started
      · rcases List.mem_append.mp older with older | added
        · exact .inl older
        · obtain rfl := List.mem_singleton.mp added
          exact .inr ⟨_, _, _, rfl⟩
      · exact .inr started
  | present object start inductionHypothesis =>
      simp only [exec] at member
      have started := inductionHypothesis member
      exact started

/-- Split an entry of a list of outstanding operations off the rest. -/
theorem perm_of_getElem? {operations rest : List (Pending app)} {index : Nat}
    {pending : Pending app} (found : operations[index]? = some pending)
    (same : operations.Perm rest) :
    rest.Perm (pending :: operations.eraseIdx index) ∧
      ∀ other, (operations.set index other).Perm (other :: operations.eraseIdx index) := by
  obtain ⟨bound, rfl⟩ := List.getElem?_eq_some_iff.mp found
  exact ⟨same.symm.trans (List.getElem_cons_eraseIdx_perm bound).symm,
    fun other => List.set_perm_cons_eraseIdx bound other⟩

/-- The other outstanding operations stay when one is answered or handled. -/
theorem mem_rest_of_ne {operations : List (Pending app)} {index : Nat}
    {pending other : Pending app} (found : operations[index]? = some pending)
    (member : other ∈ operations) (different : other ≠ pending) :
    other ∈ operations.eraseIdx index ∧ ∀ answered, other ∈ operations.set index answered := by
  obtain ⟨same, set⟩ := perm_of_getElem? found (.refl operations)
  have rest := (List.mem_cons.mp (same.mem_iff.mp member)).resolve_left different
  exact ⟨rest, fun answered => (set answered).mem_iff.mpr (List.mem_cons_of_mem _ rest)⟩

/-- The entry of a list with one value, be it an object or an outstanding operation. -/
theorem eq_of_singleton {Value : Type} {values : List Value} {index : Nat} {value other : Value}
    (single : values = [value]) (found : values[index]? = some other) :
    index = 0 ∧ value = other := by
  rw [single, List.getElem?_singleton] at found
  split at found
  · rename_i first
    exact ⟨first, Option.some.inj found⟩
  · cases found

/-- The worlds of a program over a service, as a machine. -/
def machine (app : App I) (service : Service I) : Machine where
  State := World app service
  Event := Event app service
  step := step

end World

end Gbc.Callback
