import Gbc.Callback.Code

/-!
# Frames of objects

What no handler body changes about an object: its class, what it was created with, a
property that is never lost. Every object then stays within its frame, and in its
process, in all runs, whatever happens to the other objects.
-/

namespace Gbc.Callback

variable {I : Interface} {app : App I} {service : Service I}

/-- What handlers leave of an object: how it may look later, and the objects they may
create. -/
structure Frame (Object : Type) where
  keeps : Object → Object → Prop
  made : Object → Prop
  refl : ∀ object, keeps object object
  trans : ∀ {first second third}, keeps first second → keeps second third → keeps first third

/-- Objects keep a view, and those with certain views are created by handlers. -/
abbrev Frame.ofView {Object View : Type} (view : Object → View) (made : View → Prop) :
    Frame Object where
  keeps before after := view after = view before
  made object := made (view object)
  refl _ := rfl
  trans former latter := latter.trans former

/-- A handler body and its completion handlers keep to a frame. -/
def Code.Steady {Object Fault : Type} (frame : Frame Object) : Code I Object Fault → Prop
  | .done => True
  | .trap _ => True
  | .look next => ∀ object, Steady frame (next object)
  | .modify change next =>
      (∀ object, frame.keeps object (change object)) ∧ Steady frame next
  | .alert _ next => Steady frame next
  | .call _ completion next =>
      (∀ response, Steady frame (completion response)) ∧ Steady frame next
  | .present object start => frame.made object ∧ Steady frame start

/-- From this object on, a handler body ends by creating an object with a property. -/
def Code.Opens {Object Fault : Type} (post : Object → Prop) : Code I Object Fault → Object → Prop
  | .done, _ => False
  | .trap _, _ => False
  | .look next, object => Opens post (next object) object
  | .modify change next, object => Opens post next (change object)
  | .alert _ next, object => Opens post next object
  | .call _ _ next, object => Opens post next object
  | .present created _, _ => post created

namespace Code

variable {Object Fault Value : Type} {frame : Frame Object}

/-- A forced unwrap changes nothing itself. -/
theorem steady_unwrap {value : Option Value} {fault : Fault}
    {next : Value → Code I Object Fault} (rest : ∀ found, (next found).Steady frame) :
    (unwrap value fault next).Steady frame := by
  cases value with
  | none => trivial
  | some found => exact rest found

end Code

namespace World

variable {frame : Frame app.Object} {world next : World app service}
  {event : Event app service}

/-- The objects of a world are still there later, in the same process and as a frame
keeps them. -/
def Retains (frame : Frame app.Object) (world later : World app service) : Prop :=
  ∀ (index : Nat) (target : Instance app), world.objects[index]? = some target →
    ∃ after, later.objects[index]? = some after ∧ after.process = target.process ∧
      frame.keeps target.object after.object

/-- The outstanding completion handlers keep to a frame. -/
def SteadyPending (frame : Frame app.Object) (world : World app service) : Prop :=
  ∀ pending ∈ world.pending, ∀ response, (pending.completion response).Steady frame

/-- What a run of handlers that keep to a frame leaves. -/
structure Stays (frame : Frame app.Object) (start world : World app service) : Prop where
  retains : Retains frame start world
  pending : SteadyPending frame world

theorem Retains.refl (world : World app service) : Retains frame world world :=
  fun _ target placed => ⟨target, placed, rfl, frame.refl _⟩

theorem Retains.trans {first second third : World app service}
    (former : Retains frame first second) (latter : Retains frame second third) :
    Retains frame first third := by
  intro index target placed
  obtain ⟨middle, still, process, same⟩ := former index target placed
  obtain ⟨last, present, process', same'⟩ := latter index middle still
  exact ⟨last, present, process'.trans process, frame.trans same same'⟩

/-- A change of one object within a frame. -/
theorem retains_setObject {self : Nat} {target changed : Instance app}
    (placed : world.objects[self]? = some target) (process : changed.process = target.process)
    (kept : frame.keeps target.object changed.object) :
    Retains frame world (world.setObject self changed) := by
  intro index other found
  by_cases here : self = index
  · subst here
    obtain rfl := Option.some.inj (placed.symm.trans found)
    have bound := (List.getElem?_eq_some_iff.mp placed).1
    exact ⟨changed, by simp [setObject, bound], process, kept⟩
  · exact ⟨other, (List.getElem?_set_ne here).trans found, rfl, frame.refl _⟩

/-- A new object leaves the others alone. -/
theorem retains_append {added : List (Instance app)} :
    Retains frame world { world with objects := world.objects ++ added } := by
  intro index target placed
  have bound := (List.getElem?_eq_some_iff.mp placed).1
  exact ⟨target, (List.getElem?_append_left bound).trans placed, rfl, frame.refl _⟩

/-- A handler body that keeps to a frame goes on retaining all objects. -/
theorem exec_retains {start : World app service} {self : Nat} {past : Past app}
    {code : Code I app.Object app.Fault} {target : Instance app} (steady : code.Steady frame)
    (placed : world.objects[self]? = some target) (older : Retains frame start world) :
    Retains frame start (exec self past code target world) := by
  induction code generalizing self target world with
  | done => exact older
  | trap fault => exact older
  | look next inductionHypothesis => exact inductionHypothesis _ (steady _) placed older
  | modify change next inductionHypothesis =>
      have bound := (List.getElem?_eq_some_iff.mp placed).1
      refine inductionHypothesis steady.2 (by simp [setObject, bound]) (older.trans ?_)
      exact retains_setObject placed rfl (steady.1 target.object)
  | alert title next inductionHypothesis =>
      simp only [exec]
      exact inductionHypothesis steady placed older
  | call request completion next _ inductionHypothesis =>
      simp only [exec]
      exact inductionHypothesis steady.2 placed older
  | present object begin inductionHypothesis =>
      exact inductionHypothesis steady.2 (by simp) (older.trans retains_append)

/-- Under a frame that creates nothing, every object after a handler body is one from
before, as the frame keeps it. -/
theorem exec_origin (none : ∀ object, ¬ frame.made object) {self index : Nat} {past : Past app}
    {code : Code I app.Object app.Fault} {target after : Instance app}
    (steady : code.Steady frame) (placed : world.objects[self]? = some target)
    (found : (exec self past code target world).objects[index]? = some after) :
    ∃ before, world.objects[index]? = some before ∧
      frame.keeps before.object after.object := by
  have length : (exec self past code target world).objects.length = world.objects.length := by
    clear found placed
    induction code generalizing self target world with
    | done => rfl
    | trap fault => rfl
    | look next inductionHypothesis => exact inductionHypothesis _ (steady _)
    | modify change next inductionHypothesis =>
        simp only [exec]
        rw [inductionHypothesis steady.2]
        simp [setObject]
    | alert title next inductionHypothesis =>
        simp only [exec]
        rw [inductionHypothesis steady]
    | call request completion next _ inductionHypothesis =>
        simp only [exec]
        rw [inductionHypothesis steady.2]
    | present object start => exact absurd steady.1 (none object)
  have bound := (List.getElem?_eq_some_iff.mp found).1
  rw [length] at bound
  have before : world.objects[index]? = some world.objects[index] := List.getElem?_eq_getElem bound
  obtain ⟨last, present, _, kept⟩ := exec_retains steady placed (.refl world) index _ before
  obtain rfl := Option.some.inj (found.symm.trans present)
  exact ⟨_, before, kept⟩

/-- A handler body that ends by creating an object creates it at the next place. -/
theorem exec_opens {post : app.Object → Prop} {self : Nat} {past : Past app}
    {code : Code I app.Object app.Fault} {target : Instance app}
    (opens : code.Opens post target.object) (steady : code.Steady frame) :
    ∃ created after, post created ∧
      (exec self past code target world).objects[world.objects.length]? = some after ∧
      after.process = target.process ∧ frame.keeps created after.object := by
  induction code generalizing self target world with
  | done => exact opens.elim
  | trap fault => exact opens.elim
  | look next inductionHypothesis => exact inductionHypothesis _ opens (steady _)
  | modify change next inductionHypothesis =>
      have length : world.objects.length = (world.setObject self
          { target with object := change target.object }).objects.length := by simp [setObject]
      rw [length]
      simp only [exec]
      exact inductionHypothesis opens steady.2
  | alert title next inductionHypothesis =>
      simp only [exec]
      exact inductionHypothesis opens steady
  | call request completion next _ inductionHypothesis =>
      simp only [exec]
      exact inductionHypothesis opens steady.2
  | present object start =>
      let created : Instance app := { target with object := object }
      let opened : World app service := { world with objects := world.objects ++ [created] }
      have placed : opened.objects[world.objects.length]? = some created := by simp [opened]
      have retains : Retains frame opened (exec world.objects.length past start created opened) :=
        exec_retains steady.2 placed (.refl opened)
      obtain ⟨after, still, process, kept⟩ := retains _ created placed
      exact ⟨object, after, opens, still, process, kept⟩

/-- An input whose handler ends by creating an object, in a process that still runs. -/
theorem step_opens {post : app.Object → Prop} {self : Nat} {input : app.Input}
    {target : Instance app} (steady : (app.handler input).Steady frame)
    (placed : world.objects[self]? = some target) (runs : world.crashed target.process = false)
    (opens : (app.handler input).Opens post target.object) :
    ∃ next, world.step (.input self input) = some next ∧
      ∃ created after, post created ∧ next.objects[world.objects.length]? = some after ∧
        after.process = target.process ∧ frame.keeps created after.object := by
  let ticked : World app service := { world with clock := world.clock + 1 }
  refine ⟨exec self ⟨⟨world.clock, self, input, target.object⟩, []⟩ (app.handler input) target
    ticked, by simp [step, placed, runs, ticked], ?_⟩
  exact exec_opens opens steady

/-- The completion handlers that a handler body leaves keep to the frame, too. -/
theorem exec_steadyPending {self : Nat} {past : Past app} {code : Code I app.Object app.Fault}
    {target : Instance app} (steady : code.Steady frame)
    (older : SteadyPending frame world) :
    SteadyPending frame (exec self past code target world) := by
  induction code generalizing self target world with
  | done => exact older
  | trap fault => exact older
  | look next inductionHypothesis => exact inductionHypothesis _ (steady _) older
  | modify change next inductionHypothesis => exact inductionHypothesis steady.2 older
  | alert title next inductionHypothesis => exact inductionHypothesis steady older
  | call request completion next _ inductionHypothesis =>
      refine inductionHypothesis steady.2 fun pending member => ?_
      rcases List.mem_append.mp member with old | added
      · exact older pending old
      · obtain rfl := List.mem_singleton.mp added
        exact steady.1
  | present object start inductionHypothesis => exact inductionHypothesis steady.2 older

/-- A step of handlers that keep to a frame. -/
theorem steady_of_step (handlers : ∀ input, (app.handler input).Steady frame)
    (older : SteadyPending frame world) (taken : world.step event = some next) :
    Stays frame world next := by
  cases stepped_of_step taken with
  | launched => exact ⟨retains_append, older⟩
  | @began self input target placed =>
      refine ⟨exec_retains (handlers input) placed ?_, exec_steadyPending (handlers input) older⟩
      exact .refl world
  | @served index self choice past request completion later response found =>
      refine ⟨.refl world, fun pending member => ?_⟩
      rcases List.mem_or_eq_of_mem_set member with old | rfl
      · exact older pending old
      · exact older ⟨self, past, request, completion, none⟩ (List.mem_of_getElem? found)
  | @completed index self past request completion response target found placed =>
      have steady := older _ (List.mem_of_getElem? found) response
      refine ⟨exec_retains steady placed ?_, exec_steadyPending steady fun pending member =>
        older pending (List.mem_of_mem_eraseIdx member)⟩
      exact .refl world

/-- Runs of handlers that keep to a frame retain all objects. -/
theorem steady_of_reachable {guard : (machine app service).Guard} {start : World app service}
    (handlers : ∀ input, (app.handler input).Steady frame)
    (older : SteadyPending frame start)
    (reached : Machine.Reachable guard start world) : Stays frame start world := by
  refine reached.invariant ⟨.refl start, older⟩ fun stays _ taken => ?_
  have stepped := steady_of_step handlers stays.pending taken
  exact ⟨stays.retains.trans stepped.retains, stepped.pending⟩

/-- No operation is outstanding before any process has started. -/
theorem steadyPending_initial {server : service.State} :
    SteadyPending frame (World.initial app server) := by
  intro pending member
  cases member

section Objects

variable {holds : app.Object → Prop}

/-- All objects have a property. -/
def Inhabited (holds : app.Object → Prop) (world : World app service) : Prop :=
  ∀ target ∈ world.objects, holds target.object

/-- A property that a frame keeps, and has of the objects it may create, holds of all
objects after a handler body. -/
theorem exec_inhabited
    (kept : ∀ {before after}, frame.keeps before after → holds before → holds after)
    (made : ∀ object, frame.made object → holds object) {self : Nat}
    {past : Past app} {code : Code I app.Object app.Fault} {target : Instance app}
    (steady : code.Steady frame) (valid : holds target.object) (older : Inhabited holds world) :
    Inhabited holds (exec self past code target world) := by
  induction code generalizing self target world with
  | done => exact older
  | trap fault => exact older
  | look next inductionHypothesis => exact inductionHypothesis _ (steady _) valid older
  | modify change next inductionHypothesis =>
      have changed := kept (steady.1 target.object) valid
      simp only [exec]
      refine inductionHypothesis steady.2 (by exact changed) fun other member => ?_
      rcases List.mem_or_eq_of_mem_set member with old | rfl
      · exact older other old
      · exact changed
  | alert title next inductionHypothesis => exact inductionHypothesis steady valid older
  | call request completion next _ inductionHypothesis =>
      exact inductionHypothesis steady.2 valid older
  | present object start inductionHypothesis =>
      have created := made object steady.1
      simp only [exec]
      refine inductionHypothesis steady.2 (by exact created) fun other member => ?_
      rcases List.mem_append.mp member with old | added
      · exact older other old
      · obtain rfl := List.mem_singleton.mp added
        exact created

/-- Handlers keep to a frame, and all objects have a property. -/
structure Houses (frame : Frame app.Object) (holds : app.Object → Prop)
    (world : World app service) : Prop where
  pending : SteadyPending frame world
  objects : Inhabited holds world

/-- What a frame keeps holds of all objects in the runs that open such objects only. -/
theorem inhabited_of_reachable {guard : (machine app service).Guard} {server : service.State}
    (kept : ∀ {before after}, frame.keeps before after → holds before → holds after)
    (made : ∀ object, frame.made object → holds object)
    (handlers : ∀ input, (app.handler input).Steady frame)
    (opened : ∀ {world : World app service} {process root}, guard world (.launch process root) →
      holds (app.root root))
    (reached : Machine.Reachable guard (World.initial app server) world) :
    Inhabited holds world := by
  have initial : Houses frame holds (World.initial app server : World app service) :=
    ⟨steadyPending_initial, nofun⟩
  refine (reached.invariant initial ?_ : Houses frame holds world).objects
  intro state event next older meets taken
  refine ⟨(steady_of_step handlers older.pending taken).pending, ?_⟩
  cases stepped_of_step taken with
  | launched =>
      intro target member
      rcases List.mem_append.mp member with old | added
      · exact older.objects target old
      · obtain rfl := List.mem_singleton.mp added
        exact opened meets
  | served => exact older.objects
  | @began self input target placed =>
      have valid := older.objects target (List.mem_of_getElem? placed)
      exact exec_inhabited kept made (handlers input) valid older.objects
  | @completed index self past request completion response target found placed =>
      have valid := older.objects target (List.mem_of_getElem? placed)
      have steady := older.pending _ (List.mem_of_getElem? found) response
      exact exec_inhabited kept made steady valid older.objects

end Objects

end World

end Gbc.Callback
