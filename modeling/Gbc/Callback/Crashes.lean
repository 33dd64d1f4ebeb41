import Gbc.Callback.Settling

/-!
# Why processes stop

A process that stops runs no further handler, so its objects stay as they were then. A
`Diagnosis` reads the cause off one of them, off the input that began the chain of handlers,
which was the input of an object of this process, and off the answers in it. If every trap of
a handler has its cause, then in every run each stopped process has stopped once and shows why.
-/

namespace Gbc.Callback

variable {I : Interface} {app : App I} {service : Service I}

/-- What holds of the objects and of the answers of the backend, and the causes of traps. -/
structure Diagnosis (app : App I) where
  Object : app.Object → Prop
  Response : (request : I.Request) → I.Response request → Prop
  Cause : Past app → app.Object → app.Fault → Prop

namespace Diagnosis

variable {diagnosis : Diagnosis app}

/-- Every trap of a handler body has its cause, now and in all of its completion handlers. -/
def Explains (diagnosis : Diagnosis app) :
    Past app → Code I app.Object app.Fault → app.Object → Prop
  | _, .done, _ => True
  | past, .trap fault, object => diagnosis.Cause past object fault
  | past, .look next, object => Explains diagnosis past (next object) object
  | past, .modify change next, object =>
      diagnosis.Object (change object) ∧ Explains diagnosis past next (change object)
  | past, .alert _ next, object => Explains diagnosis past next object
  | past, .call request completion next, object =>
      (∀ response target, diagnosis.Response request response → diagnosis.Object target →
        Explains diagnosis (past.answered request response) (completion response) target) ∧
      Explains diagnosis past next object
  | past, .present object start, _ =>
      diagnosis.Object object ∧ Explains diagnosis past start object

section Rules

variable {past : Past app} {object : app.Object}

/-- A forced unwrap traps on no value. -/
theorem explains_unwrap {Value : Type} {value : Option Value} {fault : app.Fault}
    {next : Value → Code I app.Object app.Fault} :
    diagnosis.Explains past (.unwrap value fault next) object ↔
      (value = none → diagnosis.Cause past object fault) ∧
      ∀ found, value = some found → diagnosis.Explains past (next found) object := by
  cases value <;> simp [Code.unwrap, Explains]

/-- An operation without a completion handler explains nothing. -/
theorem explains_fire {request : I.Request} {next : Code I app.Object app.Fault} :
    diagnosis.Explains past (.fire request next) object ↔
      diagnosis.Explains past next object := by
  simp [Code.fire, Explains]

end Rules

/-- The chain of handlers has begun with an input, and its answers have been handled. -/
structure Happened (events : List (Event app service))
    (acknowledged : List (Past app × Exchange I)) (past : Past app) : Prop where
  began : .input past.entry.self past.entry.input ∈ events
  answered : ∀ exchange trail, past.trail = exchange :: trail →
    (⟨past.entry, trail⟩, exchange) ∈ acknowledged

/-- An object of the stopped process shows why that has stopped. -/
def Shows (diagnosis : Diagnosis app) (events : List (Event app service))
    (world : World app service) (stopped : Nat × app.Fault) : Prop :=
  ∃ (past : Past app) (index : Nat) (object : app.Object),
    Happened events world.acknowledged past ∧
    world.processOf past.entry.self = some stopped.1 ∧
    world.objects[index]? = some ⟨stopped.1, object⟩ ∧ diagnosis.Cause past object stopped.2

/-- The answers that completion handlers still wait for are as the diagnosis has them. -/
def Reliable (diagnosis : Diagnosis app) (world : World app service) : Prop :=
  ∀ pending ∈ world.pending, ∀ response, pending.answer = some response →
    diagnosis.Response pending.request response

/-- All traps have had their causes, and all that are still to come will have theirs. -/
structure Explained (diagnosis : Diagnosis app) (events : List (Event app service))
    (world : World app service) : Prop where
  objects : ∀ target ∈ world.objects, diagnosis.Object target.object
  pending : ∀ pending ∈ world.pending, Happened events world.acknowledged pending.past ∧
    ∀ response target, diagnosis.Response pending.request response → diagnosis.Object target →
      diagnosis.Explains (pending.past.answered pending.request response)
        (pending.completion response) target
  faults : ∀ stopped ∈ world.faults, diagnosis.Shows events world stopped
  once : (world.faults.map Prod.fst).Nodup

section Steps

open World

variable {world later next : World app service} {events : List (Event app service)}
  {event : Event app service}

/-- What has happened stays so. -/
theorem Happened.keep {acknowledged longer : List (Past app × Exchange I)} {past : Past app}
    (happened : Happened events acknowledged past) (kept : acknowledged ⊆ longer) :
    Happened (event :: events) longer past :=
  ⟨List.mem_cons_of_mem _ happened.began,
    fun exchange trail same => kept (happened.answered exchange trail same)⟩

/-- Neither the events nor the answers are forgotten. -/
theorem Explained.keep (explained : diagnosis.Explained events world)
    (objects : later.objects = world.objects) (faults : later.faults = world.faults)
    (acknowledged : world.acknowledged ⊆ later.acknowledged)
    (pending : ∀ operation ∈ later.pending, ∃ older ∈ world.pending,
      ∃ answer, operation = { older with answer := answer }) :
    diagnosis.Explained (event :: events) later where
  objects := objects ▸ explained.objects
  pending := by
    intro operation member
    obtain ⟨older, outstanding, answer, rfl⟩ := pending operation member
    obtain ⟨happened, explains⟩ := explained.pending older outstanding
    exact ⟨happened.keep acknowledged, explains⟩
  faults := by
    intro stopped member
    rw [faults] at member
    obtain ⟨past, index, object, happened, home, placed, cause⟩ :=
      explained.faults stopped member
    refine ⟨past, index, object, happened.keep acknowledged, ?_, objects ▸ placed, cause⟩
    simpa only [processOf, objects] using home
  once := faults ▸ explained.once

theorem not_crashed_iff {process : Nat} :
    world.crashed process = false ↔ process ∉ world.faults.map Prod.fst := by
  constructor
  · intro runs member
    obtain ⟨stopped, listed, rfl⟩ := List.mem_map.mp member
    exact List.any_eq_false.mp runs stopped listed (beq_self_eq_true _)
  · intro absent
    refine List.any_eq_false.mpr fun stopped listed same => absent ?_
    exact List.mem_map.mpr ⟨stopped, listed, beq_iff_eq.mp same⟩

/-- A handler of a process that runs. -/
theorem Explained.exec {self : Nat} {past : Past app} {code : Code I app.Object app.Fault}
    {target : Instance app} (explained : diagnosis.Explained events world)
    (happened : Happened events world.acknowledged past)
    (home : world.processOf past.entry.self = some target.process)
    (placed : world.objects[self]? = some target) (runs : world.crashed target.process = false)
    (explains : diagnosis.Explains past code target.object) :
    diagnosis.Explained events (World.exec self past code target world) := by
  induction code generalizing self target world with
  | done => exact explained
  | trap fault =>
      refine ⟨explained.objects, explained.pending, ?_, ?_⟩
      · intro stopped member
        rcases List.mem_cons.mp member with rfl | older
        · exact ⟨past, self, target.object, happened, home, placed, explains⟩
        · exact explained.faults stopped older
      · exact List.nodup_cons.mpr ⟨not_crashed_iff.mp runs, explained.once⟩
  | look following inductionHypothesis =>
      exact inductionHypothesis _ explained happened home placed runs explains
  | modify change following inductionHypothesis =>
      have bound := (List.getElem?_eq_some_iff.mp placed).1
      have retains : Retains unlimited world
          (world.setObject self { target with object := change target.object }) :=
        retains_setObject placed rfl rfl
      refine inductionHypothesis ?_ happened (retains.processOf home)
        (by simp [setObject, bound]) runs explains.2
      refine ⟨?_, explained.pending, ?_, explained.once⟩
      · intro other member
        rcases List.mem_or_eq_of_mem_set member with older | rfl
        · exact explained.objects other older
        · exact explains.1
      · intro stopped member
        obtain ⟨older, index, object, began, own, found, cause⟩ :=
          explained.faults stopped member
        -- the objects of a stopped process are not those of a running one
        have elsewhere : self ≠ index := by
          rintro rfl
          cases found.symm.trans placed
          exact not_crashed_iff.mp runs (List.mem_map_of_mem member)
        exact ⟨older, index, object, began, retains.processOf own,
          (List.getElem?_set_ne elsewhere).trans found, cause⟩
  | alert title following inductionHypothesis =>
      refine inductionHypothesis ?_ happened home placed runs explains
      exact ⟨explained.objects, explained.pending, explained.faults, explained.once⟩
  | call request completion following _ inductionHypothesis =>
      refine inductionHypothesis ?_ happened home placed runs explains.2
      refine ⟨explained.objects, ?_, explained.faults, explained.once⟩
      intro operation member
      rcases List.mem_append.mp member with older | added
      · exact explained.pending operation older
      · obtain rfl := List.mem_singleton.mp added
        exact ⟨happened, explains.1⟩
  | present object start inductionHypothesis =>
      have retains : Retains unlimited world
          { world with objects := world.objects ++ [⟨target.process, object⟩] } := retains_append
      refine inductionHypothesis ?_ happened (retains.processOf home) (by simp) runs explains.2
      refine ⟨?_, explained.pending, ?_, explained.once⟩
      · intro other member
        rcases List.mem_append.mp member with older | added
        · exact explained.objects other older
        · obtain rfl := List.mem_singleton.mp added
          exact explains.1
      · intro stopped member
        obtain ⟨older, index, shown, began, own, found, cause⟩ := explained.faults stopped member
        have bound := (List.getElem?_eq_some_iff.mp found).1
        exact ⟨older, index, shown, began, retains.processOf own,
          (List.getElem?_append_left bound).trans found, cause⟩

/-- A step of a program whose traps have their causes, over answers as the diagnosis has
them. -/
theorem Explained.step (roots : ∀ root, diagnosis.Object (app.root root))
    (handlers : ∀ past, diagnosis.Object past.entry.object → past.trail = [] →
      diagnosis.Explains past (app.handler past.entry.input) past.entry.object)
    (reliable : diagnosis.Reliable world) (homed : world.Homed)
    (explained : diagnosis.Explained events world)
    (taken : world.step event = some next) : diagnosis.Explained (event :: events) next := by
  cases stepped_of_step taken with
  | @launched process root =>
      have kept : diagnosis.Explained (.launch process root :: events) world :=
        explained.keep rfl rfl (List.Subset.refl _) fun operation member =>
          ⟨operation, member, operation.answer, rfl⟩
      refine ⟨?_, kept.pending, ?_, kept.once⟩
      · intro other member
        rcases List.mem_append.mp member with older | added
        · exact kept.objects other older
        · obtain rfl := List.mem_singleton.mp added
          exact roots root
      · intro stopped member
        obtain ⟨past, index, object, happened, home, found, cause⟩ := kept.faults stopped member
        have bound := (List.getElem?_eq_some_iff.mp found).1
        exact ⟨past, index, object, happened, (retains_of_step taken).processOf home,
          (List.getElem?_append_left bound).trans found, cause⟩
  | @began self input target placed runs =>
      have kept : diagnosis.Explained (.input self input :: events)
          { world with clock := world.clock + 1 } :=
        explained.keep rfl rfl (List.Subset.refl _) fun operation member =>
          ⟨operation, member, operation.answer, rfl⟩
      have valid := explained.objects target (List.mem_of_getElem? placed)
      refine kept.exec ⟨List.mem_cons_self, ?_⟩ (by simp [processOf, placed]) placed runs
        (handlers ⟨⟨world.clock, self, input, target.object⟩, []⟩ valid rfl)
      intro exchange trail same
      cases same
  | @served index self choice past request completion later response found =>
      refine explained.keep rfl rfl (List.Subset.refl _) fun operation member => ?_
      rcases List.mem_or_eq_of_mem_set member with older | rfl
      · exact ⟨operation, older, operation.answer, rfl⟩
      · exact ⟨_, List.mem_of_getElem? found, some response, rfl⟩
  | @completed index self past request completion response target found placed runs =>
      have outstanding := List.mem_of_getElem? found
      obtain ⟨happened, explains⟩ := explained.pending _ outstanding
      obtain ⟨process, own, home⟩ := homed _ outstanding
      obtain rfl : target.process = process := by simpa [processOf, placed] using own
      have kept : diagnosis.Explained (.reply index :: events) { world with
          pending := world.pending.eraseIdx index
          acknowledged := (past, ⟨request, response⟩) :: world.acknowledged } :=
        explained.keep rfl rfl (List.subset_cons_self _ _) fun operation member =>
          ⟨operation, List.mem_of_mem_eraseIdx member, operation.answer, rfl⟩
      refine kept.exec ⟨List.mem_cons_of_mem _ happened.began, ?_⟩ home placed runs
        (explains response target.object (reliable _ outstanding response rfl)
          (explained.objects target (List.mem_of_getElem? placed)))
      intro exchange trail same
      cases same
      exact List.mem_cons_self

/-- In every run whose answers are as the diagnosis has them, every stopped process has
stopped once and shows why. -/
theorem explained_of_recorded {server : service.State}
    (roots : ∀ root, diagnosis.Object (app.root root))
    (handlers : ∀ past, diagnosis.Object past.entry.object → past.trail = [] →
      diagnosis.Explains past (app.handler past.entry.input) past.entry.object)
    (reliable : ∀ {world}, (machine app service).Reaches (machine app service).anyStep
      (World.initial app server) world → diagnosis.Reliable world)
    (reached : (machine app service).recording.Reaches (machine app service).recording.anyStep
      (World.initial app server, []) (world, events)) : diagnosis.Explained events world := by
  let holds (events : List (Event app service)) (world : World app service) : Prop :=
    (machine app service).Reaches (machine app service).anyStep (World.initial app server) world ∧
      world.Homed ∧ diagnosis.Explained events world
  have opened : holds [] (World.initial app server) := by
    refine ⟨.refl, ?_, ?_, ?_, ?_, List.nodup_nil⟩ <;>
      · intro _ member
        cases member
  have whole : holds events world := by
    refine Machine.Reachable.recorded (m := machine app service) opened ?_ reached
    intro events world event next ⟨prior, homed, explained⟩ taken
    exact ⟨.step prior rfl taken, homed.step taken,
      explained.step roots handlers (reliable prior) homed taken⟩
  exact whole.2.2

end Steps

end Diagnosis

end Gbc.Callback
