import Gbc.Callback.History

/-!
# What the events of a run tell

A world does not remember its inputs, so what a user has entered is told by the events that
have led to it. A `Chronicle` says what they tell of each object and of each request. If every
handler body keeps to it, also in the completion handlers that run after further events, then
it holds in every recorded run.
-/

namespace Gbc.Callback

variable {I : Interface} {app : App I} {service : Service I}

/-- What the events so far tell of the object at an index and of a request. -/
structure Chronicle (app : App I) (service : Service I) where
  Object : List (Event app service) → Nat → app.Object → Prop
  Request : List (Event app service) → Past app → I.Request → Prop

namespace Chronicle

variable {chronicle : Chronicle app service}

/-- A handler body of the object `self` leaves objects and starts operations of which the
events so far tell, and so do its completion handlers after any further events. -/
def Tells (chronicle : Chronicle app service) :
    List (Event app service) → Nat → Past app → Code I app.Object app.Fault → app.Object → Prop
  | _, _, _, .done, _ => True
  | _, _, _, .trap _, _ => True
  | events, self, past, .look next, object => Tells chronicle events self past (next object) object
  | events, self, past, .modify change next, object =>
      chronicle.Object events self (change object) ∧
        Tells chronicle events self past next (change object)
  | events, self, past, .alert _ next, object => Tells chronicle events self past next object
  | events, self, past, .call request completion next, object =>
      chronicle.Request events past request ∧
      (∀ later response target, events ⊆ later → chronicle.Object later self target →
        Tells chronicle later self (past.answered request response) (completion response)
          target) ∧
      Tells chronicle events self past next object
  | events, _, past, .present object start, _ =>
      ∀ place, chronicle.Object events place object ∧
        Tells chronicle events place past start object

section Rules

variable {events : List (Event app service)} {self : Nat} {past : Past app}
  {object : app.Object}

/-- A forced unwrap goes on with its value. -/
theorem tells_unwrap {Value : Type} {value : Option Value} {fault : app.Fault}
    {next : Value → Code I app.Object app.Fault}
    (found : ∀ inner, value = some inner →
      chronicle.Tells events self past (next inner) object) :
    chronicle.Tells events self past (.unwrap value fault next) object := by
  cases value with
  | none => trivial
  | some inner => exact found inner rfl

/-- An operation without a completion handler. -/
theorem tells_fire {request : I.Request} {next : Code I app.Object app.Fault}
    (told : chronicle.Request events past request)
    (rest : chronicle.Tells events self past next object) :
    chronicle.Tells events self past (.fire request next) object :=
  ⟨told, fun _ _ _ _ _ => trivial, rest⟩

end Rules

/-- Further events take nothing back, and the handler of an input keeps to the chronicle. -/
structure Sound (chronicle : Chronicle app service) : Prop where
  object {events later : List (Event app service)} {index : Nat} {object : app.Object} :
    events ⊆ later → chronicle.Object events index object → chronicle.Object later index object
  request {events later : List (Event app service)} {past : Past app} {request : I.Request} :
    events ⊆ later → chronicle.Request events past request →
    chronicle.Request later past request
  root (events : List (Event app service)) (index : Nat) (root : app.Root) :
    chronicle.Object events index (app.root root)
  input {events : List (Event app service)} {past : Past app} :
    chronicle.Object events past.entry.self past.entry.object →
    .input past.entry.self past.entry.input ∈ events → past.trail = [] →
    chronicle.Tells events past.entry.self past (app.handler past.entry.input) past.entry.object

/-- The chronicle holds of all objects and requests of a world. -/
structure Holds (chronicle : Chronicle app service) (events : List (Event app service))
    (world : World app service) : Prop where
  objects : ∀ index target, world.objects[index]? = some target →
    chronicle.Object events index target.object
  pending : ∀ pending ∈ world.pending, chronicle.Request events pending.past pending.request ∧
    ∀ later response target, events ⊆ later → chronicle.Object later pending.self target →
      chronicle.Tells later pending.self (pending.past.answered pending.request response)
        (pending.completion response) target
  acknowledged : ∀ handled ∈ world.acknowledged,
    chronicle.Request events handled.1 handled.2.request

section Steps

open World

variable {events : List (Event app service)} {event : Event app service}
  {world next : World app service}

theorem Holds.answered (holds : chronicle.Holds events world) {past : Past app}
    {exchange : Exchange I} (answered : world.Answered past exchange) :
    chronicle.Request events past exchange.request := by
  cases answered with
  | handled member => exact holds.acknowledged _ member
  | awaiting member => exact (holds.pending _ member).1

/-- Further events take nothing back. -/
theorem Holds.later (sound : chronicle.Sound) {later : List (Event app service)}
    (longer : events ⊆ later) (holds : chronicle.Holds events world) :
    chronicle.Holds later world where
  objects index target placed := sound.object longer (holds.objects index target placed)
  pending pending member :=
    ⟨sound.request longer (holds.pending pending member).1,
      fun last response target further => (holds.pending pending member).2 last response target
        (List.Subset.trans longer further)⟩
  acknowledged handled member := sound.request longer (holds.acknowledged handled member)

/-- A new object of which the events tell. -/
theorem Holds.created (holds : chronicle.Holds events world) {target : Instance app}
    (told : chronicle.Object events world.objects.length target.object) :
    chronicle.Holds events { world with objects := world.objects ++ [target] } where
  objects := by
    intro index other found
    rcases Nat.lt_or_ge index world.objects.length with below | beyond
    · rw [List.getElem?_append_left below] at found
      exact holds.objects index other found
    · rw [List.getElem?_append_right beyond, List.getElem?_singleton] at found
      split at found
      · obtain rfl : index = world.objects.length := by omega
        cases found
        exact told
      · cases found
  pending := holds.pending
  acknowledged := holds.acknowledged

/-- A handler body that keeps to the chronicle. -/
theorem Holds.exec {self : Nat} {past : Past app} {code : Code I app.Object app.Fault}
    {target : Instance app} (holds : chronicle.Holds events world)
    (tells : chronicle.Tells events self past code target.object) :
    chronicle.Holds events (World.exec self past code target world) := by
  induction code generalizing self target world with
  | done => exact holds
  | trap fault => exact ⟨holds.objects, holds.pending, holds.acknowledged⟩
  | look following inductionHypothesis => exact inductionHypothesis _ holds tells
  | modify change following inductionHypothesis =>
      refine inductionHypothesis ⟨?_, holds.pending, holds.acknowledged⟩ tells.2
      intro index other found
      rw [setObject, List.getElem?_set] at found
      split at found
      · obtain ⟨-, same⟩ := Option.ite_none_right_eq_some.mp found
        rename_i here
        cases same
        exact here ▸ tells.1
      · exact holds.objects index other found
  | alert title following inductionHypothesis =>
      exact inductionHypothesis ⟨holds.objects, holds.pending, holds.acknowledged⟩ tells
  | call request completion following _ inductionHypothesis =>
      refine inductionHypothesis ⟨holds.objects, ?_, holds.acknowledged⟩ tells.2.2
      intro pending member
      rcases List.mem_append.mp member with older | added
      · exact holds.pending pending older
      · obtain rfl := List.mem_singleton.mp added
        exact ⟨tells.1, tells.2.1⟩
  | present object start inductionHypothesis =>
      let created : Instance app := { target with object := object }
      have told : chronicle.Object events world.objects.length created.object ∧
          chronicle.Tells events world.objects.length past start created.object :=
        tells world.objects.length
      exact inductionHypothesis (holds.created told.1) told.2

/-- A step of a program that keeps to its chronicle. -/
theorem Holds.step (sound : chronicle.Sound) (holds : chronicle.Holds events world)
    (taken : world.step event = some next) : chronicle.Holds (event :: events) next := by
  have kept : chronicle.Holds (event :: events) world :=
    holds.later sound (List.subset_cons_self event events)
  cases stepped_of_step taken with
  | launched => exact kept.created (sound.root _ _ _)
  | @began self input target placed =>
      have ticked : chronicle.Holds (.input self input :: events)
          { world with clock := world.clock + 1 } :=
        ⟨kept.objects, kept.pending, kept.acknowledged⟩
      let past : Past app := ⟨⟨world.clock, self, input, target.object⟩, []⟩
      have tells : chronicle.Tells (.input self input :: events) self past (app.handler input)
          target.object :=
        @Sound.input _ _ _ _ sound _ past (kept.objects self target placed) List.mem_cons_self rfl
      exact ticked.exec tells
  | @served index self choice past request completion later response found =>
      refine ⟨kept.objects, fun pending member => ?_, kept.acknowledged⟩
      rcases List.mem_or_eq_of_mem_set member with older | rfl
      · exact kept.pending pending older
      · exact kept.pending ⟨self, past, request, completion, none⟩ (List.mem_of_getElem? found)
  | @completed index self past request completion response target found placed =>
      obtain ⟨requested, tells⟩ := kept.pending _ (List.mem_of_getElem? found)
      have handled : chronicle.Holds (.reply index :: events) { world with
          pending := world.pending.eraseIdx index
          acknowledged := (past, ⟨request, response⟩) :: world.acknowledged } := by
        refine ⟨kept.objects, fun pending member =>
          kept.pending pending (List.mem_of_mem_eraseIdx member), fun other member => ?_⟩
        rcases List.mem_cons.mp member with rfl | older
        · exact requested
        · exact kept.acknowledged other older
      exact handled.exec (tells _ response target.object (List.Subset.refl _)
        (kept.objects self target placed))

/-- In every recorded run, the events tell of all objects and requests what the chronicle
says. -/
theorem holds_of_recorded {server : service.State} (sound : chronicle.Sound)
    (reached : (machine app service).recording.Reaches (machine app service).recording.anyStep
      (World.initial app server, []) (world, events)) : chronicle.Holds events world := by
  have initial : chronicle.Holds [] (World.initial app server) := by
    refine ⟨?_, ?_, ?_⟩
    · intro index target placed
      cases placed
    · intro pending member
      cases member
    · intro handled member
      cases member
  exact Machine.Reachable.recorded (m := machine app service) initial
    (fun _ _ _ _ holds taken => Holds.step sound holds taken) reached

end Steps

end Chronicle

end Gbc.Callback
