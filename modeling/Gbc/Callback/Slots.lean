import Gbc.Callback.History
import Gbc.Callback.Steady

/-!
# Values written by completion handlers

A slot is a value that objects of some classes hold and that only their completion
handlers write. In every world of a run it holds the value written by the operation
whose completion handler ran last, so what an object shows can be read off the order
in which answers were handled.
-/

namespace Gbc.Callback

variable {I : Interface} {app : App I} {service : Service I}

/-- Wherever a handler body ends without a trap, the object it runs on meets a
condition. -/
def Code.Ends {Object Fault : Type} (post : Object → Prop) : Code I Object Fault → Object → Prop
  | .done, object => post object
  | .trap _, _ => True
  | .look next, object => Ends post (next object) object
  | .modify change next, object => Ends post next (change object)
  | .alert _ next, object => Ends post next object
  | .call _ _ next, object => Ends post next object
  | .present _ _, object => post object

theorem Code.ends_trivial {Object Fault : Type} (code : Code I Object Fault) (object : Object) :
    code.Ends (fun _ => True) object := by
  induction code generalizing object with
  | look next inductionHypothesis => exact inductionHypothesis object object
  | modify change next inductionHypothesis => exact inductionHypothesis (change object)
  | alert title next inductionHypothesis => exact inductionHypothesis object
  | call request completion next _ inductionHypothesis => exact inductionHypothesis object
  | _ => trivial

theorem Code.Ends.imp {Object Fault : Type} {post weaker : Object → Prop}
    {code : Code I Object Fault} {object : Object} (implied : ∀ after, post after → weaker after)
    (ends : code.Ends post object) : code.Ends weaker object := by
  induction code generalizing object with
  | done => exact implied _ ends
  | trap fault => trivial
  | look next inductionHypothesis => exact inductionHypothesis object ends
  | modify change next inductionHypothesis => exact inductionHypothesis ends
  | alert title next inductionHypothesis => exact inductionHypothesis ends
  | call request completion next _ inductionHypothesis => exact inductionHypothesis ends
  | present created start => exact implied _ ends

/-- A value that some objects hold. An operation of such an object `writes` it when its
completion handler runs. -/
structure Slot (app : App I) where
  frame : Frame app.Object
  owner : app.Object → Prop
  Value : Type
  holds : Value → app.Object → Prop
  initial : Value
  writes : Past app → Exchange I → Option Value

namespace Slot

variable {slot : Slot app}

/-- A handler body starts no operation that writes the slot. -/
def Unwritten (slot : Slot app) : Past app → Code I app.Object app.Fault → Prop
  | _, .done => True
  | _, .trap _ => True
  | past, .look next => ∀ object, Unwritten slot past (next object)
  | past, .modify _ next => Unwritten slot past next
  | past, .alert _ next => Unwritten slot past next
  | past, .call request completion next =>
      (∀ response, slot.writes past ⟨request, response⟩ = none ∧
        Unwritten slot (past.answered request response) (completion response)) ∧
      Unwritten slot past next
  | past, .present _ start => Unwritten slot past start

/-- Each operation that a handler body starts for its object leaves in it what the
operation writes, or else what the object holds by then. -/
def Respects (slot : Slot app) :
    Past app → Code I app.Object app.Fault → app.Object → Prop
  | _, .done, _ => True
  | _, .trap _, _ => True
  | past, .look next, object => Respects slot past (next object) object
  | past, .modify change next, object => Respects slot past next (change object)
  | past, .alert _ next, object => Respects slot past next object
  | past, .call request completion next, object =>
      (∀ response target, slot.frame.keeps object target →
        (∀ value, slot.holds value target → (completion response).Ends
          (slot.holds ((slot.writes past ⟨request, response⟩).getD value)) target) ∧
        Respects slot (past.answered request response) (completion response) target) ∧
      Respects slot past next object
  | past, .present _ start, _ => Unwritten slot past start

/-- The handlers of a program write a slot through their operations only. -/
structure Sound (slot : Slot app) : Prop where
  steady : ∀ input, (app.handler input).Steady slot.frame
  owner : ∀ {before after}, slot.frame.keeps before after → (slot.owner after ↔ slot.owner before)
  made : ∀ object, slot.frame.made object → ¬ slot.owner object
  root : ∀ root, slot.owner (app.root root) → slot.holds slot.initial (app.root root)
  input : ∀ (past : Past app), past.trail = [] → slot.owner past.entry.object →
    (∀ value, slot.holds value past.entry.object →
      (app.handler past.entry.input).Ends (slot.holds value) past.entry.object) ∧
    slot.Respects past (app.handler past.entry.input) past.entry.object

theorem ends_unwrap {Object Fault Value : Type} {post : Object → Prop} {object : Object}
    {value : Option Value} {fault : Fault} {next : Value → Code I Object Fault}
    (rest : ∀ found, value = some found → (next found).Ends post object) :
    (Code.unwrap value fault next).Ends post object := by
  cases value with
  | none => trivial
  | some found => exact rest found rfl

theorem respects_unwrap {past : Past app} {object : app.Object} {Value : Type}
    {value : Option Value} {fault : app.Fault} {next : Value → Code I app.Object app.Fault}
    (rest : ∀ found, value = some found → slot.Respects past (next found) object) :
    slot.Respects past (Code.unwrap value fault next) object := by
  cases value with
  | none => trivial
  | some found => exact rest found rfl

/-- An entry whose operations write nothing starts no operation that does. -/
theorem unwritten_of_entry {past : Past app} {code : Code I app.Object app.Fault}
    (silent : ∀ trail exchange, slot.writes ⟨past.entry, trail⟩ exchange = none) :
    slot.Unwritten past code := by
  induction code generalizing past with
  | done => trivial
  | trap fault => trivial
  | look next inductionHypothesis => exact fun object => inductionHypothesis object silent
  | modify change next inductionHypothesis => exact inductionHypothesis silent
  | alert title next inductionHypothesis => exact inductionHypothesis silent
  | call request completion next completions inductionHypothesis =>
      exact ⟨fun response => ⟨silent _ _, completions response silent⟩,
        inductionHypothesis silent⟩
  | present object start inductionHypothesis => exact inductionHypothesis silent

end Slot

namespace World

variable {slot : Slot app} {world next : World app service} {event : Event app service}

/-- What the operation of an object that was handled last has written. -/
def lastWrite (slot : Slot app) (self : Nat) (world : World app service) :
    Option slot.Value :=
  world.acknowledged.findSome? fun handled =>
    if handled.1.entry.self = self then slot.writes handled.1 handled.2 else none

/-- The operation handled last decides, if it writes. -/
theorem lastWrite_of_acknowledged {later : World app service} {past : Past app}
    {exchange : Exchange I} (handled : later.acknowledged = (past, exchange) :: world.acknowledged)
    (index : Nat) :
    later.lastWrite slot index =
      (if past.entry.self = index then slot.writes past exchange else none).or
        (world.lastWrite slot index) := by
  unfold lastWrite
  rw [handled, List.findSome?_cons]
  split <;> simp_all

/-- The last write, where a slot is written by certain operations only. -/
theorem lastWrite_map {Entry : Type} {select : Past app → Exchange I → Option Entry}
    {value : Entry → slot.Value}
    (writes : ∀ past exchange, slot.writes past exchange = (select past exchange).map value)
    (world : World app service) (self : Nat) :
    world.lastWrite slot self =
      (world.acknowledged.findSome? fun handled =>
        if handled.1.entry.self = self then select handled.1 handled.2 else none).map value := by
  unfold lastWrite
  rw [List.map_findSome?]
  refine congrArg (fun write => List.findSome? write world.acknowledged) ?_
  funext handled
  simp only [Function.comp, writes]
  split <;> rfl

/-- How a handler body of this object may treat a slot: it respects the slot of its own
object, and one that runs on another object than it began with writes nothing. -/
structure Treats (slot : Slot app) (place : Nat) (past : Past app)
    (code : Code I app.Object app.Fault) (object : app.Object) : Prop where
  own : place = past.entry.self → slot.frame.keeps past.entry.object object ∧
    (slot.owner object → slot.Respects past code object)
  foreign : place ≠ past.entry.self → ¬ slot.owner object ∧
    (slot.owner past.entry.object → slot.Unwritten past code)

/-- An outstanding operation that treats a slot as it may when it is handled. -/
structure Minds (slot : Slot app) (world : World app service) (pending : Pending app) :
    Prop where
  placed : ∃ target, world.objects[pending.self]? = some target ∧
    ∀ response now, slot.frame.keeps target.object now →
      Treats slot pending.self (pending.past.answered pending.request response)
        (pending.completion response) now ∧
      (pending.self = pending.past.entry.self → slot.owner now →
        ∀ value, slot.holds value now → (pending.completion response).Ends
          (slot.holds ((slot.writes pending.past ⟨pending.request, response⟩).getD value)) now) ∧
      (pending.self ≠ pending.past.entry.self → slot.owner pending.past.entry.object →
        slot.writes pending.past ⟨pending.request, response⟩ = none)

/-- The slots of all objects hold what was written last. -/
structure Slotted (slot : Slot app) (world : World app service) : Prop where
  entry : ∀ past, world.Occurs past → ∃ target,
    world.objects[past.entry.self]? = some target ∧
      slot.frame.keeps past.entry.object target.object
  pending : ∀ pending ∈ world.pending, Minds slot world pending
  steady : SteadyPending slot.frame world
  value : ∀ (index : Nat) (target : Instance app), world.objects[index]? = some target →
    slot.owner target.object → world.crashed target.process = false →
    slot.holds ((world.lastWrite slot index).getD slot.initial) target.object

/-- A crash is never undone. -/
theorem exec_crashed {self process : Nat} {past : Past app} {code : Code I app.Object app.Fault}
    {target : Instance app} (runs : (exec self past code target world).crashed process = false) :
    world.crashed process = false := by
  induction code generalizing self target world with
  | done => exact runs
  | trap fault =>
      simp only [exec, crashed, List.any_cons, Bool.or_eq_false_iff] at runs
      exact runs.2
  | look next inductionHypothesis => exact inductionHypothesis _ runs
  | modify change next inductionHypothesis =>
      simp only [exec] at runs
      have before := inductionHypothesis runs
      exact before
  | alert title next inductionHypothesis =>
      simp only [exec] at runs
      have before := inductionHypothesis runs
      exact before
  | call request completion next _ inductionHypothesis =>
      simp only [exec] at runs
      have before := inductionHypothesis runs
      exact before
  | present object start inductionHypothesis =>
      simp only [exec] at runs
      have before := inductionHypothesis runs
      exact before

/-- The objects after a handler body has run on one of them: only that one has changed,
and it meets the condition of the body's ends. -/
structure Executed (slot : Slot app) (place : Nat) (post : app.Object → Prop)
    (process : Nat) (objects : List (Instance app)) (later : World app service) : Prop where
  others : ∀ index, index ≠ place → index < objects.length →
    later.objects[index]? = objects[index]?
  same : ∃ after, later.objects[place]? = some after ∧ after.process = process ∧
    (later.crashed process = false → post after.object)
  new : ∀ (index : Nat) (after : Instance app), objects.length ≤ index →
    later.objects[index]? = some after → ¬ slot.owner after.object

theorem exec_executed (sound : slot.Sound) {objects : List (Instance app)} {self : Nat}
    {post : app.Object → Prop} {past : Past app} {code : Code I app.Object app.Fault}
    {target : Instance app}
    (ends : code.Ends post target.object) (steady : code.Steady slot.frame)
    (listed : world.objects = objects) (placed : objects[self]? = some target) :
    Executed slot self post target.process objects (exec self past code target world) := by
  have bound := (List.getElem?_eq_some_iff.mp placed).1
  have absent : ∀ (index : Nat) (after : Instance app), objects.length ≤ index →
      objects[index]? = some after → ¬ slot.owner after.object := by
    intro index after beyond found
    exact absurd (List.getElem?_eq_some_iff.mp found).1 (Nat.not_lt.mpr beyond)
  induction code generalizing self target world objects post with
  | done =>
      subst listed
      exact ⟨fun _ _ _ => rfl, ⟨target, placed, rfl, fun _ => ends⟩, absent⟩
  | trap fault =>
      subst listed
      refine ⟨fun _ _ _ => rfl, ⟨target, placed, rfl, fun runs => ?_⟩, absent⟩
      simp [exec, crashed] at runs
  | look next inductionHypothesis =>
      exact inductionHypothesis _ ends (steady _) listed placed bound absent
  | modify change next inductionHypothesis =>
      subst listed
      let changed : Instance app := { target with object := change target.object }
      have executed : Executed slot self post changed.process
          (world.setObject self changed).objects
          (exec self past next changed (world.setObject self changed)) := by
        refine inductionHypothesis ends steady.2 rfl ?_ ?_ ?_
        · simp [setObject, bound, changed]
        · simpa [setObject] using bound
        · intro index after beyond found
          exact absurd (List.getElem?_eq_some_iff.mp found).1 (Nat.not_lt.mpr beyond)
      refine ⟨fun index other below => ?_, executed.same, fun index after beyond found => ?_⟩
      · refine (executed.others index other ?_).trans (List.getElem?_set_ne (Ne.symm other))
        simpa [setObject] using below
      · refine executed.new index after ?_ found
        simpa [setObject] using beyond
  | alert title next inductionHypothesis =>
      simp only [exec]
      exact inductionHypothesis ends steady listed placed bound absent
  | call request completion next _ inductionHypothesis =>
      simp only [exec]
      exact inductionHypothesis ends steady.2 listed placed bound absent
  | present object start inductionHypothesis =>
      subst listed
      let created : Instance app := { target with object := object }
      let opened : World app service := { world with objects := world.objects ++ [created] }
      have executed : Executed slot world.objects.length (fun _ => True) created.process
          opened.objects (exec world.objects.length past start created opened) := by
        refine inductionHypothesis ?_ steady.2 rfl ?_ ?_ ?_
        · exact Code.ends_trivial start object
        · simp [opened]
        · simp [opened]
        · intro index after beyond found
          exact absurd (List.getElem?_eq_some_iff.mp found).1 (Nat.not_lt.mpr beyond)
      have retained : Retains slot.frame opened
          (exec world.objects.length past start created opened) :=
        exec_retains steady.2 (by simp [opened]) (.refl opened)
      have kept : ∀ index, index < world.objects.length →
          (exec world.objects.length past start created opened).objects[index]? =
            world.objects[index]? := by
        intro index below
        refine (executed.others index (Nat.ne_of_lt below) ?_).trans
          (List.getElem?_append_left below)
        exact Nat.lt_of_lt_of_le below (by simp [opened])
      refine ⟨fun index _ below => kept index below,
        ⟨target, (kept self bound).trans placed, rfl, fun _ => ends⟩, ?_⟩
      intro index after beyond found
      rcases Nat.eq_or_lt_of_le beyond with rfl | further
      · obtain ⟨last, present, _, same⟩ := retained world.objects.length created (by simp [opened])
        obtain rfl := Option.some.inj (found.symm.trans present)
        exact fun owns => sound.made object steady.1 ((sound.owner same).mp owns)
      · exact executed.new index after (by simp [opened]; omega) found

/-- An object after a handler body is the one it ran on, or as it was. -/
theorem Executed.placed {place process index : Nat} {post : app.Object → Prop}
    {objects : List (Instance app)} {after : Instance app}
    (executed : Executed slot place post process objects world)
    (found : world.objects[index]? = some after) (owns : slot.owner after.object) :
    index = place ∧ (world.crashed after.process = false → post after.object) ∨
      index ≠ place ∧ objects[index]? = some after := by
  by_cases here : index = place
  · subst here
    obtain ⟨ended, present, same, met⟩ := executed.same
    obtain rfl := Option.some.inj (found.symm.trans present)
    exact .inl ⟨rfl, fun runs => met (same ▸ runs)⟩
  · rcases Nat.lt_or_ge index objects.length with below | beyond
    · exact .inr ⟨here, (executed.others index here below).symm.trans found⟩
    · exact absurd owns (executed.new index after beyond found)

theorem Minds.later {later : World app service} {pending : Pending app}
    (minds : Minds slot world pending) (retains : Retains slot.frame world later) :
    Minds slot later pending := by
  obtain ⟨target, placed, treated⟩ := minds.placed
  obtain ⟨after, still, _, same⟩ := retains _ target placed
  exact ⟨after, still, fun response now kept =>
    treated response now (slot.frame.trans same kept)⟩

/-- The operations that a handler body starts treat a slot as it does. -/
theorem Treats.call (sound : slot.Sound) {self : Nat} {past : Past app} {request : I.Request}
    {completion : I.Response request → Code I app.Object app.Fault}
    {next : Code I app.Object app.Fault} {target : Instance app}
    (treats : Treats slot self past (.call request completion next) target.object)
    (placed : world.objects[self]? = some target) :
    Minds slot world ⟨self, past, request, completion, none⟩ := by
  refine ⟨target, placed, fun response now kept => ⟨⟨fun own => ?_, fun other => ?_⟩, ?_, ?_⟩⟩
  · obtain ⟨began, respects⟩ := treats.own own
    refine ⟨slot.frame.trans began kept, fun owns => ?_⟩
    exact ((respects ((sound.owner kept).mp owns)).1 response now kept).2
  · obtain ⟨foreign, unwritten⟩ := treats.foreign other
    exact ⟨fun owns => foreign ((sound.owner kept).mp owns),
      fun owns => ((unwritten owns).1 response).2⟩
  · intro own owns
    exact (((treats.own own).2 ((sound.owner kept).mp owns)).1 response now kept).1
  · intro other owns
    exact (((treats.foreign other).2 owns).1 response).1

/-- The operations that are outstanding after a handler body mind the slot. -/
theorem exec_minds (sound : slot.Sound) {self : Nat} {past : Past app}
    {code : Code I app.Object app.Fault} {target : Instance app}
    (steady : code.Steady slot.frame) (placed : world.objects[self]? = some target)
    (began : past.entry.self < world.objects.length)
    (treats : Treats slot self past code target.object)
    (older : ∀ pending ∈ world.pending, Minds slot world pending) :
    ∀ pending ∈ (exec self past code target world).pending,
      Minds slot (exec self past code target world) pending := by
  induction code generalizing self target world with
  | done => exact older
  | trap fault =>
      intro pending member
      exact (older pending member).later (.refl world)
  | look next inductionHypothesis =>
      exact inductionHypothesis _ (steady _) placed began
        ⟨treats.own, fun other => ⟨(treats.foreign other).1,
          fun owns => (treats.foreign other).2 owns _⟩⟩ older
  | modify change next inductionHypothesis =>
      have bound := (List.getElem?_eq_some_iff.mp placed).1
      have kept := steady.1 target.object
      refine inductionHypothesis steady.2 (by simp [setObject, bound]) (by simpa [setObject])
        ⟨fun own => ?_, fun other => ?_⟩ fun pending member =>
          (older pending member).later (retains_setObject placed rfl kept)
      · obtain ⟨entered, respects⟩ := treats.own own
        exact ⟨slot.frame.trans entered kept,
          fun owns => respects ((sound.owner kept).mp owns)⟩
      · obtain ⟨foreign, unwritten⟩ := treats.foreign other
        exact ⟨fun owns => foreign ((sound.owner kept).mp owns), unwritten⟩
  | alert title next inductionHypothesis =>
      simp only [exec]
      refine inductionHypothesis steady placed began ⟨treats.own, treats.foreign⟩ ?_
      exact fun pending member => (older pending member).later (.refl world)
  | call request completion next _ inductionHypothesis =>
      simp only [exec]
      refine inductionHypothesis steady.2 placed began
        ⟨fun own => ⟨(treats.own own).1, fun owns => ((treats.own own).2 owns).2⟩,
          fun other => ⟨(treats.foreign other).1, fun owns =>
            ((treats.foreign other).2 owns).2⟩⟩ fun pending member => ?_
      rcases List.mem_append.mp member with old | added
      · exact (older pending old).later (.refl world)
      · obtain rfl := List.mem_singleton.mp added
        exact (treats.call sound placed).later (.refl world)
  | present object start inductionHypothesis =>
      refine inductionHypothesis steady.2 (by simp) (by simp; omega)
        ⟨fun own => absurd own (Nat.ne_of_gt began), fun _ =>
          ⟨sound.made object steady.1, fun owns => ?_⟩⟩ fun pending member =>
            (older pending member).later retains_append
      by_cases own : self = past.entry.self
      · obtain ⟨kept, respects⟩ := treats.own own
        exact respects ((sound.owner kept).mpr owns)
      · exact (treats.foreign own).2 owns

/-- What a handler body that writes `written` into its own slot leaves in all slots. -/
theorem value_of_executed {later : World app service} {self : Nat} {target : Instance app}
    (written : Option slot.Value) (sound : slot.Sound) (valid : Slotted slot world)
    (placed : world.objects[self]? = some target)
    (executed : Executed slot self (fun after => slot.owner target.object → slot.holds
      (written.getD ((world.lastWrite slot self).getD slot.initial)) after)
      target.process world.objects later)
    (retains : Retains slot.frame world later)
    (crash : ∀ process, later.crashed process = false → world.crashed process = false)
    (last : ∀ (index : Nat) (owning : Instance app), world.objects[index]? = some owning →
      slot.owner owning.object →
      later.lastWrite slot index =
        if index = self then written.or (world.lastWrite slot index)
        else world.lastWrite slot index) :
    ∀ (index : Nat) (after : Instance app), later.objects[index]? = some after →
      slot.owner after.object → later.crashed after.process = false →
      slot.holds ((later.lastWrite slot index).getD slot.initial) after.object := by
  intro index after found owns runs
  rcases Nat.lt_or_ge index world.objects.length with below | beyond
  · have before : world.objects[index]? = some world.objects[index] :=
      List.getElem?_eq_getElem below
    obtain ⟨kept, still, process, same⟩ := retains index _ before
    obtain rfl := Option.some.inj (found.symm.trans still)
    have owned := (sound.owner same).mp owns
    rw [process] at runs
    rw [last index _ before owned]
    by_cases here : index = self
    · subst here
      obtain rfl := Option.some.inj (placed.symm.trans before)
      obtain ⟨ended, present, _, met⟩ := executed.same
      obtain rfl := Option.some.inj (found.symm.trans present)
      have held := met runs owned
      rw [if_pos rfl]
      cases written with
      | none => exact held
      | some written => exact held
    · have untouched := executed.others index here below
      rw [found, before] at untouched
      rw [Option.some.inj untouched, if_neg here]
      exact valid.value index _ before owned (crash _ runs)
  · exact absurd owns (executed.new index after beyond found)

/-- Nothing has been written by an object that is not there yet. -/
theorem Slotted.lastWrite_eq_none (valid : Slotted slot world) {index : Nat}
    (beyond : world.objects.length ≤ index) : world.lastWrite slot index = none := by
  refine List.findSome?_eq_none_iff.mpr fun handled member => if_neg fun same => ?_
  obtain ⟨past, exchange⟩ := handled
  obtain ⟨target, placed, _⟩ := valid.entry past (.handled member)
  have bound := (List.getElem?_eq_some_iff.mp placed).1
  simp only at same
  omega

/-- The handler of an input treats the slot of its object as it may. -/
theorem treats_input (sound : slot.Sound) (past : Past app) (start : past.trail = []) :
    Treats slot past.entry.self past (app.handler past.entry.input) past.entry.object :=
  ⟨fun _ => ⟨slot.frame.refl _, fun owns => (sound.input past start owns).2⟩,
    fun other => absurd rfl other⟩

/-- What a step leaves outstanding minds the slot. -/
theorem Slotted.minds_of_step (sound : slot.Sound) (valid : Slotted slot world)
    (taken : world.step event = some next) :
    ∀ pending ∈ next.pending, Minds slot next pending := by
  cases stepped_of_step taken with
  | launched => exact fun pending member => (valid.pending pending member).later retains_append
  | @began self input target placed =>
      have bound := (List.getElem?_eq_some_iff.mp placed).1
      refine exec_minds sound (sound.steady input) placed bound ?_ fun pending member =>
        (valid.pending pending member).later (.refl world)
      exact treats_input sound ⟨⟨world.clock, self, input, target.object⟩, []⟩ rfl
  | @served index self choice past request completion later response found =>
      intro pending member
      rcases List.mem_or_eq_of_mem_set member with old | rfl
      · exact (valid.pending pending old).later (.refl world)
      · exact ⟨(valid.pending _ (List.mem_of_getElem? found)).placed⟩
  | @completed index self past request completion response target found placed =>
      have member := List.mem_of_getElem? found
      obtain ⟨owning, present, treated⟩ := (valid.pending _ member).placed
      obtain rfl := Option.some.inj (placed.symm.trans present)
      obtain ⟨began, there, _⟩ := valid.entry past (.outstanding member rfl)
      refine exec_minds sound (valid.steady _ member response) placed
        (List.getElem?_eq_some_iff.mp there).1
        (treated response target.object (slot.frame.refl _)).1 ?_
      exact fun pending old =>
        (valid.pending pending (List.mem_of_mem_eraseIdx old)).later (.refl world)

/-- What a step leaves in the slots. -/
theorem Slotted.value_of_step (sound : slot.Sound) (valid : Slotted slot world)
    (taken : world.step event = some next) :
    ∀ (index : Nat) (target : Instance app), next.objects[index]? = some target →
      slot.owner target.object → next.crashed target.process = false →
      slot.holds ((next.lastWrite slot index).getD slot.initial) target.object := by
  have stays := steady_of_step sound.steady valid.steady taken
  cases stepped_of_step taken with
  | @launched process root =>
      intro index target found owns runs
      rcases Nat.lt_or_ge index world.objects.length with below | beyond
      · rw [List.getElem?_append_left below] at found
        exact valid.value index target found owns runs
      · rw [List.getElem?_append_right beyond, List.getElem?_singleton] at found
        split at found
        · obtain rfl := Option.some.inj found
          have none : lastWrite slot index { world with
              objects := world.objects ++ [⟨process, app.root root⟩] } = none :=
            valid.lastWrite_eq_none beyond
          rw [none]
          exact sound.root root owns
        · cases found
  | @began self input target placed running =>
      let past : Past app := ⟨⟨world.clock, self, input, target.object⟩, []⟩
      refine value_of_executed none sound valid placed
        (exec_executed sound ?_ (sound.steady input) rfl placed) stays.retains ?_
        fun index owning _ _ => ?_
      · by_cases owns : slot.owner target.object
        · have held := valid.value self target placed owns running
          exact ((sound.input past rfl owns).1 _ held).imp fun after same _ => same
        · exact (Code.ends_trivial _ _).imp fun after _ owned => absurd owned owns
      · intro process runs
        have before := exec_crashed runs
        exact before
      · simp [lastWrite]
  | @served index self choice past request completion later response found =>
      exact valid.value
  | @completed index self past request completion response target found placed running =>
      have member := List.mem_of_getElem? found
      obtain ⟨owning, present, treated⟩ := (valid.pending _ member).placed
      obtain rfl := Option.some.inj (placed.symm.trans present)
      obtain ⟨treats, own, foreign⟩ := treated response target.object (slot.frame.refl _)
      have steady := valid.steady _ member response
      have crash : ∀ process, (exec self (past.answered request response) (completion response)
          target { world with
            pending := world.pending.eraseIdx index
            acknowledged := (past, ⟨request, response⟩) :: world.acknowledged }).crashed process =
              false → world.crashed process = false := by
        intro process runs
        have before := exec_crashed runs
        exact before
      by_cases here : self = past.entry.self
      · refine value_of_executed (slot.writes past ⟨request, response⟩) sound valid placed
          (exec_executed sound ?_ steady rfl placed) stays.retains crash fun index owning _ _ => ?_
        · by_cases owns : slot.owner target.object
          · have held := valid.value self target placed owns running
            exact (own here owns _ held).imp fun after same _ => same
          · exact (Code.ends_trivial _ _).imp fun after _ owned => absurd owned owns
        · rw [lastWrite_of_acknowledged (exec_acknowledged _ _ _ _ _), ← here]
          by_cases last : self = index
          · simp [last]
          · simp [last, Ne.symm last]
      · refine value_of_executed none sound valid placed
          (exec_executed sound ?_ steady rfl placed) stays.retains crash
          fun index owning there owns => ?_
        · exact (Code.ends_trivial _ _).imp fun after _ owned =>
            absurd owned (treats.foreign here).1
        · rw [lastWrite_of_acknowledged (exec_acknowledged _ _ _ _ _)]
          by_cases last : past.entry.self = index
          · subst last
            obtain ⟨began, present, kept⟩ := valid.entry past (.outstanding member rfl)
            obtain rfl := Option.some.inj (there.symm.trans present)
            simp [foreign here ((sound.owner kept).mp owns)]
          · simp [last]

/-- Every step leaves in all slots what was written last. -/
theorem Slotted.step (sound : slot.Sound) (valid : Slotted slot world)
    (taken : world.step event = some next) : Slotted slot next := by
  have stays := steady_of_step sound.steady valid.steady taken
  have entry : ∀ past, next.Occurs past → ∃ target,
      next.objects[past.entry.self]? = some target ∧
        slot.frame.keeps past.entry.object target.object := by
    intro past occurs
    rcases occurs_of_step taken occurs with
      older | ⟨self, input, target, _, placed, rfl⟩ | ⟨older, request, response, rfl, old, _⟩
    · obtain ⟨target, placed, same⟩ := valid.entry past older
      obtain ⟨after, still, _, same'⟩ := stays.retains _ target placed
      exact ⟨after, still, slot.frame.trans same same'⟩
    · obtain ⟨after, still, _, same⟩ := stays.retains _ target placed
      exact ⟨after, still, same⟩
    · obtain ⟨target, placed, same⟩ := valid.entry older old
      obtain ⟨after, still, _, same'⟩ := stays.retains _ target placed
      exact ⟨after, still, slot.frame.trans same same'⟩
  exact ⟨entry, valid.minds_of_step sound taken, stays.pending, valid.value_of_step sound taken⟩

/-- In every run, the slots of all objects hold what was written last. -/
theorem slotted_of_reachable (sound : slot.Sound) {guard : (machine app service).Guard}
    {server : service.State}
    (reached : Machine.Reachable guard (World.initial app server) world) :
    Slotted slot world := by
  refine reached.invariant ⟨?_, ?_, steadyPending_initial, ?_⟩ fun valid _ taken =>
    valid.step sound taken
  · intro past occurs
    cases occurs with
    | outstanding member => cases member
    | handled member => cases member
  · intro pending member
    cases member
  · intro index target placed
    cases placed

end World

end Gbc.Callback
