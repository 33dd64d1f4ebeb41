import Mathlib.Logic.Hydra
import Gbc.Callback.Chain
import Gbc.Callback.Slots
import Gbc.Semantics.Termination

/-!
# What is outstanding comes to an end

A completion handler starts finitely many operations, whose completion handlers are parts
of its own body. So without new inputs the outstanding operations are a hydra: an answered
one is replaced by smaller ones, in whatever order they are answered and handled, and after
finitely many steps nothing is left of the processes that still run.
-/

namespace Gbc.Callback

variable {I : Interface} {app : App I} {service : Service I}

/-- The backend can answer every operation, be it with an error. -/
def Service.Responsive (service : Service I) : Prop :=
  ∀ state request, ∃ choice, (service.serve state request choice).isSome = true

/-- An operation with the completion handler that runs when it is answered. -/
structure Task (I : Interface) (Object Fault : Type) where
  request : I.Request
  completion : I.Response request → Code I Object Fault

namespace Code

variable {Object Fault : Type}

/-- A handler body starts this operation, on some object. -/
inductive Starts (task : Task I Object Fault) : Code I Object Fault → Prop where
  | look {next : Object → Code I Object Fault} (object : Object)
      (starts : Starts task (next object)) : Starts task (.look next)
  | modify {change : Object → Object} {next : Code I Object Fault}
      (starts : Starts task next) : Starts task (.modify change next)
  | alert {title : String} {next : Code I Object Fault} (starts : Starts task next) :
      Starts task (.alert title next)
  | here {next : Code I Object Fault} : Starts task (.call task.request task.completion next)
  | call {request : I.Request} {completion : I.Response request → Code I Object Fault}
      {next : Code I Object Fault} (starts : Starts task next) :
      Starts task (.call request completion next)
  | present {object : Object} {start : Code I Object Fault} (starts : Starts task start) :
      Starts task (.present object start)

/-- On this object, a handler body stops its process. -/
def Traps : Code I Object Fault → Object → Prop
  | .done, _ => False
  | .trap _, _ => True
  | .look next, object => Traps (next object) object
  | .modify change next, object => Traps next (change object)
  | .alert _ next, object => Traps next object
  | .call _ _ next, object => Traps next object
  | .present created start, _ => Traps start created

end Code

section Issues

variable {frame : Frame app.Object} {related : Past app → app.Object → (request : I.Request) →
    (I.Response request → Code I app.Object app.Fault) → Prop}
  {past : Past app} {object : app.Object}

/-- Every operation that a handler body starts is related to the past and the object that
start it and to its completion handler, and so is what completion handlers start on later
states of the object. -/
def Code.Issues (frame : Frame app.Object) (related : Past app → app.Object →
    (request : I.Request) → (I.Response request → Code I app.Object app.Fault) → Prop) :
    Past app → Code I app.Object app.Fault → app.Object → Prop
  | _, .done, _ => True
  | _, .trap _, _ => True
  | past, .look next, object => Issues frame related past (next object) object
  | past, .modify change next, object => Issues frame related past next (change object)
  | past, .alert _ next, object => Issues frame related past next object
  | past, .call request completion next, object =>
      related past object request completion ∧
      (∀ response target, frame.keeps object target →
        Issues frame related (past.answered request response) (completion response) target) ∧
      Issues frame related past next object
  | past, .present created start, _ => Issues frame related past start created

theorem Code.issues_unwrap {Value : Type} {value : Option Value} {fault : app.Fault}
    {next : Value → Code I app.Object app.Fault}
    (rest : ∀ found, Code.Issues frame related past (next found) object) :
    Code.Issues frame related past (.unwrap value fault next) object := by
  cases value with
  | none => trivial
  | some found => exact rest found

/-- What has to follow an answer: the operations and the alerts of its completion handler. -/
abbrev Sequel (app : App I) := Past app → Exchange I → List I.Request → List String → Prop

/-- Every answer of an operation is followed up by its completion handler on any later state
of the object, unless that stops the process. -/
def Code.FollowsUp (frame : Frame app.Object) (follows : Sequel app) (past : Past app)
    (object : app.Object) (request : I.Request)
    (completion : I.Response request → Code I app.Object app.Fault) : Prop :=
  ∀ response target, frame.keeps object target → (completion response).Traps target ∨
    follows past ⟨request, response⟩ ((completion response).requests target)
      ((completion response).titles target)

end Issues

/-- The completion handler of one task starts the other, for some answer. -/
def Task.Follows {Object Fault : Type} (later earlier : Task I Object Fault) : Prop :=
  ∃ response, (earlier.completion response).Starts later

/-- Chains of completion handlers end. -/
theorem Task.follows_wellFounded {Object Fault : Type} :
    WellFounded (Task.Follows : Task I Object Fault → Task I Object Fault → Prop) := by
  have started : ∀ (code : Code I Object Fault) (task : Task I Object Fault),
      code.Starts task → Acc Task.Follows task := by
    intro code
    induction code with
    | done => exact fun task starts => by cases starts
    | trap fault => exact fun task starts => by cases starts
    | look next inductionHypothesis =>
        rintro task ⟨object, starts⟩
        exact inductionHypothesis object task starts
    | modify change next inductionHypothesis =>
        intro task starts
        cases starts with
        | modify starts => exact inductionHypothesis task starts
    | alert title next inductionHypothesis =>
        intro task starts
        cases starts with
        | alert starts => exact inductionHypothesis task starts
    | call request completion next fromCompletion fromNext =>
        intro task starts
        cases starts with
        | here =>
            exact .intro _ fun later ⟨response, follows⟩ => fromCompletion response later follows
        | call starts => exact fromNext task starts
    | present object start inductionHypothesis =>
        intro task starts
        cases starts with
        | present starts => exact inductionHypothesis task starts
  exact ⟨fun task => .intro task fun later ⟨response, follows⟩ => started _ later follows⟩

namespace World

/-- The operation of an outstanding one, without its object, its past and its answer. -/
def task (pending : Pending app) : Task I app.Object app.Fault :=
  ⟨pending.request, pending.completion⟩

/-- The backend answers an operation, or a completion handler runs. -/
def answering (_ : World app service) : Event app service → Bool
  | .serve _ _ => true
  | .reply _ => true
  | _ => false

/-- What has to be done for the outstanding operations. -/
def work (world : World app service) : Multiset (Task I app.Object app.Fault) × Nat :=
  (world.pending.map task, world.pending.countP fun pending => pending.answer.isNone)

section Termination

variable {world next : World app service} {event : Event app service}

/-- A handler body adds operations that it starts. -/
theorem exec_starts (self : Nat) (past : Past app) (code : Code I app.Object app.Fault)
    (target : Instance app) (world : World app service) :
    ∃ started : List (Pending app),
      (exec self past code target world).pending = world.pending ++ started ∧
      ∀ pending ∈ started, code.Starts (task pending) := by
  induction code generalizing self target world with
  | done => exact ⟨[], by simp [exec], nofun⟩
  | trap fault => exact ⟨[], by simp [exec], nofun⟩
  | look next inductionHypothesis =>
      obtain ⟨started, outstanding, own⟩ := inductionHypothesis target.object self target world
      exact ⟨started, outstanding, fun pending member => .look _ (own pending member)⟩
  | modify change next inductionHypothesis =>
      obtain ⟨started, outstanding, own⟩ := inductionHypothesis self _ (world.setObject self _)
      exact ⟨started, outstanding, fun pending member => .modify (own pending member)⟩
  | alert title next inductionHypothesis =>
      obtain ⟨started, outstanding, own⟩ := inductionHypothesis self target _
      exact ⟨started, outstanding, fun pending member => .alert (own pending member)⟩
  | call request completion next _ inductionHypothesis =>
      obtain ⟨started, outstanding, own⟩ := inductionHypothesis self target _
      refine ⟨⟨self, past, request, completion, none⟩ :: started, ?_, ?_⟩
      · simp only [exec]
        rw [outstanding, List.append_assoc, List.singleton_append]
      · intro pending member
        rcases List.mem_cons.mp member with rfl | later
        · exact .here
        · exact .call (own pending later)
  | present object start inductionHypothesis =>
      obtain ⟨started, outstanding, own⟩ := inductionHypothesis _ _ _
      exact ⟨started, outstanding, fun pending member => .present (own pending member)⟩

/-- An answer leaves less to answer, a completion handler less to do. -/
theorem work_decreases (passes : answering world event = true)
    (taken : world.step event = some next) :
    Prod.Lex (Relation.CutExpand Task.Follows) (· < ·) next.work world.work := by
  cases stepped_of_step taken with
  | launched => cases passes
  | began => cases passes
  | @served index self choice past request completion later response found =>
      obtain ⟨before, after⟩ := perm_of_getElem? found (.refl _)
      have same := ((after ⟨self, past, request, completion, some response⟩).map task).trans
        (before.map task).symm
      have fewer := (after ⟨self, past, request, completion, some response⟩).countP_eq
        fun pending => pending.answer.isNone
      have counted := before.countP_eq fun pending => pending.answer.isNone
      simp only [work]
      rw [Multiset.coe_eq_coe.mpr same]
      refine .right _ ?_
      simp only [List.countP_cons, Option.isNone_none, Option.isNone_some, if_true,
        Bool.false_eq_true, if_false] at fewer counted
      omega
  | @completed index self past request completion response target found =>
      refine .left _ _ ?_
      obtain ⟨started, outstanding, own⟩ := exec_starts self (past.answered request response)
        (completion response) target
        { world with
          pending := world.pending.eraseIdx index
          acknowledged := (past, ⟨request, response⟩) :: world.acknowledged }
      obtain ⟨before, -⟩ := perm_of_getElem? found (.refl _)
      refine ⟨started.map task, ⟨request, completion⟩, ?_, ?_⟩
      · intro later member
        obtain ⟨pending, listed, rfl⟩ := List.mem_map.mp (Multiset.mem_coe.mp member)
        exact ⟨response, own pending listed⟩
      · have rest : (world.pending.map task : Multiset (Task I app.Object app.Fault)) =
            (world.pending.eraseIdx index).map task + {⟨request, completion⟩} :=
          Multiset.coe_eq_coe.mpr
            ((before.map task).trans (List.perm_append_singleton _ _).symm)
        simp only [outstanding]
        rw [rest, List.map_append, ← Multiset.coe_add]
        exact add_right_comm _ _ _

/-- Without new inputs, every run ends. -/
theorem terminates (app : App I) (service : Service I) :
    (machine app service).Terminates answering := by
  have order : WellFounded (Prod.Lex
      (Relation.CutExpand (Task.Follows : Task I app.Object app.Fault → _ → Prop))
      ((· < ·) : Nat → Nat → Prop)) :=
    WellFounded.prod_lex (Task.follows_wellFounded.cutExpand) wellFounded_lt
  refine Subrelation.wf ?_ (InvImage.wf (work : World app service → _) order)
  rintro later earlier ⟨event, passes, taken⟩
  exact work_decreases passes taken

end Termination

section Homes

variable {world next later : World app service} {event : Event app service}

/-- The process of an object. -/
def processOf (world : World app service) (self : Nat) : Option Nat :=
  (world.objects[self]?).map Instance.process

/-- A process of this input has trapped. -/
def Stopped (world : World app service) (entry : Entry app) : Prop :=
  ∃ process, world.processOf entry.self = some process ∧ world.crashed process = true

/-- The frame of all handler bodies. -/
abbrev unlimited : Frame app.Object := .ofView (fun _ => ()) fun _ => True

theorem steady_unlimited (code : Code I app.Object app.Fault) : code.Steady unlimited := by
  induction code with
  | done => trivial
  | trap fault => trivial
  | look next inductionHypothesis => exact inductionHypothesis
  | modify change next inductionHypothesis => exact ⟨fun _ => rfl, inductionHypothesis⟩
  | alert title next inductionHypothesis => exact inductionHypothesis
  | call request completion next fromCompletion fromNext => exact ⟨fromCompletion, fromNext⟩
  | present object start inductionHypothesis => exact ⟨trivial, inductionHypothesis⟩

/-- Objects stay in their processes. -/
theorem Retains.processOf (retains : Retains unlimited world later) {self process : Nat}
    (home : world.processOf self = some process) : later.processOf self = some process := by
  obtain ⟨target, placed, same⟩ := Option.map_eq_some_iff.mp home
  obtain ⟨after, still, kept, -⟩ := retains self target placed
  exact Option.map_eq_some_iff.mpr ⟨after, still, kept.trans same⟩

theorem retains_of_step (taken : world.step event = some next) : Retains unlimited world next :=
  (steady_of_step (fun _ => steady_unlimited _) (fun _ _ _ => steady_unlimited _) taken).retains

/-- What a handler body starts belongs to the process of its object. -/
theorem exec_homes {self : Nat} {past : Past app} {code : Code I app.Object app.Fault}
    {target : Instance app} {pending : Pending app} (placed : world.objects[self]? = some target)
    (member : pending ∈ (exec self past code target world).pending) :
    pending ∈ world.pending ∨ pending.past = past ∧
      (exec self past code target world).processOf pending.self = some target.process := by
  induction code generalizing self target world with
  | done => exact .inl member
  | trap fault => exact .inl member
  | look next inductionHypothesis => exact inductionHypothesis _ placed member
  | modify change next inductionHypothesis =>
      have bound := (List.getElem?_eq_some_iff.mp placed).1
      have started := inductionHypothesis (by simp [setObject, bound]) member
      exact started
  | alert title next inductionHypothesis =>
      have started := inductionHypothesis (by exact placed) member
      exact started
  | call request completion next _ inductionHypothesis =>
      rcases inductionHypothesis (by exact placed) member with older | started
      · rcases List.mem_append.mp older with older | added
        · exact .inl older
        · obtain rfl := List.mem_singleton.mp added
          refine .inr ⟨rfl, ?_⟩
          have retains : Retains unlimited world (exec self past next target { world with
                pending := world.pending ++ [⟨self, past, request, completion, none⟩] }) :=
            exec_retains (steady_unlimited next) placed (.refl _)
          exact retains.processOf (by simp [processOf, placed])
      · exact .inr started
  | present object start inductionHypothesis =>
      have started := inductionHypothesis (by simp) member
      exact started

/-- A handler body that stops the process does so. -/
theorem exec_traps {self : Nat} {past : Past app} {code : Code I app.Object app.Fault}
    {target : Instance app} (traps : code.Traps target.object) :
    (exec self past code target world).crashed target.process = true := by
  induction code generalizing self target world with
  | done => exact traps.elim
  | trap fault => simp [exec, crashed]
  | look next inductionHypothesis => exact inductionHypothesis _ traps
  | modify change next inductionHypothesis =>
      simp only [exec]
      exact inductionHypothesis traps
  | alert title next inductionHypothesis => exact inductionHypothesis traps
  | call request completion next _ inductionHypothesis => exact inductionHypothesis traps
  | present object start inductionHypothesis =>
      simp only [exec]
      exact inductionHypothesis traps

theorem crashed_of_step (taken : world.step event = some next) {process : Nat}
    (stopped : world.crashed process = true) : next.crashed process = true := by
  have kept : ∀ {self : Nat} {past : Past app} {code : Code I app.Object app.Fault}
      {target : Instance app} {before : World app service}, before.crashed process = true →
      (exec self past code target before).crashed process = true := by
    intro self past code target before stopped
    cases runs : (exec self past code target before).crashed process with
    | false => exact absurd ((exec_crashed runs).symm.trans stopped) Bool.false_ne_true
    | true => rfl
  cases stepped_of_step taken with
  | launched => exact stopped
  | began => exact kept stopped
  | served => exact stopped
  | completed => exact kept stopped

/-- The input of an outstanding operation happened in the process of its object. -/
def Homed (world : World app service) : Prop :=
  ∀ pending ∈ world.pending, ∃ process, world.processOf pending.self = some process ∧
    world.processOf pending.past.entry.self = some process

/-- The completion handler of an operation has started and shown what follows its answer. -/
def Sequeled (follows : Sequel app) (world : World app service) (past : Past app)
    (exchange : Exchange I) : Prop :=
  ∃ started shown, follows past exchange started shown ∧
    (∀ request ∈ started,
      world.Issued (past.answered exchange.request exchange.response) request) ∧
    ∀ title ∈ shown, (past.answered exchange.request exchange.response, title) ∈ world.alerts

/-- The answer of a handled operation has been followed up, unless its process trapped. -/
def FollowedUp (follows : Sequel app) (world : World app service) : Prop :=
  ∀ handled ∈ world.acknowledged, world.Stopped handled.1.entry ∨
    Sequeled follows world handled.1 handled.2

theorem mem_alerts_of_step {alert : Past app × String} (taken : world.step event = some next)
    (member : alert ∈ world.alerts) : alert ∈ next.alerts := by
  cases stepped_of_step taken with
  | launched => exact member
  | began => rw [exec_alerts]; exact List.mem_append_right _ member
  | served => exact member
  | completed => rw [exec_alerts]; exact List.mem_append_right _ member

theorem Sequeled.step {follows : Sequel app} {past : Past app} {exchange : Exchange I}
    (sequeled : Sequeled follows world past exchange) (taken : world.step event = some next) :
    Sequeled follows next past exchange := by
  obtain ⟨started, shown, onward, issued, alerted⟩ := sequeled
  exact ⟨started, shown, onward, fun request asked => (issued request asked).step taken,
    fun title member => mem_alerts_of_step taken (alerted title member)⟩

theorem Stopped.step {entry : Entry app} (stopped : world.Stopped entry)
    (taken : world.step event = some next) : next.Stopped entry := by
  obtain ⟨process, home, crashed⟩ := stopped
  exact ⟨process, (retains_of_step taken).processOf home, crashed_of_step taken crashed⟩

theorem Homed.step (homed : world.Homed) (taken : world.step event = some next) :
    next.Homed := by
  have retains := retains_of_step taken
  have kept : ∀ pending ∈ world.pending, ∃ process, next.processOf pending.self = some process ∧
      next.processOf pending.past.entry.self = some process := fun pending member =>
    (homed pending member).imp fun process homes =>
      ⟨retains.processOf homes.1, retains.processOf homes.2⟩
  intro pending member
  cases stepped_of_step taken with
  | launched => exact kept pending member
  | @began self input target placed =>
      rcases exec_homes (by exact placed) member with older | ⟨same, home⟩
      · exact kept pending older
      · refine ⟨target.process, home, retains.processOf ?_⟩
        rw [same]
        simp [processOf, placed]
  | @served index self choice past request completion later response found =>
      rcases List.mem_or_eq_of_mem_set member with older | rfl
      · exact kept pending older
      · exact kept ⟨self, past, request, completion, none⟩ (List.mem_of_getElem? found)
  | @completed index self past request completion response target found placed =>
      rcases exec_homes (by exact placed) member with older | ⟨same, home⟩
      · exact kept pending (List.mem_of_mem_eraseIdx older)
      · obtain ⟨process, own, entry⟩ := homed _ (List.mem_of_getElem? found)
        obtain rfl : target.process = process := by simpa [processOf, placed] using own
        refine ⟨target.process, home, retains.processOf ?_⟩
        rw [same]
        exact entry

/-- The outstanding operations are related to an earlier state of their object and to their
completion handlers. -/
def Heeded (frame : Frame app.Object) (related : Past app → app.Object →
    (request : I.Request) → (I.Response request → Code I app.Object app.Fault) → Prop)
    (world : World app service) : Prop :=
  ∀ pending ∈ world.pending, ∃ before now, world.objects[pending.self]? = some now ∧
    frame.keeps before now.object ∧
    related pending.past before pending.request pending.completion ∧
    ∀ response target, frame.keeps before target →
      Code.Issues frame related (pending.past.answered pending.request response)
        (pending.completion response) target

section Heeded

variable {frame : Frame app.Object} {related : Past app → app.Object →
  (request : I.Request) → (I.Response request → Code I app.Object app.Fault) → Prop}

theorem Heeded.retain (heeded : Heeded frame related world) (retains : Retains frame world later)
    {pending : Pending app} (member : pending ∈ world.pending) :
    ∃ before now, later.objects[pending.self]? = some now ∧
      frame.keeps before now.object ∧
      related pending.past before pending.request pending.completion ∧
      ∀ response target, frame.keeps before target →
        Code.Issues frame related (pending.past.answered pending.request response)
          (pending.completion response) target := by
  obtain ⟨before, now, placed, kept, holds⟩ := heeded pending member
  obtain ⟨after, still, -, same⟩ := retains _ now placed
  exact ⟨before, after, still, frame.trans kept same, holds⟩

theorem exec_heeded {self : Nat} {past : Past app} {code : Code I app.Object app.Fault}
    {target : Instance app} (steady : code.Steady frame)
    (issues : Code.Issues frame related past code target.object)
    (placed : world.objects[self]? = some target)
    (heeded : Heeded frame related world) :
    Heeded frame related (exec self past code target world) := by
  induction code generalizing self target world with
  | done => exact heeded
  | trap fault => exact heeded
  | look next inductionHypothesis => exact inductionHypothesis _ (steady _) issues placed heeded
  | modify change next inductionHypothesis =>
      have bound := (List.getElem?_eq_some_iff.mp placed).1
      have retains : Retains frame world
          (world.setObject self { target with object := change target.object }) :=
        retains_setObject placed rfl (steady.1 target.object)
      refine inductionHypothesis steady.2 issues (by simp [setObject, bound]) ?_
      exact fun pending member => heeded.retain retains member
  | alert title next inductionHypothesis =>
      exact inductionHypothesis steady issues (by exact placed) heeded
  | call request completion next _ inductionHypothesis =>
      refine inductionHypothesis steady.2 issues.2.2 (by exact placed) fun pending member => ?_
      rcases List.mem_append.mp member with older | added
      · exact heeded pending older
      · obtain rfl := List.mem_singleton.mp added
        exact ⟨target.object, target, placed, frame.refl _, issues.1, issues.2.1⟩
  | present object start inductionHypothesis =>
      refine inductionHypothesis steady.2 issues (by simp) fun pending member => ?_
      exact heeded.retain retains_append member

theorem Heeded.step (steady : ∀ input, (app.handler input).Steady frame)
    (handlers : ∀ past : Past app, past.trail = [] →
      Code.Issues frame related past (app.handler past.entry.input) past.entry.object)
    (pending : SteadyPending frame world) (heeded : Heeded frame related world)
    (taken : world.step event = some next) : Heeded frame related next := by
  cases stepped_of_step taken with
  | launched => exact fun _ member => heeded.retain retains_append member
  | @began self input target placed =>
      exact exec_heeded (steady input)
        (handlers ⟨⟨world.clock, self, input, target.object⟩, []⟩ rfl) placed heeded
  | @served index self choice past request completion later response found =>
      intro other member
      rcases List.mem_or_eq_of_mem_set member with older | rfl
      · exact heeded other older
      · exact heeded ⟨self, past, request, completion, none⟩ (List.mem_of_getElem? found)
  | @completed index self past request completion response target found placed =>
      have outstanding := List.mem_of_getElem? found
      obtain ⟨before, now, still, kept, -, issues⟩ := heeded _ outstanding
      obtain rfl : target = now := Option.some.inj (placed.symm.trans still)
      refine exec_heeded (pending _ outstanding response) (issues _ _ kept) placed ?_
      exact fun other member => heeded other (List.mem_of_mem_eraseIdx member)

end Heeded

theorem FollowedUp.step {frame : Frame app.Object} {follows : Sequel app}
    (homed : world.Homed) (heeded : Heeded frame (Code.FollowsUp frame follows) world)
    (followed : FollowedUp follows world) (taken : world.step event = some next) :
    FollowedUp follows next := by
  have older : ∀ handled ∈ world.acknowledged, next.Stopped handled.1.entry ∨
      Sequeled follows next handled.1 handled.2 := fun handled member =>
    (followed handled member).imp (fun stopped => stopped.step taken)
      fun sequeled => sequeled.step taken
  intro handled member
  cases stepped_of_step taken with
  | launched => exact older handled member
  | began => rw [exec_acknowledged] at member; exact older handled member
  | served => exact older handled member
  | @completed index self past request completion response target found placed =>
      rw [exec_acknowledged] at member
      rcases List.mem_cons.mp member with rfl | before
      · have outstanding := List.mem_of_getElem? found
        obtain ⟨before, now, still, kept, follows, -⟩ := heeded _ outstanding
        obtain rfl : target = now := Option.some.inj (placed.symm.trans still)
        rcases follows response target.object kept with traps | onward
        · obtain ⟨process, own, entry⟩ := homed _ outstanding
          obtain rfl : target.process = process := by simpa [processOf, placed] using own
          exact .inl ⟨target.process, (retains_of_step taken).processOf entry, exec_traps traps⟩
        · refine .inr ⟨_, _, onward, fun request asked => ?_, fun title shown => ?_⟩
          · obtain ⟨pending, outstanding, same, rfl⟩ := exec_requests asked
            exact .outstanding outstanding same rfl
          · rw [exec_alerts]
            exact List.mem_append_left _
              (List.mem_map.mpr ⟨title, List.mem_reverse.mpr shown, rfl⟩)
      · exact older handled before

end Homes

section Settled

variable {world : World app service} {frame : Frame app.Object}
  {follows : Sequel app}

/-- What holds of the outstanding and the handled operations of every run. -/
structure Pursues (frame : Frame app.Object)
    (follows : Sequel app) (world : World app service) : Prop where
  homed : world.Homed
  steady : SteadyPending frame world
  heeded : Heeded frame (Code.FollowsUp frame follows) world
  followed : FollowedUp follows world

/-- Handlers that follow up their answers do so in every run. -/
theorem pursues_of_reachable {guard : (machine app service).Guard} {server : service.State}
    (steady : ∀ input, (app.handler input).Steady frame)
    (handlers : ∀ past : Past app, past.trail = [] → Code.Issues frame
      (Code.FollowsUp frame follows) past (app.handler past.entry.input) past.entry.object)
    (reached : Machine.Reachable guard (World.initial app server) world) :
    Pursues frame follows world := by
  have initial : Pursues frame follows (World.initial app server : World app service) :=
    ⟨nofun, nofun, nofun, nofun⟩
  refine reached.invariant initial fun pursues _ taken => ⟨?_, ?_, ?_, ?_⟩
  · exact pursues.homed.step taken
  · exact (steady_of_step steady pursues.steady taken).pending
  · exact pursues.heeded.step steady handlers pursues.steady taken
  · exact pursues.followed.step pursues.homed pursues.heeded taken

/-- When nothing goes on, what is outstanding belongs to processes that have trapped. -/
theorem Homed.stopped (homed : world.Homed) (responsive : service.Responsive)
    (settled : (machine app service).Settled answering world) {pending : Pending app}
    (member : pending ∈ world.pending) : world.Stopped pending.past.entry := by
  obtain ⟨index, found⟩ := List.mem_iff_getElem?.mp member
  obtain ⟨process, own, entry⟩ := homed pending member
  obtain ⟨target, placed, rfl⟩ := Option.map_eq_some_iff.mp own
  refine ⟨target.process, entry, ?_⟩
  obtain ⟨self, past, request, completion, answer⟩ := pending
  cases answer with
  | none =>
      obtain ⟨choice, answers⟩ := responsive world.server request
      obtain ⟨answered, serves⟩ := Option.isSome_iff_exists.mp answers
      have stuck : world.step (.serve index choice) = none := settled (.serve index choice) rfl
      simp [World.step, found, serves] at stuck
  | some response =>
      have stuck : world.step (.reply index) = none := settled (.reply index) rfl
      by_contra runs
      simp [World.step, found, placed, Bool.eq_false_iff.mpr runs] at stuck

/-- What has been started stays so. -/
theorem Issued.later {later : World app service} {guard : (machine app service).Guard}
    {past : Past app} {request : I.Request} (issued : world.Issued past request)
    (reached : Machine.Reachable guard world later) : later.Issued past request := by
  have start : Issued world past request := issued
  refine @Machine.Reachable.invariant _ guard world later (fun world => Issued world past request)
    start ?_ reached
  intro state event next older _ taken
  exact Issued.step older taken

/-- When nothing goes on, an operation has been handled or its process has trapped. -/
theorem Issued.ended {past : Past app} {request : I.Request} (issued : world.Issued past request)
    (homed : world.Homed) (responsive : service.Responsive)
    (settled : (machine app service).Settled answering world) :
    world.Stopped past.entry ∨ ∃ response, (past, ⟨request, response⟩) ∈ world.acknowledged := by
  cases issued with
  | outstanding member same asked => exact .inl (same ▸ homed.stopped responsive settled member)
  | handled member => exact .inr ⟨_, member⟩

end Settled

end World

end Gbc.Callback
