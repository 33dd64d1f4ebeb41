import Mathlib.Data.List.Nodup
import Mathlib.Data.List.Perm.Subperm
import Gbc.Account.Steady

/-!
# The auth state listeners

The Home screen and the profile screen add a listener whenever they appear; only the
profile screen removes one when it disappears. UIKit calls `viewWillAppear` and
`viewWillDisappear` of a screen by turns: when it is pushed or popped, when another tab
is chosen, and once more when an interactive pop is cancelled.
-/

namespace Gbc.Account

open Callback Handler World

variable {rules : URLRules}

/-- How often a screen has appeared and disappeared. -/
structure Visits where
  appeared : Nat
  disappeared : Nat

namespace Visits

/-- The last of the two calls was `viewWillAppear`. -/
def visible (visits : Visits) : Bool := visits.appeared != visits.disappeared

/-- The visits after an input of the screen. -/
def note (visits : Visits) : Input → Visits
  | .viewWillAppear => { visits with appeared := visits.appeared + 1 }
  | .viewWillDisappear => { visits with disappeared := visits.disappeared + 1 }
  | _ => visits

/-- UIKit lets a screen appear while it is not visible and disappear while it is. -/
def permits (visits : Visits) : Input → Bool
  | .viewWillAppear => !visits.visible
  | .viewWillDisappear => visits.visible
  | _ => true

/-- The two calls have come by turns. -/
structure Alternate (visits : Visits) : Prop where
  lower : visits.disappeared ≤ visits.appeared
  upper : visits.appeared ≤ visits.disappeared + 1

variable {visits : Visits} {input : Input}

@[simp] theorem visible_iff : visits.visible = true ↔ visits.appeared ≠ visits.disappeared := by
  simp [visible]

theorem note_of_ne (appears : input ≠ .viewWillAppear)
    (disappears : input ≠ .viewWillDisappear) : visits.note input = visits := by
  cases input with
  | viewWillAppear => exact absurd rfl appears
  | viewWillDisappear => exact absurd rfl disappears
  | _ => rfl

/-- A call that UIKit may make keeps the turns. -/
theorem Alternate.note (alternate : visits.Alternate) (permitted : visits.permits input = true) :
    (visits.note input).Alternate := by
  obtain ⟨lower, upper⟩ := alternate
  cases input with
  | viewWillAppear =>
      simp only [permits, visible, Bool.not_eq_true', bne_eq_false_iff_eq] at permitted
      constructor <;> simp only [Visits.note] <;> omega
  | viewWillDisappear =>
      simp only [permits, visible_iff] at permitted
      constructor <;> simp only [Visits.note] <;> omega
  | _ => exact ⟨lower, upper⟩

/-- A screen is visible during the one visit that has begun and not ended. -/
theorem Alternate.visible_eq (alternate : visits.Alternate) :
    (if visits.visible then 1 else 0) = visits.appeared - visits.disappeared := by
  obtain ⟨lower, upper⟩ := alternate
  split
  · rename_i visible
    rw [visible_iff] at visible
    omega
  · rename_i hidden
    rw [visible_iff] at hidden
    omega

end Visits

/-- The auth state listeners of a screen that are alive. The sign-up form adds none. -/
def Screen.listeners : Screen → Option (List Nat)
  | .signUp _ => none
  | .profile self => some self.listeners
  | .home self => some self.listeners

/-- Count the visits of each screen. -/
def visit (_ : AccountWorld rules) (event : Event (app rules) (firebase rules))
    (visits : Nat → Visits) : Nat → Visits :=
  match event with
  | .input index input => Function.update visits index ((visits index).note input)
  | _ => visits

/-- The account screens and their visits. -/
abbrev visiting (rules : URLRules) : Machine := (system rules).noting visit

/-- Nothing has appeared yet. -/
def unvisited (rules : URLRules) : (visiting rules).State :=
  (start rules, fun _ => ⟨0, 0⟩)

/-- Appearances and disappearances as UIKit produces them. -/
def asUIKit (state : (visiting rules).State) : Event (app rules) (firebase rules) → Bool
  | .input index input => (state.2 index).permits input
  | _ => true

section Queries

/-- A query of `getUserData`. -/
def isProfileQuery : Request rules → Bool
  | .query .users _ _ => true
  | _ => false

/-- The number of profile queries of a screen that are outstanding. -/
def queries (index : Nat) (world : AccountWorld rules) : Nat :=
  world.pending.countP fun pending => pending.self == index && isProfileQuery pending.request

/-- The calls of an auth state event, each given by the screen and its listener. -/
def calls (currentUser : Option User) (called : List (Nat × Nat)) :
    List (Event (app rules) (firebase rules)) :=
  called.map fun call => .input call.1 (.authState call.2 currentUser)

/-- An auth state event calls listeners that are alive, each of them once. -/
structure Notified (world : AccountWorld rules) (called : List (Nat × Nat)) : Prop where
  once : called.Nodup
  alive : ∀ call ∈ called, ∃ target listeners, world.objects[call.1]? = some target ∧
    target.object.listeners = some listeners ∧ call.2 ∈ listeners

variable {world next later : AccountWorld rules} {index : Nat}

/-- A call of a listener runs to its end and starts at most one operation. -/
theorem Screen.authState_starts (rules : URLRules) (screen : Screen) (listener : Nat)
    (currentUser : Option User) :
    ∃ after, ((app rules).handler (.authState listener currentUser)).leaves screen = some after ∧
      (((app rules).handler (.authState listener currentUser)).requests screen).length ≤ 1 := by
  have guarded : ∀ {alive : Prop} [Decidable alive] {code : Handler rules},
      (∃ after, code.leaves screen = some after ∧ (code.requests screen).length ≤ 1) →
      ∃ after, (if alive then code else .done : Handler rules).leaves screen = some after ∧
        ((if alive then code else .done : Handler rules).requests screen).length ≤ 1 := by
    intro alive _ code starts
    split
    · exact starts
    · exact ⟨screen, rfl, Nat.zero_le 1⟩
  cases screen with
  | signUp self => exact ⟨_, rfl, Nat.zero_le 1⟩
  | profile self =>
      cases currentUser with
      | none => exact ⟨_, rfl, Nat.zero_le 1⟩
      | some user => exact guarded ⟨_, rfl, Nat.le_refl 1⟩
  | home self =>
      cases currentUser with
      | none => exact ⟨_, rfl, Nat.zero_le 1⟩
      | some user => exact guarded ⟨_, rfl, Nat.le_refl 1⟩

/-- One call starts at most one query, of its own screen. -/
theorem queries_of_call (index : Nat) {self listener : Nat} {currentUser : Option User}
    (taken : world.step (.input self (.authState listener currentUser)) = some next) :
    queries index next ≤ queries index world + if self = index then 1 else 0 := by
  cases stepped_of_step taken with
  | @began self input target placed =>
      obtain ⟨after, ends, few⟩ :=
        target.object.authState_starts rules listener currentUser
      let ticked : AccountWorld rules := { world with clock := world.clock + 1 }
      obtain ⟨started, outstanding, requests, own⟩ := exec_started ticked self
        ⟨⟨world.clock, self, .authState listener currentUser, target.object⟩, []⟩ ends
      have bound : started.length ≤ 1 := by
        rw [← List.length_map Pending.request, requests]
        exact few
      unfold queries
      rw [outstanding, List.countP_append]
      refine Nat.add_le_add_left ?_ _
      by_cases here : self = index
      · rw [if_pos here]
        exact List.countP_le_length.trans bound
      · rw [if_neg here, Nat.le_zero, List.countP_eq_zero]
        intro pending member
        simp [own pending member, here]

/-- The calls of an auth state event start at most one query each. -/
theorem queries_of_calls {currentUser : Option User} {called : List (Nat × Nat)}
    (run : (system rules).runWhile (system rules).anyStep world (calls currentUser called) =
      some later) :
    queries index later ≤ queries index world + called.countP fun call => call.1 == index := by
  induction called generalizing world with
  | nil =>
      cases run
      simp
  | cons call called inductionHypothesis =>
      obtain ⟨next, taken, rest⟩ := Option.bind_eq_some_iff.mp run
      have first := queries_of_call index taken
      have others := inductionHypothesis rest
      rw [List.countP_cons]
      simp only [beq_iff_eq]
      omega

/-- An auth state event calls a screen at most as often as it has listeners. -/
theorem Notified.countP_le {called : List (Nat × Nat)} {target : Instance (app rules)}
    {listeners : List Nat} (notified : Notified world called)
    (placed : world.objects[index]? = some target)
    (listens : target.object.listeners = some listeners) :
    called.countP (fun call => call.1 == index) ≤ listeners.length := by
  let own := called.filter fun call => call.1 == index
  have distinct : (own.map Prod.snd).Nodup := by
    refine List.Nodup.map_on ?_ (notified.once.filter _)
    intro first one second other same
    have here : first.1 = second.1 :=
      (beq_iff_eq.mp (List.mem_filter.mp one).2).trans
        (beq_iff_eq.mp (List.mem_filter.mp other).2).symm
    exact Prod.ext here same
  have alive : own.map Prod.snd ⊆ listeners := by
    intro listener member
    obtain ⟨call, called, rfl⟩ := List.mem_map.mp member
    obtain ⟨called, here⟩ := List.mem_filter.mp called
    obtain ⟨screen, others, found, shown, alive⟩ := notified.alive call called
    rw [beq_iff_eq.mp here, placed] at found
    obtain rfl := Option.some.inj found
    obtain rfl := Option.some.inj (listens.symm.trans shown)
    exact alive
  calc called.countP (fun call => call.1 == index)
      = (own.map Prod.snd).length := by rw [List.countP_eq_length_filter, List.length_map]
    _ ≤ listeners.length := (distinct.subperm alive).length_le

end Queries

section Visits

variable {visits : Visits} {input : Input}

/-- What the visits of a screen say of its listeners. The profile screen has a listener
for a visit that has not ended, and `handle` is that one; the Home screen has one for every
visit there was. -/
def Screen.Follows (visits : Visits) : Screen → Prop
  | .signUp _ => True
  | .profile self =>
      visits.appeared = visits.disappeared + self.listeners.length ∧
        ∀ listener ∈ self.listeners, self.handle = some listener
  | .home self => visits.appeared = self.listeners.length

/-- The frame of what the visits say. -/
abbrev following : Frame Screen where
  keeps before after := ∀ visits, before.Follows visits → after.Follows visits
  made _ := False
  refl _ _ follows := follows
  trans former latter visits follows := latter visits (former visits follows)

theorem following_lax : Lax following where
  signUp _ _ _ _ := trivial
  profile before after handle listeners _ visits follows := by
    simp only [Screen.Follows, handle, listeners]
    exact follows
  home before after listeners visits follows := by
    simp only [Screen.Follows, listeners]
    exact follows

/-- A call of `viewWillAppear` or `viewWillDisappear` that UIKit may make is followed. -/
theorem Screen.follows_of_visit (rules : URLRules) {screen : Screen}
    (visited : input = .viewWillAppear ∨ input = .viewWillDisappear)
    (permitted : visits.permits input = true) (alternate : visits.Alternate)
    (follows : screen.Follows visits) :
    ∃ after, ((app rules).handler input).leaves screen = some after ∧
      ((app rules).handler input).requests screen = [] ∧ after.Follows (visits.note input) := by
  obtain ⟨lower, upper⟩ := alternate
  rcases visited with rfl | rfl
  · simp only [Visits.permits, Visits.visible, Bool.not_eq_true', bne_eq_false_iff_eq] at permitted
    cases screen with
    | signUp self => exact ⟨_, rfl, rfl, trivial⟩
    | profile self =>
        obtain ⟨count, handled⟩ := follows
        have none : self.listeners = [] := List.length_eq_zero_iff.mp (by omega)
        refine ⟨_, rfl, rfl, ?_, ?_⟩
        · show visits.appeared + 1 = visits.disappeared + (self.listeners ++ [self.added]).length
          rw [none, List.nil_append, List.length_singleton, permitted]
        · show ∀ listener ∈ self.listeners ++ [self.added], some self.added = some listener
          simp [none]
    | home self =>
        have count : visits.appeared = self.listeners.length := follows
        refine ⟨_, rfl, rfl, ?_⟩
        show visits.appeared + 1 = (self.listeners ++ [self.added]).length
        rw [List.length_append, List.length_singleton, count]
  · simp only [Visits.permits, Visits.visible_iff] at permitted
    cases screen with
    | signUp self => exact ⟨_, rfl, rfl, trivial⟩
    | profile self =>
        obtain ⟨count, handled⟩ := follows
        obtain ⟨listener, single⟩ := List.length_eq_one_iff.mp
          (show self.listeners.length = 1 by omega)
        have handle := handled listener (by simp [single])
        have removed : self.listeners.erase listener = [] := by simp [single]
        refine ⟨.profile { self with listeners := [] }, ?_, ?_, ?_, nofun⟩
        · show Code.leaves (Code.unwrap self.handle _ _) _ = _
          conv_lhs => rw [handle]
          rw [← removed]
          rfl
        · show Code.requests (Code.unwrap self.handle _ _) _ = []
          rw [handle]
          rfl
        · show visits.appeared = visits.disappeared + 1 + 0
          omega
    | home self => exact ⟨_, rfl, rfl, follows⟩

end Visits

section Runs

variable {state next : (visiting rules).State} {event : Event (app rules) (firebase rules)}
  {index : Nat} {target : Instance (app rules)} {listeners : List Nat}

/-- The visits of all screens come by turns, and every screen follows its own. -/
structure InTurn (state : (visiting rules).State) : Prop where
  alternate : ∀ index, (state.2 index).Alternate
  unborn : ∀ index, state.1.objects[index]? = none → state.2 index = ⟨0, 0⟩
  pending : SteadyPending following state.1
  screens : ∀ (index : Nat) (target : Instance (app rules)),
    state.1.objects[index]? = some target → target.object.Follows (state.2 index)

theorem inTurn_unvisited : InTurn (unvisited rules) where
  alternate _ := ⟨Nat.le_refl 0, Nat.zero_le 1⟩
  unborn _ _ := rfl
  pending := steadyPending_initial
  screens _ _ placed := by simp [unvisited, start, World.initial] at placed

/-- A screen that opens has not appeared yet. -/
theorem InTurn.launch {process : Nat} {root : Root} (inTurn : InTurn state) :
    InTurn ({ state.1 with objects := state.1.objects ++ [⟨process, root.screen⟩] }, state.2) where
  alternate := inTurn.alternate
  unborn index absent := by
    have beyond := List.getElem?_eq_none_iff.mp absent
    simp only [List.length_append, List.length_singleton] at beyond
    exact inTurn.unborn index (List.getElem?_eq_none_iff.mpr (by omega))
  pending := inTurn.pending
  screens index target placed := by
    rcases Nat.lt_trichotomy index state.1.objects.length with below | rfl | beyond
    · rw [List.getElem?_append_left below] at placed
      exact inTurn.screens index target placed
    · rw [List.getElem?_concat_length] at placed
      obtain rfl := Option.some.inj placed
      rw [inTurn.unborn _ (List.getElem?_eq_none_iff.mpr (Nat.le_refl _))]
      cases root with
      | signUp => trivial
      | profile => exact ⟨rfl, nofun⟩
      | home => rfl
    · have absent : (state.1.objects ++ [⟨process, root.screen⟩])[index]? = none := by
        simp only [List.getElem?_eq_none_iff, List.length_append, List.length_singleton]
        omega
      rw [absent] at placed
      cases placed

/-- A handler body other than an appearance changes nothing that the visits say. -/
theorem InTurn.exec {world : AccountWorld rules} {self : Nat} {past : Past (app rules)}
    {code : Handler rules} (inTurn : InTurn state) (steady : code.Steady following)
    (placed : world.objects[self]? = some target) (objects : world.objects = state.1.objects)
    (pending : SteadyPending following world) :
    InTurn (World.exec self past code target world, state.2) where
  alternate := inTurn.alternate
  unborn index absent := by
    refine inTurn.unborn index ?_
    cases found : state.1.objects[index]? with
    | none => rfl
    | some before =>
        have retained : Retains following world (World.exec self past code target world) :=
          exec_retains steady placed (.refl world)
        obtain ⟨after, present, -⟩ := retained index before (objects ▸ found)
        rw [absent] at present
        cases present
  pending := exec_steadyPending steady pending
  screens index after found := by
    obtain ⟨before, present, kept⟩ := exec_origin (fun _ => id) steady placed found
    exact kept _ (inTurn.screens index before (objects ▸ present))

/-- An appearance or a disappearance is followed by its own screen, and changes no other. -/
theorem InTurn.appear {world : AccountWorld rules} {past : Past (app rules)} {input : Input}
    (inTurn : InTurn state) (visited : input = .viewWillAppear ∨ input = .viewWillDisappear)
    (permitted : (state.2 index).permits input = true)
    (placed : world.objects[index]? = some target) (objects : world.objects = state.1.objects)
    (pending : world.pending = state.1.pending) :
    InTurn (World.exec index past ((app rules).handler input) target world,
      Function.update state.2 index ((state.2 index).note input)) := by
  obtain ⟨after, ends, silent, follows⟩ := Screen.follows_of_visit rules visited
    permitted (inTurn.alternate index) (inTurn.screens index target (objects ▸ placed))
  have changed := exec_objects world past ends placed
  obtain ⟨started, outstanding, requests, -⟩ := exec_started world index past ends
  obtain rfl := List.map_eq_nil_iff.mp (requests.trans silent)
  have bound := (List.getElem?_eq_some_iff.mp placed).1
  refine ⟨fun other => ?_, fun other absent => ?_, fun operation member => ?_,
    fun other screen found => ?_⟩
  · by_cases here : other = index
    · subst here
      simpa using (inTurn.alternate other).note permitted
    · simpa [Function.update_of_ne here] using inTurn.alternate other
  · rw [changed, List.getElem?_eq_none_iff, List.length_set] at absent
    have elsewhere : other ≠ index := by omega
    simp only [Function.update_of_ne elsewhere]
    exact inTurn.unborn other (List.getElem?_eq_none_iff.mpr (objects ▸ absent))
  · rw [outstanding, List.append_nil, pending] at member
    exact inTurn.pending operation member
  · rw [changed] at found
    by_cases here : other = index
    · subst here
      rw [List.getElem?_set_self bound] at found
      obtain rfl := Option.some.inj found
      simpa using follows
    · rw [List.getElem?_set_ne (Ne.symm here)] at found
      simpa [Function.update_of_ne here] using inTurn.screens other screen (objects ▸ found)

/-- One step as UIKit may take it. -/
theorem InTurn.step (inTurn : InTurn state) (permitted : asUIKit state event = true)
    (taken : (visiting rules).step state event = some next) : InTurn next := by
  obtain ⟨taken, noted⟩ := Machine.noting_step.mp taken
  obtain ⟨later, visits⟩ := next
  obtain rfl : visit state.1 event state.2 = visits := noted
  have stepped : state.1.step event = some later := taken
  cases stepped_of_step stepped with
  | launched => exact inTurn.launch
  | @began self input target placed =>
      by_cases visited : input = .viewWillAppear ∨ input = .viewWillDisappear
      · exact inTurn.appear visited permitted placed rfl rfl
      · obtain ⟨appears, disappears⟩ := not_or.mp visited
        have unchanged : visit state.1 (.input self input) state.2 = state.2 := by
          simp only [visit]
          rw [Visits.note_of_ne appears disappears, Function.update_eq_self]
        rw [unchanged]
        have steady : ((app rules).handler input).Steady following :=
          fun screen => screen.steady_of_lax following_lax appears disappears
        exact inTurn.exec steady placed rfl inTurn.pending
  | @served index self choice past request completion served response found =>
      refine ⟨inTurn.alternate, inTurn.unborn, fun operation member => ?_, inTurn.screens⟩
      rcases List.mem_or_eq_of_mem_set member with old | rfl
      · exact inTurn.pending operation old
      · exact inTurn.pending ⟨self, past, request, completion, none⟩
          (List.mem_of_getElem? found)
  | @completed index self past request completion response target found placed =>
      have steady := inTurn.pending _ (List.mem_of_getElem? found) response
      exact inTurn.exec steady placed rfl fun operation member =>
        inTurn.pending operation (List.mem_of_mem_eraseIdx member)

theorem inTurn_of_reaches
    (reached : (visiting rules).Reaches asUIKit (unvisited rules) state) : InTurn state :=
  reached.invariant inTurn_unvisited fun inTurn permitted taken =>
    inTurn.step permitted taken

/-- The screen has one live listener while it is visible and none while it is not, and an
auth state event starts no more queries than that. -/
structure Balanced (state : (visiting rules).State) (index : Nat) (listeners : List Nat) :
    Prop where
  alive : listeners.length = if (state.2 index).visible then 1 else 0
  triggers : ∀ currentUser called later, Notified state.1 called →
    (system rules).runWhile (system rules).anyStep state.1 (calls currentUser called) =
      some later →
    queries index later ≤ queries index state.1 + if (state.2 index).visible then 1 else 0

/-- As many queries as listeners. -/
theorem balanced_of_length (placed : state.1.objects[index]? = some target)
    (listens : target.object.listeners = some listeners)
    (alive : listeners.length = if (state.2 index).visible then 1 else 0) :
    Balanced state index listeners where
  alive := alive
  triggers currentUser called later notified run :=
    calc queries index later
        ≤ queries index state.1 + called.countP (fun call => call.1 == index) :=
          queries_of_calls run
      _ ≤ queries index state.1 + listeners.length :=
          Nat.add_le_add_left (notified.countP_le placed listens) _
      _ = _ := by rw [alive]

/-- The listeners of a profile screen are always balanced, those of a Home screen until it
disappears for the first time. -/
theorem listeners_balanced_iff
    (reached : (visiting rules).Reaches asUIKit (unvisited rules) state)
    (placed : state.1.objects[index]? = some target)
    (listens : target.object.listeners = some listeners) :
    Balanced state index listeners ↔
      ∀ self, target.object = .home self → (state.2 index).disappeared = 0 := by
  have inTurn := inTurn_of_reaches reached
  have visible := (inTurn.alternate index).visible_eq
  have follows := inTurn.screens index target placed
  obtain ⟨process, screen⟩ := target
  cases screen with
  | signUp self => cases listens
  | profile self =>
      obtain rfl := Option.some.inj listens
      have count := follows.1
      refine iff_of_true (balanced_of_length placed rfl ?_) nofun
      rw [visible]
      omega
  | home self =>
      obtain rfl := Option.some.inj listens
      have count : (state.2 index).appeared = self.listeners.length := follows
      constructor
      · intro balanced _ _
        have lower := (inTurn.alternate index).lower
        have alive := balanced.alive
        rw [visible] at alive
        omega
      · intro stayed
        have never := stayed self rfl
        refine balanced_of_length placed rfl ?_
        rw [visible]
        omega

end Runs

section Schedules

/-- A screen appears, goes away and comes back, as when another tab is chosen or when an
interactive pop is cancelled. -/
def comingBack (root : Root) : List (Event (app anyText) (firebase anyText)) :=
  [.launch 0 root, .input 0 .viewWillAppear, .input 0 .viewWillDisappear,
    .input 0 .viewWillAppear]

/-- A pop of the profile screen is cancelled. -/
theorem listeners_balanced_iff_cancelled :
    ∃ state self, (visiting anyText).Reaches asUIKit (unvisited anyText) state ∧
      state.1.objects[0]? = some ⟨0, .profile self⟩ ∧ self.listeners = [1] ∧
      Balanced state 0 self.listeners := by
  have replayed : ∃ state, (visiting anyText).runWhile asUIKit (unvisited anyText)
      (comingBack .profile) = some state := ⟨_, rfl⟩
  obtain ⟨state, replayed⟩ := replayed
  have reached := Machine.reaches_of_runWhile replayed
  cases replayed
  exact ⟨_, _, reached, rfl, rfl, (listeners_balanced_iff reached rfl rfl).mpr nofun⟩

/-- Another tab is chosen and then the Home tab again: one auth state event starts two
queries. -/
theorem home_listeners_pile_up :
    ¬ ∀ (rules : URLRules) (state : (visiting rules).State) (index : Nat)
      (target : Instance (app rules)) (listeners : List Nat),
      (visiting rules).Reaches asUIKit (unvisited rules) state →
      state.1.objects[index]? = some target → target.object.listeners = some listeners →
      Balanced state index listeners := by
  intro holds
  have replayed : ∃ state, (visiting anyText).runWhile asUIKit (unvisited anyText)
      (comingBack .home) = some state := ⟨_, rfl⟩
  obtain ⟨state, replayed⟩ := replayed
  have reached := Machine.reaches_of_runWhile replayed
  cases replayed
  have balanced := holds anyText _ 0 _ _ reached rfl rfl
  have two := balanced.triggers (some ⟨"u1", by decide⟩) [(0, 0), (0, 1)] _ ?_ rfl
  · exact absurd two (by decide)
  · refine ⟨by decide, fun call member => ?_⟩
    simp only [List.mem_cons, List.not_mem_nil, or_false] at member
    rcases member with rfl | rfl
    · exact ⟨_, _, rfl, rfl, List.mem_cons_self⟩
    · exact ⟨_, _, rfl, rfl, List.mem_cons_of_mem _ List.mem_cons_self⟩

end Schedules

end Gbc.Account
