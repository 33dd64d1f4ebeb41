import Gbc.Callback.Code

/-!
# The history a world carries

A world remembers which operations have been answered: those whose completion
handler has run, and those that still wait for it. Steps only add to these answers,
and the past of every handler is made of them, so a property of a flow can be read
off the pasts of its operations.
-/

namespace Gbc.Callback.World

variable {I : Interface} {app : App I} {service : Service I}

/-- An operation started by a handler with this past has been answered. -/
inductive Answered (world : World app service) (past : Past app) (exchange : Exchange I) :
    Prop where
  | handled (member : (past, exchange) ∈ world.acknowledged)
  | awaiting {self : Nat}
      {completion : I.Response exchange.request → Code I app.Object app.Fault}
      (member : ⟨self, past, exchange.request, completion, some exchange.response⟩ ∈
        world.pending)

/-- All answered operations. -/
def answers (world : World app service) : List (Past app × Exchange I) :=
  world.pending.filterMap (fun pending =>
    pending.answer.map fun response => (pending.past, ⟨pending.request, response⟩)) ++
    world.acknowledged

/-- A handler with this past has started an operation. -/
inductive Occurs (world : World app service) (past : Past app) : Prop where
  | outstanding {pending : Pending app} (member : pending ∈ world.pending)
      (same : pending.past = past)
  | handled {exchange : Exchange I} (member : (past, exchange) ∈ world.acknowledged)

/-- The past of a handler consists of operations that have been handled. -/
def Traced (world : World app service) : Prop :=
  ∀ entry exchange trail, world.Occurs ⟨entry, exchange :: trail⟩ →
    (⟨entry, trail⟩, exchange) ∈ world.acknowledged

/-- Every handler traces back to an input of this kind. -/
def BeganWith (holds : Entry app → Prop) (world : World app service) : Prop :=
  ∀ past, world.Occurs past → holds past.entry

variable {world next : World app service} {event : Event app service} {past : Past app}
  {exchange : Exchange I}

/-- Answered operations were started. -/
theorem Answered.occurs (answered : world.Answered past exchange) : world.Occurs past := by
  cases answered with
  | handled member => exact .handled member
  | awaiting member => exact .outstanding member rfl

theorem mem_answers_iff : (past, exchange) ∈ world.answers ↔ world.Answered past exchange := by
  constructor
  · intro member
    rcases List.mem_append.mp member with awaiting | handled
    · obtain ⟨⟨self, older, request, completion, answer⟩, outstanding, same⟩ :=
        List.mem_filterMap.mp awaiting
      cases answer with
      | none => cases same
      | some response =>
          cases same
          exact .awaiting outstanding
    · exact .handled handled
  · intro answered
    cases answered with
    | handled member => exact List.mem_append_right _ member
    | awaiting member =>
        exact List.mem_append_left _ (List.mem_filterMap.mpr ⟨_, member, rfl⟩)

/-- A handler acknowledges nothing. -/
@[simp] theorem exec_acknowledged (self : Nat) (past : Past app)
    (code : Code I app.Object app.Fault) (target : Instance app) (world : World app service) :
    (exec self past code target world).acknowledged = world.acknowledged := by
  induction code generalizing self target world with
  | done => rfl
  | trap fault => rfl
  | look next inductionHypothesis => exact inductionHypothesis _ _ _ _
  | modify change next inductionHypothesis => exact inductionHypothesis _ _ _
  | alert title next inductionHypothesis => exact inductionHypothesis _ _ _
  | call request completion next _ inductionHypothesis => exact inductionHypothesis _ _ _
  | present object start inductionHypothesis => exact inductionHypothesis _ _ _

/-- A handler leaves the operations that were outstanding. -/
theorem mem_exec_pending {self : Nat} {code : Code I app.Object app.Fault}
    {target : Instance app} {pending : Pending app} (member : pending ∈ world.pending) :
    pending ∈ (exec self past code target world).pending := by
  induction code generalizing self target world with
  | done => exact member
  | trap fault => exact member
  | look next inductionHypothesis => exact inductionHypothesis _ member
  | modify change next inductionHypothesis => exact inductionHypothesis member
  | alert title next inductionHypothesis => exact inductionHypothesis member
  | call request completion next _ inductionHypothesis =>
      exact inductionHypothesis (List.mem_append_left _ member)
  | present object start inductionHypothesis => exact inductionHypothesis member

/-- Answers are never forgotten. -/
theorem Answered.step (answered : world.Answered past exchange)
    (taken : world.step event = some next) : next.Answered past exchange := by
  cases stepped_of_step taken with
  | launched =>
      cases answered with
      | handled member => exact .handled member
      | awaiting member => exact .awaiting member
  | began =>
      cases answered with
      | handled member => exact .handled (by simpa using member)
      | awaiting member => exact .awaiting (mem_exec_pending member)
  | @served index self choice past' request completion later response found =>
      cases answered with
      | handled member => exact .handled member
      | awaiting member =>
          obtain ⟨position, bound, same⟩ := List.getElem_of_mem member
          have different : index ≠ position := by
            rintro rfl
            obtain ⟨request', response'⟩ := exchange
            rw [List.getElem?_eq_getElem bound, same] at found
            cases found
          have kept : (world.pending.set index ⟨self, past', request, completion,
              some response⟩)[position]? = world.pending[position]? :=
            List.getElem?_set_ne different
          rw [List.getElem?_eq_getElem bound, same] at kept
          exact .awaiting (List.mem_of_getElem? kept)
  | @completed index self past' request completion response target found =>
      cases answered with
      | handled member =>
          exact .handled (by
            rw [exec_acknowledged]
            exact List.mem_cons_of_mem _ member)
      | awaiting member =>
          obtain ⟨position, bound, same⟩ := List.getElem_of_mem member
          by_cases here : position = index
          · subst here
            obtain ⟨request', response'⟩ := exchange
            rw [List.getElem?_eq_getElem bound, same] at found
            cases found
            exact .handled (by simp)
          · have kept := List.mem_eraseIdx_iff_getElem?.mpr
              ⟨position, here, List.getElem?_eq_getElem bound⟩
            rw [same] at kept
            exact .awaiting (mem_exec_pending kept)

/-- A step leaves the backend and the answers alone, or it serves one operation and
that answer is the only new one. -/
theorem answers_of_step (taken : world.step event = some next) :
    (next.server = world.server ∧
      ∀ past exchange, next.Answered past exchange → world.Answered past exchange) ∨
    ∃ past request response choice,
      service.serve world.server request choice = some (next.server, response) ∧
      world.Occurs past ∧ next.Answered past ⟨request, response⟩ ∧
      ∀ other exchange, next.Answered other exchange →
        world.Answered other exchange ∨ other = past ∧ exchange = ⟨request, response⟩ := by
  cases stepped_of_step taken with
  | launched =>
      refine .inl ⟨rfl, fun past exchange answered => ?_⟩
      cases answered with
      | handled member => exact .handled member
      | awaiting member => exact .awaiting member
  | began =>
      refine .inl ⟨by simp, fun past exchange answered => ?_⟩
      cases answered with
      | handled member => exact .handled (by simpa using member)
      | awaiting member =>
          rcases mem_pending_exec member with older | ⟨other, request, completion, same⟩
          · exact .awaiting older
          · obtain ⟨request', response'⟩ := exchange
            cases same
  | @served index self choice past request completion later response found serves =>
      have bound := (List.getElem?_eq_some_iff.mp found).1
      refine .inr ⟨past, request, response, choice, serves,
        .outstanding (List.mem_of_getElem? found) rfl, .awaiting (List.mem_set bound _), ?_⟩
      intro other exchange answered
      cases answered with
      | handled member => exact .inl (.handled member)
      | awaiting member =>
          rcases List.mem_or_eq_of_mem_set member with older | same
          · exact .inl (.awaiting older)
          · obtain ⟨request', response'⟩ := exchange
            cases same
            exact .inr ⟨rfl, rfl⟩
  | @completed index self past' request completion response target found =>
      refine .inl ⟨by simp, fun past exchange answered => ?_⟩
      cases answered with
      | handled member =>
          rw [exec_acknowledged] at member
          rcases List.mem_cons.mp member with same | older
          · cases same
            exact .awaiting (List.mem_of_getElem? found)
          · exact .handled older
      | awaiting member =>
          rcases mem_pending_exec member with older | ⟨other, request, completion, same⟩
          · exact .awaiting (List.mem_of_mem_eraseIdx older)
          · obtain ⟨request', response'⟩ := exchange
            cases same

/-- A past occurs for the first time when an input or an answer starts its handler. -/
theorem occurs_of_step (taken : world.step event = some next) (occurs : next.Occurs past) :
    world.Occurs past ∨
      (∃ self input target, event = .input self input ∧ world.objects[self]? = some target ∧
        past = ⟨⟨world.clock, self, input, target.object⟩, []⟩) ∨
      ∃ older request response, past = Past.answered older request response ∧
        world.Occurs older ∧ (older, ⟨request, response⟩) ∈ next.acknowledged := by
  cases stepped_of_step taken with
  | launched =>
      cases occurs with
      | outstanding member same => exact .inl (.outstanding member same)
      | handled member => exact .inl (.handled member)
  | @began self input target placed =>
      cases occurs with
      | outstanding member same =>
          rcases mem_pending_exec member with older | ⟨other, request, completion, rfl⟩
          · exact .inl (.outstanding older same)
          · exact .inr (.inl ⟨self, input, target, rfl, placed, same.symm⟩)
      | handled member =>
          rw [exec_acknowledged] at member
          exact .inl (.handled member)
  | @served index self choice past' request completion later response found =>
      cases occurs with
      | outstanding member same =>
          rcases List.mem_or_eq_of_mem_set member with older | rfl
          · exact .inl (.outstanding older same)
          · exact .inl (.outstanding (List.mem_of_getElem? found) same)
      | handled member => exact .inl (.handled member)
  | @completed index self past' request completion response target found =>
      cases occurs with
      | outstanding member same =>
          rcases mem_pending_exec member with older | ⟨other, request', completion', rfl⟩
          · exact .inl (.outstanding (List.mem_of_mem_eraseIdx older) same)
          · exact .inr (.inr ⟨past', request, response, same.symm,
              .outstanding (List.mem_of_getElem? found) rfl, by simp⟩)
      | handled member =>
          rw [exec_acknowledged] at member
          rcases List.mem_cons.mp member with same | older
          · cases same
            exact .inl (.outstanding (List.mem_of_getElem? found) rfl)
          · exact .inl (.handled older)

/-- Handled operations stay handled. -/
theorem mem_acknowledged_of_step {handled : Past app × Exchange I}
    (taken : world.step event = some next) (member : handled ∈ world.acknowledged) :
    handled ∈ next.acknowledged := by
  cases stepped_of_step taken with
  | launched => exact member
  | began => rw [exec_acknowledged]; exact member
  | served => exact member
  | completed => rw [exec_acknowledged]; exact List.mem_cons_of_mem _ member

theorem Traced.step (traced : world.Traced) (taken : world.step event = some next) :
    next.Traced := by
  intro entry exchange trail occurs
  rcases occurs_of_step taken occurs with
    older | ⟨self, input, target, _, _, same⟩ | ⟨past, request, response, same, _, handled⟩
  · exact mem_acknowledged_of_step taken (traced entry exchange trail older)
  · cases same
  · obtain ⟨entry', trail'⟩ := past
    cases same
    exact handled

/-- A handler takes no time. -/
@[simp] theorem exec_clock (self : Nat) (past : Past app) (code : Code I app.Object app.Fault)
    (target : Instance app) (world : World app service) :
    (exec self past code target world).clock = world.clock := by
  induction code generalizing self target world with
  | done => rfl
  | trap fault => rfl
  | look next inductionHypothesis => exact inductionHypothesis _ _ _ _
  | modify change next inductionHypothesis => exact inductionHypothesis _ _ _
  | alert title next inductionHypothesis => exact inductionHypothesis _ _ _
  | call request completion next _ inductionHypothesis => exact inductionHypothesis _ _ _
  | present object start inductionHypothesis => exact inductionHypothesis _ _ _

/-- Inputs that have begun a chain of handlers lie in the past. -/
def Clocked (world : World app service) : Prop :=
  ∀ past, world.Occurs past → past.entry.serial < world.clock

/-- Inputs are numbered in the order in which they happen. -/
theorem Clocked.step (clocked : Clocked world) (taken : world.step event = some next) :
    Clocked next := by
  intro past occurs
  have ticks : world.clock ≤ next.clock := by
    cases stepped_of_step taken <;> simp
  rcases occurs_of_step taken occurs with
    older | ⟨self, input, target, rfl, placed, rfl⟩ | ⟨older, request, response, rfl, old, _⟩
  · exact Nat.lt_of_lt_of_le (clocked past older) ticks
  · cases stepped_of_step taken with
    | began => simp
  · exact Nat.lt_of_lt_of_le (clocked older old) ticks

theorem clocked_initial (server : service.State) :
    Clocked (World.initial app server : World app service) := by
  intro past occurs
  cases occurs with
  | outstanding member => cases member
  | handled member => cases member

section Runs

variable {guard : (machine app service).Guard} {server : service.State}

/-- In every run, pasts consist of handled operations. -/
theorem traced_of_reachable
    (reached : Machine.Reachable guard (World.initial app server) world) : world.Traced := by
  refine reached.invariant ?_ fun traced _ taken => traced.step taken
  intro entry exchange trail occurs
  cases occurs with
  | outstanding member => cases member
  | handled member => cases member

theorem clocked_of_reachable
    (reached : Machine.Reachable guard (World.initial app server) world) : Clocked world :=
  reached.invariant (clocked_initial server) fun clocked _ taken => clocked.step taken

/-- What holds of the entries that inputs make holds of every entry of a run. -/
theorem beganWith_of_reachable {holds : Entry app → Prop}
    (made : ∀ (world : World app service) self input target, guard world (.input self input) →
      world.objects[self]? = some target →
      holds ⟨world.clock, self, input, target.object⟩)
    (reached : Machine.Reachable guard (World.initial app server) world) :
    BeganWith holds world := by
  refine reached.invariant ?_ ?_
  · intro past occurs
    cases occurs with
    | outstanding member => cases member
    | handled member => cases member
  · intro state event next valid meets taken past occurs
    rcases occurs_of_step taken occurs with
      older | ⟨self, input, target, rfl, placed, rfl⟩ | ⟨older, request, response, rfl, old, _⟩
    · exact valid past older
    · exact made state self input target meets placed
    · exact valid older old

end Runs

end Gbc.Callback.World
