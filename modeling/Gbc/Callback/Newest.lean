import Gbc.Callback.Slots

/-!
# Operations that overtake each other

Operations are grouped, and within a group a newer one should be handled last. A run in
which the last outstanding operation of a group to be handled is always its newest ends
up, whenever a group has nothing outstanding, with what its newest operation has written.
Inputs that bind the cells of a table make such groups, one for each cell.
-/

namespace Gbc.Callback

variable {I : Interface} {app : App I} {service : Service I}

/-- A handler body starts an operation, unless it traps before. -/
def Code.Operates {Object Fault : Type} : Code I Object Fault → Object → Prop
  | .done, _ => False
  | .trap _, _ => True
  | .look next, object => Operates (next object) object
  | .modify change next, object => Operates next (change object)
  | .alert _ next, object => Operates next object
  | .call _ _ _, _ => True
  | .present object start, _ => Operates start object

theorem Code.operates_unwrap {Object Fault Value : Type} {value : Option Value} {fault : Fault}
    {next : Value → Code I Object Fault} {object : Object}
    (found : ∀ inner, (next inner).Operates object) :
    (Code.unwrap value fault next).Operates object := by
  cases value with
  | none => trivial
  | some inner => exact found inner

namespace World

variable {Group : Type}
  {group : Past app → Option Group} {slot : Slot app} {world next : World app service}
  {event : Event app service}

/-- No operation of a group is outstanding. -/
def Idle (group : Past app → Option Group) (member : Group) (world : World app service) : Prop :=
  ∀ pending ∈ world.pending, group pending.past ≠ some member

/-- The newest operation of a group. -/
structure Newest (group : Past app → Option Group) (member : Group) (world : World app service)
    (past : Past app) : Prop where
  occurs : world.Occurs past
  grouped : group past = some member
  latest : ∀ other, world.Occurs other → group other = some member →
    other.entry.serial ≤ past.entry.serial

/-- Once a group has nothing outstanding, its newest operation has been handled. -/
theorem Newest.handled {member : Group} {past : Past app} (newest : Newest group member world past)
    (idle : Idle group member world) : ∃ exchange, (past, exchange) ∈ world.acknowledged := by
  cases newest.occurs with
  | outstanding member same => exact absurd (same ▸ newest.grouped) (idle _ member)
  | handled member => exact ⟨_, member⟩

variable [DecidableEq Group]

/-- After the last outstanding operation of a group, none is handled that is older than
one that has been handled. -/
def endsNewest (group : Past app → Option Group) (world : World app service)
    (event : Event app service) : Bool :=
  match event with
  | .reply index =>
      (world.pending[index]?).all fun pending =>
        match group pending.past with
        | none => true
        | some member =>
            (world.pending.eraseIdx index).any (fun other => group other.past == some member) ||
              world.acknowledged.all fun handled => group handled.1 != some member ||
                decide (handled.1.entry.serial < pending.past.entry.serial)
  | _ => true

/-- In a group with nothing outstanding, the operation that was handled last is the
newest one. -/
def NewestLast (group : Past app → Option Group) (world : World app service) : Prop :=
  ∀ member, Idle group member world → ∀ last earlier,
    (world.acknowledged.filter fun handled => group handled.1 == some member) =
      last :: earlier →
    ∀ handled ∈ earlier, handled.1.entry.serial < last.1.entry.serial

theorem NewestLast.step (valid : NewestLast group world)
    (meets : endsNewest group world event = true) (taken : world.step event = some next) :
    NewestLast group next := by
  intro member idle last earlier listed
  cases stepped_of_step taken with
  | launched => exact valid member idle last earlier listed
  | began =>
      rw [exec_acknowledged] at listed
      exact valid member (fun pending old => idle pending (mem_exec_pending old)) last earlier
        listed
  | @served index self choice past request completion later response found =>
      refine valid member (fun pending old => ?_) last earlier listed
      by_cases here : pending = ⟨self, past, request, completion, none⟩
      · subst here
        have bound := (List.getElem?_eq_some_iff.mp found).1
        exact idle ⟨self, past, request, completion, some response⟩ (List.mem_set bound _)
      · exact idle pending ((mem_rest_of_ne found old here).2 _)
  | @completed index self past request completion response target found placed =>
      rw [exec_acknowledged] at listed
      simp only [List.filter_cons] at listed
      have rest : ∀ pending ∈ world.pending.eraseIdx index, group pending.past ≠ some member :=
        fun pending old => idle pending (mem_exec_pending old)
      by_cases here : group past = some member
      · simp only [here, beq_self_eq_true, if_true, List.cons.injEq] at listed
        obtain ⟨rfl, rfl⟩ := listed
        simp only [endsNewest, found, Option.all_some, here, Bool.or_eq_true] at meets
        rcases meets with another | newest
        · obtain ⟨other, old, same⟩ := List.any_eq_true.mp another
          exact absurd (beq_iff_eq.mp same) (rest other old)
        · intro handled old
          obtain ⟨old, same⟩ := List.mem_filter.mp old
          have older := List.all_eq_true.mp newest handled old
          simpa [beq_iff_eq.mp same] using older
      · have skipped : (group past == some member) = false := by simpa using here
        simp only [skipped, Bool.false_eq_true, if_false] at listed
        refine valid member (fun pending old => ?_) last earlier listed
        by_cases own : pending = ⟨self, past, request, completion, some response⟩
        · subst own
          exact here
        · exact rest pending (mem_rest_of_ne found old own).1

theorem newestLast_of_reaches {server : service.State}
    (reached : (machine app service).Reaches (endsNewest group) (World.initial app server)
      world) : NewestLast group world := by
  refine reached.invariant ?_ fun valid meets taken => valid.step meets taken
  intro member _ last earlier listed
  cases listed

/-- The first write in a list is that of its first member which writes. -/
theorem findSome?_of_filter {Entry Value : Type} {write : Entry → Option Value}
    {selects : Entry → Bool} {entries rest : List Entry} {first : Entry}
    (silent : ∀ entry ∈ entries, selects entry = false → write entry = none)
    (listed : entries.filter selects = first :: rest) (writes : (write first).isSome = true) :
    entries.findSome? write = write first := by
  induction entries with
  | nil => cases listed
  | cons entry entries inductionHypothesis =>
      by_cases selected : selects entry = true
      · simp only [List.filter_cons, selected, if_true, List.cons.injEq] at listed
        obtain ⟨rfl, rfl⟩ := listed
        obtain ⟨value, written⟩ := Option.isSome_iff_exists.mp writes
        rw [List.findSome?_cons, written]
      · simp only [List.filter_cons, selected] at listed
        have nothing := silent entry List.mem_cons_self (Bool.eq_false_iff.mpr selected)
        rw [List.findSome?_cons, nothing]
        exact inductionHypothesis
          (fun other old => silent other (List.mem_cons_of_mem _ old)) listed

/-- Once a group has nothing outstanding, the slot it writes holds what its newest
operation wrote. -/
theorem lastWrite_of_newest {self : Nat} {member : Group} {past : Past app}
    {exchange : Exchange I} (valid : NewestLast group world) (idle : Idle group member world)
    (newest : Newest group member world past) (handled : (past, exchange) ∈ world.acknowledged)
    (writes : ∀ other ∈ world.acknowledged, group other.1 = some member →
      other.1.entry.self = self ∧ (slot.writes other.1 other.2).isSome = true)
    (silent : ∀ other ∈ world.acknowledged, group other.1 ≠ some member →
      other.1.entry.self = self → slot.writes other.1 other.2 = none) :
    world.lastWrite slot self = slot.writes past exchange := by
  have selected : (past, exchange) ∈
      world.acknowledged.filter fun handled => group handled.1 == some member :=
    List.mem_filter.mpr ⟨handled, by simp [newest.grouped]⟩
  obtain ⟨last, earlier, listed⟩ := List.exists_cons_of_ne_nil (List.ne_nil_of_mem selected)
  have there : last ∈ world.acknowledged ∧ group last.1 = some member := by
    have first : last ∈ world.acknowledged.filter fun handled => group handled.1 == some member :=
      listed ▸ List.mem_cons_self
    obtain ⟨old, same⟩ := List.mem_filter.mp first
    exact ⟨old, beq_iff_eq.mp same⟩
  have same : last = (past, exchange) := by
    rcases List.mem_cons.mp (listed ▸ selected) with here | before
    · exact here.symm
    · have overtaken := valid member idle last earlier listed _ before
      have bound := newest.latest last.1 (.handled there.1) there.2
      simp only at overtaken
      omega
  obtain ⟨own, written⟩ := writes last there.1 there.2
  unfold lastWrite
  refine (findSome?_of_filter (fun other old skipped => ?_) listed ?_).trans ?_
  · have another : group other.1 ≠ some member := by simpa using skipped
    by_cases mine : other.1.entry.self = self
    · rw [if_pos mine]
      exact silent other old another mine
    · exact if_neg mine
  · rw [if_pos own]
    exact written
  · rw [if_pos own, same]

section Cells

/-- The operations of one cell of an object. An input binds a cell or none. -/
def cellOf (binds : Entry app → Option Nat) (past : Past app) : Option (Nat × Nat) :=
  (binds past.entry).map fun cell => (past.entry.self, cell)

variable {binds : Entry app → Option Nat} {index cell : Nat} {past : Past app}

theorem binds_of_cellOf (grouped : cellOf binds past = some (index, cell)) :
    past.entry.self = index ∧ binds past.entry = some cell := by
  obtain ⟨bound, found, same⟩ := Option.map_eq_some_iff.mp grouped
  obtain ⟨rfl, rfl⟩ := Prod.mk.inj same
  exact ⟨rfl, found⟩

/-- A body that starts an operation has started it, or it has stopped its process. -/
theorem exec_operates {self : Nat} {code : Code I app.Object app.Fault} {target : Instance app}
    (starts : code.Operates target.object) :
    (exec self past code target world).crashed target.process = true ∨
      (exec self past code target world).Occurs past := by
  induction code generalizing self target world with
  | done => exact starts.elim
  | trap fault => exact .inl (by simp [exec, crashed])
  | look next inductionHypothesis => exact inductionHypothesis _ starts
  | modify change next inductionHypothesis =>
      let changed : Instance app := { target with object := change target.object }
      have started : next.Operates changed.object := starts
      exact inductionHypothesis started
  | alert title next inductionHypothesis => exact inductionHypothesis starts
  | call request completion next =>
      let started : Pending app := ⟨self, past, request, completion, none⟩
      have outstanding : started ∈ (exec self past (.call request completion next) target
          world).pending := by
        rw [exec]
        exact mem_exec_pending (List.mem_append_right _ List.mem_cons_self)
      exact .inr (.outstanding outstanding rfl)
  | present object start inductionHypothesis =>
      let created : Instance app := { target with object := object }
      have started : start.Operates created.object := starts
      exact inductionHypothesis started

/-- A binding that starts an operation starts the newest one of its cell, unless it stops its
process before. -/
theorem newest_of_binding (clocked : Clocked world) {input : app.Input} {target : Instance app}
    (placed : world.objects[index]? = some target)
    (bound : binds ⟨world.clock, index, input, target.object⟩ = some cell)
    (starts : (app.handler input).Operates target.object)
    (taken : world.step (.input index input) = some next) :
    next.crashed target.process = true ∨ Newest (cellOf binds) (index, cell) next
      ⟨⟨world.clock, index, input, target.object⟩, []⟩ := by
  have later := clocked.step taken
  cases stepped_of_step taken with
  | began found =>
      cases placed.symm.trans found
      refine (exec_operates starts).imp_right fun started => ⟨started, by simp [cellOf, bound], ?_⟩
      intro other occurs _
      have before := later other occurs
      rw [exec_clock] at before
      exact Nat.le_of_lt_succ before

/-- A cell with nothing outstanding holds what its newest binding was delivered. -/
theorem holds_of_newest {delivers : Exchange I → Option slot.Value} {server : service.State}
    {target : Instance app} (sound : slot.Sound)
    (writes : ∀ past exchange, slot.writes past exchange =
      if binds past.entry = some cell then delivers exchange else none)
    (reached : (machine app service).Reaches (endsNewest (cellOf binds))
      (World.initial app server) world)
    (delivered : ∀ handled ∈ world.acknowledged, binds handled.1.entry = some cell →
      (delivers handled.2).isSome = true)
    (placed : world.objects[index]? = some target) (owns : slot.owner target.object)
    (runs : world.crashed target.process = false)
    (idle : Idle (cellOf binds) (index, cell) world)
    (newest : Newest (cellOf binds) (index, cell) world past) :
    ∃ exchange value, (past, exchange) ∈ world.acknowledged ∧ delivers exchange = some value ∧
      slot.holds value target.object := by
  obtain ⟨own, bound⟩ := binds_of_cellOf newest.grouped
  obtain ⟨exchange, handled⟩ := newest.handled idle
  obtain ⟨value, answer⟩ := Option.isSome_iff_exists.mp (delivered _ handled bound)
  have last : world.lastWrite slot index = slot.writes past exchange := by
    refine lastWrite_of_newest (newestLast_of_reaches reached) idle newest handled ?_ ?_
    · intro other old grouped
      obtain ⟨mine, same⟩ := binds_of_cellOf grouped
      refine ⟨mine, ?_⟩
      rw [writes, if_pos same]
      exact delivered other old same
    · intro other old another mine
      have unbound : binds other.1.entry ≠ some cell := by
        intro same
        exact another (by simp [cellOf, same, mine])
      rw [writes, if_neg unbound]
  have held := (slotted_of_reachable sound reached).value index target placed owns runs
  rw [last, writes, if_pos bound, answer] at held
  exact ⟨exchange, value, handled, answer, held⟩

end Cells

end World

end Gbc.Callback
