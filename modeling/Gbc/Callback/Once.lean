import Mathlib.Data.List.Nodup
import Gbc.Callback.History

/-!
# Operations that are started once

A handler that starts at most one counted operation, and whose completion handlers do
so only for counted operations, makes a chain: a past is the past of at most one
counted operation. In a world of such handlers the counted operations can be told
apart by their pasts.
-/

namespace Gbc.Callback

variable {I : Interface} {app : App I} {service : Service I}

/-- A handler body starts at most one counted operation, and none unless `free`. The
completion handlers of counted operations are free to start one. -/
def Code.Once {Object Fault : Type} (counted : I.Request → Bool) :
    Bool → Code I Object Fault → Prop
  | _, .done => True
  | _, .trap _ => True
  | free, .look next => ∀ object, Once counted free (next object)
  | free, .modify _ next => Once counted free next
  | free, .alert _ next => Once counted free next
  | free, .call request completion next =>
      (counted request = true → free = true) ∧
      (∀ response, Once counted (counted request) (completion response)) ∧
      Once counted (free && !counted request) next
  | free, .present _ start => Once counted free start

namespace World

variable {counted : I.Request → Bool} {world next : World app service}
  {event : Event app service} {past : Past app}

/-- The pasts of the counted operations, outstanding or handled. -/
def counts (counted : I.Request → Bool) (world : World app service) : List (Past app) :=
  (world.pending.filter fun pending => counted pending.request).map (·.past) ++
    (world.acknowledged.filter fun handled => counted handled.2.request).map (·.1)

/-- Counted operations can be told apart by their pasts. -/
structure Counted (counted : I.Request → Bool) (world : World app service) : Prop where
  nodup : (world.counts counted).Nodup
  serial : ∀ past, world.Occurs past → past.entry.serial < world.clock
  completion : ∀ pending ∈ world.pending, ∀ response,
    Code.Once counted (counted pending.request) (pending.completion response)
  traced : world.Traced

/-- A counted past occurs. -/
theorem occurs_of_mem_counts (member : past ∈ world.counts counted) : world.Occurs past := by
  rcases List.mem_append.mp member with outstanding | handled
  · obtain ⟨pending, found, same⟩ := List.mem_map.mp outstanding
    exact .outstanding (List.mem_filter.mp found).1 same
  · obtain ⟨⟨other, exchange⟩, found, rfl⟩ := List.mem_map.mp handled
    exact .handled (List.mem_filter.mp found).1

/-- A started operation is counted once more, or it does not count. -/
theorem counts_call (counted : I.Request → Bool) (world : World app service)
    (pending : Pending app) :
    ({ world with pending := world.pending ++ [pending] }.counts counted).Perm
      (if counted pending.request then pending.past :: world.counts counted
        else world.counts counted) := by
  unfold counts
  rw [List.filter_append, List.map_append, List.append_assoc]
  by_cases here : counted pending.request = true
  · simp [here, List.perm_middle]
  · simp [here]

/-- A handler keeps the counted pasts apart when its own is new. -/
theorem exec_counts {self : Nat} {free : Bool} {code : Code I app.Object app.Fault}
    {target : Instance app} (once : code.Once counted free)
    (nodup : (world.counts counted).Nodup) (fresh : free = true → past ∉ world.counts counted) :
    ((exec self past code target world).counts counted).Nodup := by
  induction code generalizing self target world free with
  | done => exact nodup
  | trap fault => exact nodup
  | look next inductionHypothesis => exact inductionHypothesis _ (once _) nodup fresh
  | modify change next inductionHypothesis => exact inductionHypothesis once nodup fresh
  | alert title next inductionHypothesis => exact inductionHypothesis once nodup fresh
  | call request completion next _ inductionHypothesis =>
      obtain ⟨allowed, _, rest⟩ := once
      have counts := counts_call counted world ⟨self, past, request, completion, none⟩
      by_cases here : counted request = true
      · have new := fresh (allowed here)
        simp only [here, if_true] at counts
        refine inductionHypothesis rest (counts.nodup_iff.mpr (List.nodup_cons.mpr ⟨new, nodup⟩)) ?_
        simp [here]
      · simp only [here, if_false, Bool.false_eq_true] at counts
        refine inductionHypothesis rest (counts.nodup_iff.mpr nodup) fun stillFree => ?_
        rw [counts.mem_iff]
        exact fresh (by simpa [here] using stillFree)
  | present object start inductionHypothesis => exact inductionHypothesis once nodup fresh

/-- The completion handlers that a handler leaves start counted operations once. -/
theorem exec_completion {self : Nat} {free : Bool} {code : Code I app.Object app.Fault}
    {target : Instance app} (once : code.Once counted free)
    (completions : ∀ pending ∈ world.pending, ∀ response,
      Code.Once counted (counted pending.request) (pending.completion response)) :
    ∀ pending ∈ (exec self past code target world).pending, ∀ response,
      Code.Once counted (counted pending.request) (pending.completion response) := by
  induction code generalizing self target world free with
  | done => exact completions
  | trap fault => exact completions
  | look next inductionHypothesis => exact inductionHypothesis _ (once _) completions
  | modify change next inductionHypothesis => exact inductionHypothesis once completions
  | alert title next inductionHypothesis => exact inductionHypothesis once completions
  | call request completion next _ inductionHypothesis =>
      refine inductionHypothesis once.2.2 fun pending member => ?_
      rcases List.mem_append.mp member with older | added
      · exact completions pending older
      · obtain rfl := List.mem_singleton.mp added
        exact once.2.1
  | present object start inductionHypothesis => exact inductionHypothesis once completions

/-- An answer changes no count. -/
theorem counts_serve (counted : I.Request → Bool) {index : Nat} {pending : Pending app}
    (answered : Pending app) (found : world.pending[index]? = some pending)
    (past : answered.past = pending.past)
    (request : answered.request = pending.request) (later : service.State) :
    ({ world with server := later, pending := world.pending.set index answered }.counts
      counted).Perm (world.counts counted) := by
  obtain ⟨split, replaced⟩ := perm_of_getElem? found (.refl _)
  refine List.Perm.append_right _ ?_
  refine (((replaced answered).filter _).map _).trans (.trans ?_ ((split.filter _).map _).symm)
  by_cases here : counted pending.request = true
  · simp [here, past, request]
  · simp [here, request]

/-- A completion moves its operation from the outstanding to the handled ones. -/
theorem counts_reply (counted : I.Request → Bool) {index self : Nat} {request : I.Request}
    {completion : I.Response request → Code I app.Object app.Fault}
    {response : I.Response request}
    (found : world.pending[index]? = some ⟨self, past, request, completion, some response⟩) :
    ({ world with
        pending := world.pending.eraseIdx index
        acknowledged := (past, ⟨request, response⟩) :: world.acknowledged }.counts counted).Perm
      (world.counts counted) := by
  obtain ⟨split, _⟩ := perm_of_getElem? found (.refl _)
  have before := ((split.filter fun pending => counted pending.request).map (·.past)).append_right
    ((world.acknowledged.filter fun handled => counted handled.2.request).map (·.1))
  refine .trans ?_ before.symm
  unfold counts
  by_cases here : counted request = true
  · simp [here, List.perm_middle]
  · simp [here]

/-- No counted operation was handled that has the past of an outstanding one. -/
theorem Counted.not_handled (valid : Counted counted world) {pending : Pending app}
    {exchange : Exchange I} (outstanding : pending ∈ world.pending)
    (here : counted pending.request = true) (there : counted exchange.request = true) :
    (pending.past, exchange) ∉ world.acknowledged := by
  intro handled
  have apart := (List.nodup_append.mp valid.nodup).2.2
  refine apart pending.past (List.mem_map.mpr ⟨_, List.mem_filter.mpr
    ⟨outstanding, here⟩, rfl⟩) pending.past ?_ rfl
  exact List.mem_map.mpr ⟨_, List.mem_filter.mpr ⟨handled, there⟩, rfl⟩

/-- The operation whose completion handler is about to run is the only counted one with
its past. -/
theorem Counted.answered_not_mem (valid : Counted counted world) {index self : Nat}
    {request : I.Request} {completion : I.Response request → Code I app.Object app.Fault}
    {response : I.Response request} (here : counted request = true)
    (found : world.pending[index]? = some ⟨self, past, request, completion, some response⟩) :
    past.answered request response ∉ world.counts counted := by
  intro member
  obtain ⟨entry, trail⟩ := past
  have handled := valid.traced _ _ _ (occurs_of_mem_counts member)
  exact valid.not_handled (List.mem_of_getElem? found) here here handled

/-- Steps keep the counted operations apart. -/
theorem Counted.step (handlers : ∀ input, (app.handler input).Once counted true)
    (valid : Counted counted world) (taken : world.step event = some next) :
    Counted counted next := by
  have traced := valid.traced.step taken
  have serial : ∀ past, next.Occurs past → past.entry.serial < next.clock :=
    Clocked.step valid.serial taken
  cases stepped_of_step taken with
  | launched => exact ⟨valid.nodup, serial, valid.completion, traced⟩
  | began placed runs =>
      refine ⟨exec_counts (handlers _) valid.nodup fun _ member => ?_, serial,
        exec_completion (handlers _) valid.completion, traced⟩
      exact Nat.lt_irrefl _ (valid.serial _ (occurs_of_mem_counts member))
  | @served index self choice past request completion later response found serves =>
      have same := counts_serve counted ⟨self, past, request, completion, some response⟩ found
        rfl rfl later
      refine ⟨same.nodup_iff.mpr valid.nodup, serial, fun pending member => ?_, traced⟩
      rcases List.mem_or_eq_of_mem_set member with older | rfl
      · exact valid.completion pending older
      · exact valid.completion ⟨self, past, request, completion, none⟩
          (List.mem_of_getElem? found)
  | @completed index self past request completion response target found placed runs =>
      have same := counts_reply counted found
      have once := valid.completion _ (List.mem_of_getElem? found) response
      refine ⟨exec_counts once (same.nodup_iff.mpr valid.nodup) fun here => ?_, serial,
        exec_completion once fun pending member =>
          valid.completion pending (List.mem_of_mem_eraseIdx member), traced⟩
      rw [same.mem_iff]
      exact valid.answered_not_mem here found

/-- In every run of handlers that start counted operations once, these operations can
be told apart by their pasts. -/
theorem counted_of_reachable {guard : (machine app service).Guard} {server : service.State}
    (handlers : ∀ input, (app.handler input).Once counted true)
    (reached : Machine.Reachable guard (World.initial app server) world) :
    Counted counted world := by
  refine reached.invariant ?_ fun valid _ taken => valid.step handlers taken
  refine ⟨List.nodup_nil, ?_, nofun, ?_⟩
  · intro past occurs
    cases occurs with
    | outstanding member => cases member
    | handled member => cases member
  · intro entry exchange trail occurs
    cases occurs with
    | outstanding member => cases member
    | handled member => cases member

/-- Two answered operations with one past are the same. -/
theorem Counted.unique (valid : Counted counted world) {first second : Exchange I}
    (here : counted first.request = true) (there : counted second.request = true)
    (answered : world.Answered past first) (answered' : world.Answered past second) :
    first = second := by
  obtain ⟨outstanding, handled, apart⟩ := List.nodup_append.mp valid.nodup
  have listed : ∀ {pending : Pending app}, pending ∈ world.pending →
      counted pending.request = true →
      pending ∈ world.pending.filter fun pending => counted pending.request :=
    fun member here => List.mem_filter.mpr ⟨member, here⟩
  have listed' : ∀ {done : Past app × Exchange I}, done ∈ world.acknowledged →
      counted done.2.request = true →
      done ∈ world.acknowledged.filter fun handled => counted handled.2.request :=
    fun member here => List.mem_filter.mpr ⟨member, here⟩
  cases answered with
  | handled member =>
      have found := listed' member here
      cases answered' with
      | handled member' =>
          have same := List.inj_on_of_nodup_map handled found (listed' member' there) rfl
          exact (Prod.mk.inj same).2
      | awaiting member' =>
          have found' := listed member' there
          exact absurd rfl (apart _ (List.mem_map_of_mem found') _ (List.mem_map_of_mem found))
  | awaiting member =>
      have found := listed member here
      cases answered' with
      | handled member' =>
          have found' := listed' member' there
          exact absurd rfl (apart _ (List.mem_map_of_mem found) _ (List.mem_map_of_mem found'))
      | awaiting member' =>
          have same := List.inj_on_of_nodup_map outstanding found (listed member' there) rfl
          obtain ⟨request, response⟩ := first
          obtain ⟨request', response'⟩ := second
          cases same
          rfl

end World

end Gbc.Callback
