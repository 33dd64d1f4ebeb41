import Gbc.Platform.Backend
import Gbc.Semantics.Ownership
import Gbc.Semantics.Refinement

/-!
# Collections whose documents have owners

A collection under all writes of a program is a store with owners if every write is an act
of the user who owns the document, or who makes it. What other users do then does not
interfere, in any interleaving.
-/

namespace Gbc

open Callback World

variable {rules : URLRules} {app : App (remote rules)}

/-- Who owns the documents of a collection, and in whose name a handler writes to them. -/
structure Tenancy (app : App (remote rules)) where
  collection : CollectionName
  actor : Past app → Option String
  owns : Server rules → String → String → Prop
  /-- Ownership is about the writes to the collection. -/
  owns_congr : ∀ {server later : Server rules}, (∀ write, (collection, write) ∈ later.journal ↔
    (collection, write) ∈ server.journal) → ∀ document uid,
      owns later document uid ↔ owns server document uid

namespace Tenancy

variable {tenancy : Tenancy app}

/-- The act on a document that a step performs: a write that the backend applies to the
collection, in the name of the user for whom it was started. -/
def act (tenancy : Tenancy app) (world : World app (firebase rules))
    (event : Event app (firebase rules)) : Option (Act String String Doc) :=
  match event with
  | .serve index choice => do
      let pending ← world.pending[index]?
      let answered ← world.server.serve pending.request choice
      let written ← applied ⟨pending.request, answered.2⟩
      let uid ← tenancy.actor pending.past
      if written.1 = tenancy.collection then some ⟨uid, written.2.document, written.2.effect⟩
      else none
  | _ => none

/-- The store holds the documents of the collection, with their owners. -/
structure Represents (tenancy : Tenancy app) (server : Server rules)
    (store : Owned String String Doc) : Prop where
  value : ∀ document, store.value document = (server.documents tenancy.collection)[document]?
  owner : ∀ document uid, store.owner document = some uid ↔ tenancy.owns server document uid

/-- The collection as a store with owners. -/
abbrev board (tenancy : Tenancy app) :
    Machine.View (machine app (firebase rules)) (Owned.machine String String Doc) where
  shows world event := (tenancy.act world event).toList
  related world store := tenancy.Represents world.server store

/-- A write by which a user acts: nobody else owns its document before, and the user owns it
afterwards. -/
structure Performs (tenancy : Tenancy app) (server later : Server rules) (write : Write)
    (uid : String) : Prop where
  allowed : ∀ owner, tenancy.owns server write.document owner → owner = uid
  owner : ∀ document owner, tenancy.owns later document owner ↔
    if document = write.document then uid = owner else tenancy.owns server document owner

section Steps

variable {world next : World app (firebase rules)} {store : Owned String String Doc}
  {server : Server rules} {uid : String} {write : Write}

/-- A served operation acts as the write that it applies. -/
theorem act_serve {index self : Nat} {choice : Server.Choice rules} {past : Past app}
    {request : Request rules} {completion : request.Response → Code (remote rules) _ _}
    {later : Server rules} {response : request.Response}
    (found : world.pending[index]? = some ⟨self, past, request, completion, none⟩)
    (serves : world.server.serve request choice = some (later, response)) :
    tenancy.act world (.serve index choice) =
      (applied ⟨request, response⟩).bind fun written => (tenancy.actor past).bind fun uid =>
        if written.1 = tenancy.collection then
          some ⟨uid, written.2.document, written.2.effect⟩ else none := by
  simp [act, found, serves]

/-- A write to another collection, or none, leaves the board alone. -/
theorem Represents.silent (represents : tenancy.Represents world.server store)
    (documents : server.documents tenancy.collection =
      world.server.documents tenancy.collection)
    (writes : ∀ write, (tenancy.collection, write) ∈ server.journal ↔
      (tenancy.collection, write) ∈ world.server.journal) :
    tenancy.Represents server store where
  value document := (represents.value document).trans (by rw [documents])
  owner document uid :=
    (represents.owner document uid).trans (tenancy.owns_congr writes document uid).symm

/-- A write of the owner is allowed. -/
theorem Represents.allows (represents : tenancy.Represents world.server store)
    (performs : tenancy.Performs world.server server write uid) :
    store.Allows ⟨uid, write.document, write.effect⟩ = true :=
  Owned.allows_iff.mpr fun owner owned =>
    performs.allowed owner ((represents.owner _ _).mp owned)

/-- A write of the owner acts on the board as on the collection. -/
theorem Represents.apply (represents : tenancy.Represents world.server store)
    (performs : tenancy.Performs world.server server write uid)
    (journal : server.journal = (tenancy.collection, write) :: world.server.journal) :
    tenancy.Represents server (store.apply ⟨uid, write.document, write.effect⟩) := by
  have documents : server.documents tenancy.collection =
      write.apply (world.server.documents tenancy.collection) := by
    simp [Server.documents, journal, Server.replay]
  let performed : Act String String Doc := ⟨uid, write.document, write.effect⟩
  constructor
  · intro document
    rw [documents]
    by_cases here : document = write.document
    · subst here
      rw [Write.getElem?_apply_self, ← represents.value]
      have own : (store.apply performed).value performed.key =
        performed.effect (store.value performed.key) := Owned.apply_value_self
      exact own
    · rw [Write.getElem?_apply_of_ne _ _ (Ne.symm here), ← represents.value]
      have other : (store.apply performed).value document = store.value document :=
        Owned.apply_value_of_ne here
      exact other
  · intro document owner
    rw [performs.owner]
    by_cases here : document = write.document
    · subst here
      have own : (store.apply performed).owner performed.key = some uid :=
        Owned.apply_owner_self
      rw [if_pos rfl, own]
      exact Option.some_inj
    · have other : (store.apply performed).owner document = store.owner document :=
        Owned.apply_owner_of_ne here
      rw [if_neg here, other, represents.owner]

end Steps

/-- Every write to the collection that a guarded step applies is an act of the user in whose
name it was started. -/
def Lawful (tenancy : Tenancy app) (guard : (machine app (firebase rules)).Guard)
    (start : World app (firebase rules)) : Prop :=
  ∀ {world : World app (firebase rules)} {index self : Nat} {choice : Server.Choice rules}
    {past : Past app} {request : Request rules}
    {completion : request.Response → Code (remote rules) app.Object app.Fault}
    {later : Server rules} {response : request.Response} {write : Write},
    Machine.Reachable guard start world → guard world (.serve index choice) →
    world.pending[index]? = some ⟨self, past, request, completion, none⟩ →
    world.server.Served request later response →
    applied ⟨request, response⟩ = some (tenancy.collection, write) →
    ∃ uid, tenancy.actor past = some uid ∧ tenancy.Performs world.server later write uid

variable {guard : (machine app (firebase rules)).Guard} {start : World app (firebase rules)}

/-- Every run acts on the collection as on a store with owners. -/
theorem Lawful.sound (lawful : tenancy.Lawful guard start) :
    tenancy.board.Sound guard start := by
  intro world next event store reached meets taken related
  cases stepped_of_step taken with
  | launched => exact ⟨store, rfl, related⟩
  | began => exact ⟨store, rfl, by simpa using related⟩
  | completed => exact ⟨store, rfl, by simpa using related⟩
  | @served index self choice past request completion later response found serves =>
      have served := Server.served_of_serve serves
      have journal := served.journal
      simp only [act_serve found serves]
      cases writes : applied ⟨request, response⟩ with
      | none =>
          rw [writes] at journal
          refine ⟨store, rfl, related.silent ?_ fun write => ?_⟩
          · simp only [Server.documents, journal]
            rfl
          · rw [journal]
            rfl
      | some written =>
          obtain ⟨collection, write⟩ := written
          rw [writes] at journal
          by_cases here : collection = tenancy.collection
          · subst here
            obtain ⟨uid, acts, performs⟩ := lawful reached meets found served writes
            refine ⟨_, ?_, related.apply performs journal⟩
            simp only [acts, Option.bind_some, if_true, Option.toList]
            rw [Machine.runWhile_cons_of_step
              (Owned.step_iff.mpr ⟨related.allows performs, rfl⟩)]
            rfl
          · refine ⟨store, ?_, related.silent ?_ fun other => ?_⟩
            · cases tenancy.actor past <;> simp [here, Machine.runWhile]
            · simp [Server.documents, journal, Server.replay, here]
            · have different : tenancy.collection ≠ collection := Ne.symm here
              simp [journal, different]

variable {world : World app (firebase rules)} {acts : List (Act String String Doc)}

/-- What a program does to the collection is a run of the store with owners. -/
theorem Lawful.run (lawful : tenancy.Lawful guard start)
    (opened : tenancy.Represents start.server Owned.empty)
    (reached : Machine.Reachable (m := tenancy.board.traced)
      (fun noted event => guard noted.1 event) (start, []) (world, acts)) :
    ∃ store, Owned.run acts = some store ∧ tenancy.Represents world.server store := by
  have sound : tenancy.board.Sound guard start := lawful.sound
  exact (sound.run opened reached).shown

/-- Without the acts of everybody else, the documents of a user would be the same. -/
theorem Lawful.alone (lawful : tenancy.Lawful guard start)
    (opened : tenancy.Represents start.server Owned.empty)
    (reached : Machine.Reachable (m := tenancy.board.traced)
      (fun noted event => guard noted.1 event) (start, []) (world, acts)) (uid : String) :
    ∃ own, Owned.run (acts.filter fun act => act.actor = uid) = some own ∧
      (∀ document, tenancy.owns world.server document uid →
        own.value document = (world.server.documents tenancy.collection)[document]?) ∧
      ∀ document, ¬ tenancy.owns world.server document uid → own.value document = none := by
  obtain ⟨store, ran, represents⟩ := lawful.run opened reached
  obtain ⟨own, alone, part⟩ := Owned.part_of_run uid ran
  refine ⟨own, alone, fun document mine => ?_, fun document foreign => ?_⟩
  · rw [part.value _ ((represents.owner _ _).mpr mine), represents.value]
  · exact part.absent _ fun owned => foreign ((represents.owner _ _).mp owned)

section Fields

variable {collection : CollectionName} {field : String} {actor : Past app → Option String}
  {server later : Server rules} {write : Write} {uid : String}

/-- The documents of a collection belong to the users whom the writes name in a field. -/
abbrev ofField (collection : CollectionName) (field : String)
    (actor : Past app → Option String) : Tenancy app where
  collection := collection
  actor := actor
  owns server document uid := ∃ write, (collection, write) ∈ server.journal ∧
    write.document = document ∧ Fields.value field write.fields = some uid
  owns_congr same _ _ := exists_congr fun write => and_congr_left fun _ => same write

/-- A write that names its user is an act of this user if all older writes to the document
have named the same one. -/
theorem performs_of_named
    (own : ∀ older, (collection, older) ∈ server.journal → older.document = write.document →
      Fields.value field older.fields = some uid)
    (named : Fields.value field write.fields = some uid)
    (journal : later.journal = (collection, write) :: server.journal) :
    (ofField collection field actor).Performs server later write uid where
  allowed owner := by
    rintro ⟨older, member, same, gives⟩
    exact Option.some.inj (gives.symm.trans (own older member same))
  owner document owner := by
    constructor
    · rintro ⟨other, member, rfl, gives⟩
      rw [journal] at member
      rcases List.mem_cons.mp member with here | older
      · cases here
        rw [if_pos rfl]
        exact Option.some.inj (named.symm.trans gives)
      · split
        · rename_i same
          exact Option.some.inj ((own other older same).symm.trans gives)
        · exact ⟨other, older, rfl, gives⟩
    · intro owns
      split at owns
      · rename_i same
        exact ⟨write, journal ▸ List.mem_cons_self, same.symm, owns ▸ named⟩
      · obtain ⟨other, older, same, gives⟩ := owns
        exact ⟨other, journal ▸ List.mem_cons_of_mem _ older, same, gives⟩

end Fields

end Tenancy

end Gbc
