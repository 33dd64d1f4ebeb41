import Gbc.Callback.Once
import Gbc.Platform.Backend

/-!
# What loads deliver

A load delivers what the collection held at one moment. A load that is answered in a run
delivers a moment of that run, so it sees every write that was applied before the run
began. This holds in every program over the backend.
-/

namespace Gbc

open Callback World

variable {rules : URLRules} {app : App (remote rules)}

/-- What a load delivers when these writes have been applied. -/
def Request.content (journal : List (CollectionName × Write)) : Request rules → Snapshot
  | .getDocuments collection => (Server.replay collection journal).toList
  | .query collection field value =>
      (Server.replay collection journal).toList.filter fun document =>
        document.2[field]? == some value
  | _ => []

/-- The documents that an answered load has delivered. -/
def loadedDocuments (exchange : Exchange (remote rules)) : Option Snapshot :=
  match exchange with
  | ⟨.getDocuments _, (documents : Option Snapshot)⟩ => documents
  | ⟨.query _ _ _, (documents : Option Snapshot)⟩ => documents
  | _ => none

/-- The documents are what the load delivers at a moment between two states of the backend. -/
def HeldBetween (earlier later : Server rules) (request : Request rules)
    (documents : Snapshot) : Prop :=
  ∃ moment, earlier.journal <:+ moment ∧ moment <:+ later.journal ∧
    documents = request.content moment

/-- Loads that were not answered before have delivered a moment since then. -/
structure LoadsHeld (before world : World app (firebase rules)) : Prop where
  suffix : before.server.journal <:+ world.server.journal
  held : ∀ past exchange documents, world.Answered past exchange →
    loadedDocuments exchange = some documents → before.Answered past exchange ∨
      HeldBetween before.server world.server exchange.request documents

variable {before world next : World app (firebase rules)}
  {event : Event app (firebase rules)}

theorem HeldBetween.later {earlier middle later : Server rules} {request : Request rules}
    {documents : Snapshot} (held : HeldBetween earlier middle request documents)
    (suffix : middle.journal <:+ later.journal) :
    HeldBetween earlier later request documents :=
  let ⟨moment, since, past, same⟩ := held
  ⟨moment, since, past.trans suffix, same⟩

/-- A served load delivers the present content of its collection. -/
theorem Server.Served.heldBetween {server later earlier : Server rules} {request : Request rules}
    {response : request.Response} {documents : Snapshot}
    (served : server.Served request later response)
    (loaded : loadedDocuments ⟨request, response⟩ = some documents)
    (suffix : earlier.journal <:+ server.journal) :
    HeldBetween earlier later request documents := by
  cases served with
  | listed =>
      cases loaded
      exact ⟨server.journal, suffix, List.suffix_refl _, rfl⟩
  | matched =>
      cases loaded
      exact ⟨server.journal, suffix, List.suffix_refl _, rfl⟩
  | _ => cases loaded

theorem LoadsHeld.step (valid : LoadsHeld before world) (taken : world.step event = some next) :
    LoadsHeld before next := by
  rcases answers_of_step taken with
    ⟨server, answers⟩ | ⟨other, request, response, choice, serves, _, _, answers⟩
  · constructor
    · rw [server]
      exact valid.suffix
    · intro past exchange documents answered loaded
      rw [server]
      exact valid.held _ _ _ (answers _ _ answered) loaded
  · have served := Server.served_of_serve serves
    constructor
    · exact valid.suffix.trans served.suffix
    · intro past exchange documents answered loaded
      rcases answers _ _ answered with older | ⟨-, rfl⟩
      · rcases valid.held _ _ _ older loaded with first | held
        · exact .inl first
        · exact .inr (held.later served.suffix)
      · exact .inr (served.heldBetween loaded valid.suffix)

/-- In every run, loads deliver a moment of the run. -/
theorem loadsHeld_of_reachable {guard : (machine app (firebase rules)).Guard}
    (reached : Machine.Reachable guard before world) : LoadsHeld before world := by
  refine reached.invariant ⟨List.suffix_refl _, ?_⟩ fun valid _ taken => valid.step taken
  intro past exchange documents answered loaded
  exact .inl answered

/-- A load that began after a state has delivered a moment since then. -/
theorem LoadsHeld.since (valid : LoadsHeld before world) (clocked : Clocked before)
    {past : Past app} {exchange : Exchange (remote rules)} {documents : Snapshot}
    (answered : world.Answered past exchange) (loaded : loadedDocuments exchange = some documents)
    (later : before.clock ≤ past.entry.serial) :
    HeldBetween before.server world.server exchange.request documents := by
  rcases valid.held past exchange documents answered loaded with older | held
  · exact absurd (clocked past older.occurs) (Nat.not_lt.mpr later)
  · exact held

end Gbc
