import Gbc.Market.Origin

/-!
# Deleted postings

A merge creates the document it is addressed to when it is absent, so a deleted
posting comes back when a chain of handlers that aims at it is still running. The
condition below lets a delete land only when no such chain is outstanding, and
keeps the Update button off screens of deleted postings.
-/

namespace Gbc

open Callback Handler

variable {rules : URLRules}

namespace Postings

/-- The operation, or what its completion handler starts, may still write fields
of `document`. -/
def revives (document : String) (pending : Pending (app rules)) : Bool :=
  match pending with
  | ⟨_, _, .setData .upload written _ _, _, none⟩ => written == document
  | ⟨_, _, .addDocument _ _, _, some (added : Option String)⟩ => added == some document
  | ⟨_, _, .putData path _, _, none⟩ => path == "Uploads/" ++ document
  | ⟨_, _, .putData path _, _, some (uploaded : Bool)⟩ =>
      uploaded && path == "Uploads/" ++ document
  | ⟨_, _, .downloadURL path, _, none⟩ => path == "Uploads/" ++ document
  | ⟨_, _, .downloadURL path, _, some (url : Option (URL rules))⟩ =>
      url.isSome && path == "Uploads/" ++ document
  | _ => false

/-- A delete is applied only when no outstanding operation may still write the
document, and Update is not pressed for a deleted one. -/
def deletesSettled (world : PostingsWorld rules)
    (event : Event (app rules) (firebase rules)) : Bool :=
  match event with
  | .serve index .ok =>
      match world.pending[index]? with
      | some ⟨_, _, .delete .upload document, _, none⟩ =>
          world.pending.all fun pending => !revives document pending
      | _ => true
  | .input self .updateButton =>
      match world.objects[self]? with
      | some ⟨_, .update screen⟩ =>
          screen.texts.incomplete screen.segmentControl ||
            !world.server.deleted .upload screen.docPath
      | _ => true
  | _ => true

/-- Deleted postings are absent, and nothing outstanding writes them again. -/
structure DeletionsFinal (world : PostingsWorld rules) : Prop where
  absent : ∀ document, world.server.deleted .upload document = true →
    (world.server.documents .upload)[document]? = none
  final : ∀ document, world.server.deleted .upload document = true →
    ∀ pending ∈ world.pending, revives document pending = false

section Flows

variable {document : String} {kept : Prop} {self other : Nat} {next : Request rules}
  {following : next.Response → Handler rules}

/-- An operation started by a completion handler revives a document only if the
handled one did. -/
theorem revives_of_answered {past : Past (app rules)} {request : Request rules}
    {response : request.Response} {completion : request.Response → Handler rules}
    (origin : Originates kept (past.answered request response) next)
    (writes : revives document ⟨other, past.answered request response, next, following, none⟩ =
      true) :
    revives document ⟨self, past, request, completion, some response⟩ = true := by
  obtain ⟨entry, trail⟩ := past
  simp only [Past.answered] at origin writes
  generalize extended : (⟨request, response⟩ :: trail : List (Exchange (remote rules))) = trail'
    at origin writes
  cases origin with
  | load => cases writes
  | display => cases writes
  | post => cases extended
  | inform => cases extended
  | update => cases extended
  | delete => cases extended
  | refer =>
      cases extended
      simpa [revives] using writes
  | picture pictures =>
      cases pictures with
      | posted =>
          cases extended
          simpa [revives] using writes
      | informed =>
          cases extended
          simpa [revives] using writes
      | updated => cases extended
  | lookup =>
      cases extended
      simpa [revives] using writes
  | @link _ collection =>
      cases extended
      cases collection with
      | upload => simpa [revives] using writes
      | _ => cases writes

/-- An operation started by an input revives a document only if the input is a
press of Update for it. -/
theorem revives_of_input {entry : Entry (app rules)} (origin : Originates kept ⟨entry, []⟩ next)
    (writes : revives document ⟨other, ⟨entry, []⟩, next, following, none⟩ = true) :
    ∃ screen : UpdatePostingsViewController, entry.object = .update screen ∧
      entry.input = .updateButton ∧ screen.texts.incomplete screen.segmentControl = false ∧
      screen.docPath = document := by
  generalize first : (⟨entry, []⟩ : Past (app rules)) = past at origin writes
  cases origin with
  | load => cases writes
  | display => cases writes
  | post => cases writes
  | inform => cases writes
  | delete => cases writes
  | refer => cases first
  | lookup => cases first
  | link => cases first
  | update began pressed complete =>
      cases first
      exact ⟨_, began, pressed, complete, by simpa [revives] using writes⟩
  | picture pictures =>
      cases pictures with
      | posted => cases first
      | informed => cases first
      | updated began pressed complete =>
          cases first
          exact ⟨_, began, pressed, complete, by simpa [revives] using writes⟩

end Flows

section Serving

variable {server later : Server rules} {request : Request rules} {response : request.Response}
  {document : String} {self : Nat} {past : Past (app rules)}
  {completion : request.Response → Handler rules}

/-- Serving an operation does not make it revive a deleted document. -/
theorem revives_of_served (served : server.Served request later response)
    (deleted : server.deleted .upload document = true)
    (writes : revives document ⟨self, past, request, completion, some response⟩ = true) :
    revives document ⟨self, past, request, completion, none⟩ = true := by
  cases served with
  | added unused =>
      have different := server.ne_of_neverUsed_of_deleted unused deleted
      simp only [revives, beq_iff_eq, Option.some.injEq] at writes
      exact absurd writes different
  | uploaded => simpa [revives] using writes
  | located => simp_all [revives]
  | _ => simp [revives] at writes

/-- Serving an operation that does not revive a deleted document keeps it absent. -/
theorem absent_of_served (served : server.Served request later response)
    (deleted : server.deleted .upload document = true)
    (harmless : revives document ⟨self, past, request, completion, none⟩ = false)
    (absent : (server.documents .upload)[document]? = none) :
    (later.documents .upload)[document]? = none := by
  cases served with
  | added unused =>
      rw [Server.getElem?_documents_write]
      · exact absent
      · exact fun same => server.ne_of_neverUsed_of_deleted unused deleted same.2
  | set =>
      rw [Server.getElem?_documents_write]
      · exact absent
      · rintro ⟨rfl, same⟩
        simp [revives] at harmless
        exact harmless same
  | @deleted collection removed =>
      by_cases same : collection = .upload ∧ removed = document
      · obtain ⟨rfl, rfl⟩ := same
        simp
      · rw [Server.getElem?_documents_write _ same]
        exact absent
  | _ => exact absent

/-- A deletion is new only when a delete has been served. -/
theorem deleted_of_served (served : server.Served request later response)
    (deleted : later.deleted .upload document = true) :
    server.deleted .upload document = true ∨
      request = .delete .upload document ∧
        later = server.write .upload (.delete document) := by
  cases served with
  | added => exact .inl (by simpa using deleted)
  | set => exact .inl (by simpa using deleted)
  | deleted =>
      simp only [Server.deleted_write_delete, Bool.or_eq_true, Bool.and_eq_true,
        beq_iff_eq] at deleted
      rcases deleted with ⟨rfl, rfl⟩ | before
      · exact .inr ⟨rfl, rfl⟩
      · exact .inl before
  | _ => exact .inl deleted

end Serving

/-- Every step that meets the condition keeps deletions final. -/
theorem DeletionsFinal.step {world next : PostingsWorld rules}
    {event : Event (app rules) (firebase rules)} (valid : DeletionsFinal world)
    (settled : deletesSettled world event = true)
    (origins : ∀ pending ∈ next.pending, Originates False pending.past pending.request)
    (taken : world.step event = some next) : DeletionsFinal next := by
  cases World.stepped_of_step taken with
  | launched => exact { valid with }
  | @began self input target placed =>
      refine ⟨by simpa using valid.absent, ?_⟩
      intro document deleted pending member
      have before : world.server.deleted .upload document = true := by simpa using deleted
      have origin := origins pending member
      rcases World.mem_pending_exec member with older | ⟨other, request, completion, rfl⟩
      · exact valid.final document before pending older
      · refine Bool.eq_false_iff.mpr fun writes => ?_
        obtain ⟨screen, began, pressed, complete, same⟩ := revives_of_input origin writes
        obtain ⟨process, object⟩ := target
        cases began
        cases pressed
        simp [deletesSettled, placed, complete, same, before] at settled
  | @served index self choice past request completion later response found serves =>
      have served := Server.served_of_serve serves
      refine ⟨?_, ?_⟩
      · intro document deleted
        rcases deleted_of_served served deleted with before | ⟨rfl, rfl⟩
        · exact absent_of_served served before
            (valid.final document before _ (List.mem_of_getElem? found))
            (valid.absent document before)
        · simp
      · intro document deleted pending member
        rcases deleted_of_served served deleted with before | ⟨rfl, rfl⟩
        · rcases List.mem_or_eq_of_mem_set member with older | rfl
          · exact valid.final document before pending older
          · refine Bool.eq_false_iff.mpr fun writes => ?_
            have harmless := valid.final document before _ (List.mem_of_getElem? found)
            exact Bool.eq_false_iff.mp harmless (revives_of_served served before writes)
        · rcases List.mem_or_eq_of_mem_set member with older | rfl
          · cases choice with
            | ok =>
                simp only [deletesSettled, found, List.all_eq_true, Bool.not_eq_true'] at settled
                exact settled pending older
            | fail =>
                simp only [Server.serve, Option.some.injEq] at serves
                exact absurd (congrArg Prod.fst serves).symm (Server.write_ne_self _ _ _)
            | _ => cases serves
          · rfl
  | @completed index self past request completion response target found placed =>
      refine ⟨by simpa using valid.absent, ?_⟩
      intro document deleted pending member
      have before : world.server.deleted .upload document = true := by simpa using deleted
      have origin := origins pending member
      rcases World.mem_pending_exec member with older | ⟨other, next, following, rfl⟩
      · exact valid.final document before pending (List.mem_of_mem_eraseIdx older)
      · refine Bool.eq_false_iff.mpr fun writes => ?_
        have harmless := valid.final document before _ (List.mem_of_getElem? found)
        exact Bool.eq_false_iff.mp harmless (revives_of_answered origin writes)

/-- While the condition is met, deleted postings stay deleted. -/
theorem deleted_postings_stay_deleted {world : PostingsWorld rules}
    (reached : (system rules).Reaches deletesSettled (start rules) world) :
    ∀ document, world.server.deleted .upload document = true →
      (world.server.documents .upload)[document]? = none := by
  have final : DeletionsFinal world := by
    refine reached.invariantWith ⟨nofun, fun _ _ _ member => nomatch member⟩ ?_
    intro state event next reached valid meets taken
    have holds := origins_of_reaches reached
    exact valid.step meets (fun pending member => (holds.pending pending member).request) taken
  exact final.absent

/-- A published posting is deleted from its Manage row. -/
theorem deleted_postings_stay_deleted_listed :
    ∃ world, (system anyText).Reaches deletesSettled (start anyText) world ∧
      world.server.deleted .upload "d1" = true ∧
      ∀ document, world.server.deleted .upload document = true →
        (world.server.documents .upload)[document]? = none := by
  obtain ⟨world, reached, deleted⟩ := Machine.exists_reaches (m := system anyText)
    deletesSettled (start anyText) (publishing ++ managing ++ [.input 2 .deleteButton,
      .input 2 .confirmDelete, .serve 1 .ok])
    (fun world : PostingsWorld anyText => world.server.deleted .upload "d1") (by decide +kernel)
  exact ⟨world, reached, deleted, deleted_postings_stay_deleted reached⟩

/-- The picture of an update that was pressed before the delete brings the posting
back. -/
theorem deleted_posting_comes_back :
    ¬ ∀ (rules : URLRules) (world : PostingsWorld rules),
      (system rules).Reaches (system rules).anyStep (start rules) world →
      ∀ document, world.server.deleted .upload document = true →
        (world.server.documents .upload)[document]? = none := by
  intro final
  obtain ⟨world, reached, revived⟩ := Machine.exists_reaches (m := system anyText)
    (system anyText).anyStep (start anyText)
    (publishing ++ managing ++ [.input 2 .updateButton, .input 2 .deleteButton,
      .input 2 .confirmDelete, .serve 1 .ok, .serve 3 .ok, .serve 2 (.token secondURL), .reply 2,
      .serve 3 .ok, .reply 3, .serve 3 .ok])
    (fun world : PostingsWorld anyText => world.server.deleted .upload "d1" &&
      ((world.server.documents .upload)["d1"]?).isSome) (by decide +kernel)
  simp only [Bool.and_eq_true] at revived
  have absent := final anyText world reached "d1" revived.1
  rw [absent] at revived
  cases revived.2

end Postings

end Gbc
