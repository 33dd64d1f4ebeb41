import Gbc.Market.Authenticity
import Gbc.Market.Snapshots

/-!
# Postings last until their owner deletes them

A submission that was acknowledged stays in the collection, with every field that was
submitted, until a delete is applied that its poster has confirmed. A list that is loaded
after the acknowledgement shows it.
-/

namespace Gbc

open Callback Handler World

variable {rules : URLRules}

namespace Postings

section Submissions

variable {world : PostingsWorld rules} {document uid : String}
  {moment : List (CollectionName × Write)}

/-- Its owner has confirmed to delete the posting, and the delete has been applied. -/
structure Withdrawn (world : PostingsWorld rules) (document uid : String)
    (past : Past (app rules)) (screen : UpdatePostingsViewController) : Prop where
  began : past.entry.object = .update screen
  confirmed : past.entry.input = .confirmDelete
  path : screen.docPath = document
  owner : screen.user.uid = uid
  answered : world.Answered past ⟨.delete .upload document, true⟩

/-- A delete is confirmed by the owner of the posting. -/
theorem withdrawn_of_deleted
    (reached : (system rules).Reaches (system rules).anyStep (start rules) world)
    (created : CreatedBy world.server document uid)
    (deleted : (.upload, .delete document) ∈ world.server.journal) :
    ∃ past screen, Withdrawn world document uid past screen := by
  have ledger := ledger_of_reachable reached
  obtain ⟨past, answered⟩ := ledger.accounted deleted
  have origin : Originates False past (.delete .upload document) :=
    (origins_of_reaches reached).answered answered
  have valid : RequestOk ⟨False, False⟩ world.server past (.delete .upload document) :=
    (holds_of_reaches reached).answered answered
  cases origin with
  | @delete entry screen began pressed =>
      have own := (valid.2 screen began).owner
      exact ⟨_, screen, began, pressed, rfl, CreatedBy.unique ledger own created, answered⟩

/-- The fields of a submission stay until the posting is deleted. -/
theorem stored_of_submitted
    (reached : (system rules).Reaches (system rules).anyStep (start rules) world)
    (past : moment <:+ world.server.journal) {data : Fields} {key value : String}
    (added : (.upload, .add document data) ∈ moment)
    (kept : (.upload, .delete document) ∉ moment)
    (submitted : Fields.value key data = some value) :
    ∃ stored latest, (Server.replay .upload moment)[document]? = some stored ∧
      stored[key]? = some latest := by
  have ledger := ledger_of_reachable reached
  obtain ⟨newer, older, rfl⟩ := List.append_of_mem added
  have fresh := ledger.fresh.sublist past.sublist
  have merges : ∀ later, (CollectionName.upload, later) ∈ newer → later.document = document →
      ∃ fields, later = .set document fields true := by
    intro later member aimed
    have listed := past.mem (List.mem_append_left _ member)
    cases later with
    | add name fields =>
        have apart := (List.pairwise_append.mp fresh).2.2 _ member _ List.mem_cons_self
        exact absurd aimed.symm (apart name fields rfl)
    | set name fields merge =>
        obtain rfl : name = document := aimed
        obtain ⟨other, answered⟩ := ledger.accounted listed
        obtain ⟨rfl, -⟩ := (holds_of_reaches reached).answered answered
        exact ⟨fields, rfl⟩
    | delete name =>
        obtain rfl : name = document := aimed
        exact absurd (List.mem_append_left _ member) kept
  have added : (Write.add document data).document = document := rfl
  obtain ⟨stored, latest, found, present, -⟩ :=
    Server.exists_value_of_replay .upload newer older added submitted merges
  exact ⟨stored, latest, found, present⟩

/-- An acknowledged submission has created its document. -/
theorem exists_submission
    (reached : (system rules).Reaches (system rules).anyStep (start rules) world)
    {past : Past (app rules)} {data : Fields}
    (answered : world.Answered past
      ⟨.addDocument .upload data, (some document : Option String)⟩) :
    (.upload, .add document data) ∈ world.server.journal ∧
      ∃ uid, CreatedBy world.server document uid ∧ Fields.value "User" data = some uid := by
  have added := (ledger_of_reachable reached).added answered
  obtain ⟨form, user, rfl⟩ := (holds_of_reaches reached).answered answered
  exact ⟨added, user.uid, ⟨form, user, rfl, added⟩,
    by simp [Fields.value, UploadMarketPlaceViewController.posting]⟩

/-- The posting is stored with every field that was submitted, each with a value that its
owner has given it. -/
def Lasts (world : PostingsWorld rules) (document uid : String) (submitted : Fields) : Prop :=
  ∃ data : Doc, (world.server.documents .upload)[document]? = some data ∧
    ∀ key value, Fields.value key submitted = some value →
      ∃ latest, data[key]? = some latest ∧ Given world document uid key latest

/-- In every run, an acknowledged submission is stored with all of its fields, unless its
poster has confirmed to delete it. -/
theorem submissions_last
    (reached : (system rules).Reaches (system rules).anyStep (start rules) world)
    {past : Past (app rules)} {data : Fields}
    (answered : world.Answered past
      ⟨.addDocument .upload data, (some document : Option String)⟩) :
    ∃ uid, CreatedBy world.server document uid ∧
      (Lasts world document uid data ∨
        ∃ past screen, Withdrawn world document uid past screen) := by
  obtain ⟨added, uid, created, named⟩ := exists_submission reached answered
  refine ⟨uid, created, ?_⟩
  by_cases deleted : (.upload, .delete document) ∈ world.server.journal
  · exact .inr (withdrawn_of_deleted reached created deleted)
  · obtain ⟨stored, user, found, -⟩ :=
      stored_of_submitted reached (List.suffix_refl _) added deleted named
    refine .inl ⟨stored, found, fun key value submitted => ?_⟩
    obtain ⟨stored', latest, found', present⟩ :=
      stored_of_submitted reached (List.suffix_refl _) added deleted submitted
    obtain rfl := Option.some.inj (found.symm.trans found')
    exact ⟨latest, present, given_of_replay reached created (List.suffix_refl _) found present⟩

/-- A published posting lasts. -/
theorem submissions_last_published :
    ∃ world, (system anyText).Reaches (system anyText).anyStep (start anyText) world ∧
      ∃ data document uid, CreatedBy world.server document uid ∧
        (Lasts world document uid data ∨
          ∃ past screen, Withdrawn world document uid past screen) := by
  obtain ⟨world, reached, found⟩ := Machine.exists_reaches (m := system anyText)
    (system anyText).anyStep (start anyText) publishing
    (fun world => (handledSubmission world).isSome) (by decide +kernel)
  obtain ⟨⟨past, data, document⟩, handled⟩ := Option.isSome_iff_exists.mp found
  exact ⟨world, reached, data, document,
    submissions_last reached (answered_of_handledSubmission handled)⟩

end Submissions

section Lists

variable {before world : PostingsWorld rules} {index process : Nat} {screen : Screen}
  {document uid : String}

/-- A list of postings has loaded the posting, with values that its owner has given it. -/
def Displays (world : PostingsWorld rules) (document uid : String) : Screen → Prop
  | .market self => ∃ posting ∈ self.uploadArray, Authentic world document uid posting
  | .manage self => self.currentUser.uid = uid →
      ∃ posting ∈ self.manaageArray, Authentic world document uid posting
  | _ => True

/-- A list whose load began after a submission was acknowledged shows the posting, unless
its poster has confirmed to delete it. Loads are answered by the server here, not from what
Firestore has cached on a device. -/
theorem fresh_lists_show_submissions
    (began : (system rules).Reaches (system rules).anyStep (start rules) before)
    (reached : (system rules).Reaches (system rules).anyStep before world)
    {past : Past (app rules)} {data : Fields}
    (answered : before.Answered past
      ⟨.addDocument .upload data, (some document : Option String)⟩)
    (placed : world.objects[index]? = some ⟨process, screen⟩)
    (runs : world.crashed process = false) (lists : screen.opening.lists)
    {load : Past (app rules) × Snapshot} (loaded : lastLoad world index = some load)
    (later : before.clock ≤ load.1.entry.serial) :
    ∃ uid, CreatedBy world.server document uid ∧
      (Displays world document uid screen ∨
        ∃ past screen, Withdrawn world document uid past screen) := by
  have whole := began.trans reached
  obtain ⟨added, uid, created, named⟩ := exists_submission began answered
  obtain ⟨moment, since, held, shows⟩ :=
    exists_moment_of_lastLoad began reached placed runs lists loaded later
  have created := created.evolve (since.trans held)
  refine ⟨uid, created, ?_⟩
  by_cases deleted : (.upload, .delete document) ∈ world.server.journal
  · exact .inr (withdrawn_of_deleted whole created deleted)
  · obtain ⟨stored, user, found, present⟩ := stored_of_submitted whole held (since.mem added)
      (fun member => deleted (held.mem member)) named
    have authentic := authentic_of_replay whole created held found
    have listed : (document, stored) ∈ (Server.replay .upload moment).toList :=
      Std.ExtTreeMap.mem_toList_iff_getElem?_eq_some.mpr found
    refine .inl ?_
    cases screen with
    | market self =>
        have rows : self.uploadArray = _ := shows.2
        exact ⟨_, rows ▸ List.mem_map.mpr ⟨_, listed, rfl⟩, authentic⟩
    | manage self =>
        intro own
        have rows : self.manaageArray = _ := shows.2
        have poster : stored.text "User" = uid := by
          rw [Doc.text_of_getElem? present]
          exact (given_of_replay whole created held found present).user
        have owned : (document, stored) ∈ self.owned (Server.replay .upload moment).toList :=
          List.mem_filter.mpr ⟨listed, by simp [own, poster]⟩
        exact ⟨_, rows ▸ List.mem_map.mpr ⟨_, owned, rfl⟩, authentic⟩
    | _ => trivial

/-- A market place appears after a posting has been submitted. -/
theorem fresh_lists_show_submissions_appeared :
    ∃ before world market load document uid, Appeared before world market load ∧
      CreatedBy world.server document uid ∧
      (Displays world document uid (.market market) ∨
        ∃ past screen, Withdrawn world document uid past screen) := by
  obtain ⟨before, world, market, load, shown⟩ := exists_appeared
  obtain ⟨past, data, document, handled⟩ := shown.submitted
  obtain ⟨uid, created, displays⟩ := fresh_lists_show_submissions shown.began shown.reached
    (answered_of_handledSubmission handled) shown.placed shown.runs trivial shown.loaded shown.later
  exact ⟨before, world, market, load, document, uid, shown, created, displays⟩

end Lists

end Postings

end Gbc
