import Gbc.Market.Postings
import Gbc.Platform.Ledger
import Gbc.Platform.Ownership
import Gbc.Market.Origin

/-!
# Postings belong to their users

The `Upload` collection under all writes of the two tabs is a store whose entries have
owners: each posting belongs to the user who was signed in when it was submitted, and
every write that reaches it is an act of that user. What other users do does not
interfere, in any interleaving.
-/

namespace Gbc

open Callback Handler World

variable {rules : URLRules}

namespace Postings

/-- The user in whose name a chain of handlers began. -/
def actor (entry : Entry (app rules)) : Option String :=
  match entry.object, entry.input with
  | .upload _, .uploadButton currentUser => currentUser.map User.uid
  | .update self, _ => some self.user.uid
  | _, _ => none

/-- The postings, which belong to those who created them. -/
abbrev tenancy (rules : URLRules) : Tenancy (app rules) where
  collection := .upload
  actor past := actor past.entry
  owns := CreatedBy
  owns_congr same document uid := by
    refine exists_congr fun form => exists_congr fun user => and_congr_right fun _ => ?_
    exact same _

section Writes

variable {world : PostingsWorld rules} {past : Past (app rules)} {request : Request rules}
  {response : request.Response} {write : Write}

/-- A posting was created by one user. -/
theorem CreatedBy.unique (ledger : Ledger world) {document uid uid' : String}
    (created : CreatedBy world.server document uid)
    (created' : CreatedBy world.server document uid') : uid = uid' := by
  obtain ⟨form, user, rfl, added⟩ := created
  obtain ⟨form', user', rfl, added'⟩ := created'
  obtain ⟨past, answered⟩ := ledger.accounted added
  obtain ⟨past', answered'⟩ := ledger.accounted added'
  have same := (ledger.owner answered answered').2
  have uids := congrArg (Fields.value "User") same
  simpa [Fields.value, UploadMarketPlaceViewController.posting] using uids

/-- A handled submission has created its document. -/
theorem createdBy_of_handled (ledger : Ledger world) (traced : world.Traced)
    {entry : Entry (app rules)} {form : UploadMarketPlaceViewController} {user : User}
    {document : String} {trail : List (Exchange (remote rules))}
    (occurs : world.Occurs ⟨entry,
      ⟨.addDocument .upload (form.posting user), (some document : Option String)⟩ :: trail⟩) :
    CreatedBy world.server document user.uid :=
  ⟨form, user, rfl, ledger.added (.handled (traced _ _ _ occurs))⟩

/-- The past of the first of two answers occurs when that of the second does. -/
theorem occurs_older (traced : world.Traced) {entry : Entry (app rules)}
    {exchange : Exchange (remote rules)} {trail : List (Exchange (remote rules))}
    (occurs : world.Occurs ⟨entry, exchange :: trail⟩) : world.Occurs ⟨entry, trail⟩ :=
  .handled (traced _ _ _ occurs)

/-- A write to the postings is that of a submission, which adds a document, or it was
issued by the creator of the document that it is addressed to. -/
inductive WrittenBy (server : Server rules) (uid : String) : Write → Prop where
  | submitted {name : String} {form : UploadMarketPlaceViewController} {user : User}
      (poster : user.uid = uid) : WrittenBy server uid (.add name (form.posting user))
  | managed {write : Write} (kept : ∀ name data, write ≠ .add name data)
      (created : CreatedBy server write.document uid) : WrittenBy server uid write

@[simp] theorem afterLookup_entry (past : Past (app rules)) (document : String)
    (data : ImageData) (url : URL rules) :
    (afterLookup past document data url).entry = past.entry := rfl

/-- Every write to the postings is issued in the name of a user who may. -/
theorem writtenBy_of_applied (ledger : Ledger world) (traced : world.Traced)
    (occurs : world.Occurs past) (origin : Originates False past request)
    (valid : RequestOk ⟨False, False⟩ world.server past request)
    (writes : applied ⟨request, response⟩ = some (.upload, write)) :
    ∃ uid, actor past.entry = some uid ∧ WrittenBy world.server uid write := by
  have managed : ∀ screen : UpdatePostingsViewController, past.entry.object = .update screen →
      (∀ name data, write ≠ .add name data) → request.writes = some (.upload, write.document) →
      WrittenBy world.server screen.user.uid write :=
    fun screen began kept writes =>
      .managed kept (addressed_of_writes valid writes screen began).owner
  cases origin with
  | post began pressed complete =>
      obtain ⟨name, rfl, same⟩ := Option.map_eq_some_iff.mp writes
      cases same
      exact ⟨_, by simp [actor, began, pressed], .submitted rfl⟩
  | refer began pressed =>
      cases response <;> cases writes
      exact ⟨_, by simp [actor, began, pressed],
        .managed nofun (createdBy_of_handled ledger traced occurs)⟩
  | update began pressed complete =>
      cases response <;> cases writes
      exact ⟨_, by simp [actor, began], managed _ began nofun rfl⟩
  | delete began pressed =>
      cases response <;> cases writes
      exact ⟨_, by simp [actor, began], managed _ began nofun rfl⟩
  | link pictures encoded =>
      cases response <;> cases writes
      have older := occurs_older traced (occurs_older traced occurs)
      cases pictures with
      | posted began pressed =>
          exact ⟨_, by simp [actor, began, pressed],
            .managed nofun (createdBy_of_handled ledger traced older)⟩
      | updated began pressed complete =>
          exact ⟨_, by simp [actor, began],
            managed _ began nofun rfl⟩
  | inform => cases response <;> cases writes
  | _ => cases writes

/-- Another write leaves the creators alone. -/
theorem createdBy_cons {server later : Server rules} {collection : CollectionName}
    {document uid : String} (journal : later.journal = (collection, write) :: server.journal)
    (kept : collection = .upload → ∀ name data, write ≠ .add name data) :
    CreatedBy later document uid ↔ CreatedBy server document uid := by
  refine exists_congr fun form => exists_congr fun user => and_congr_right fun _ => ?_
  rw [journal, List.mem_cons, or_iff_right]
  intro same
  cases same
  exact kept rfl _ _ rfl

/-- A submission makes its user the creator of the document. -/
theorem createdBy_add {server later : Server rules} {name document uid : String}
    {form : UploadMarketPlaceViewController} {user : User}
    (unused : server.neverUsed name = true)
    (journal : later.journal = (.upload, .add name (form.posting user)) :: server.journal) :
    CreatedBy later document uid ↔
      if document = name then user.uid = uid else CreatedBy server document uid := by
  have fresh := (server.neverUsed_iff.mp unused).2
  constructor
  · rintro ⟨form', user', rfl, added⟩
    rw [journal] at added
    rcases List.mem_cons.mp added with here | older
    · simp only [Prod.mk.injEq, Write.add.injEq, true_and] at here
      have uids := congrArg (Fields.value "User") here.2
      rw [if_pos here.1]
      simpa [Fields.value, UploadMarketPlaceViewController.posting] using uids.symm
    · have other : document ≠ name := fresh _ older
      rw [if_neg other]
      exact ⟨form', user', rfl, older⟩
  · intro created
    split at created
    · rename_i here
      subst here
      exact ⟨form, user, created, journal ▸ List.mem_cons_self⟩
    · obtain ⟨form', user', poster, added⟩ := created
      exact ⟨form', user', poster, journal ▸ List.mem_cons_of_mem _ added⟩

end Writes

section Tenancy

variable {world : PostingsWorld rules} {server : Server rules} {uid : String} {write : Write}

/-- A write to the postings is an act of the user who may. -/
theorem performs_of_writtenBy (ledger : Ledger world) (written : WrittenBy world.server uid write)
    (unused : ∀ name data, write = .add name data → world.server.neverUsed name = true)
    (journal : server.journal = (.upload, write) :: world.server.journal) :
    (tenancy rules).Performs world.server server write uid := by
  constructor
  · intro owner created
    cases written with
    | submitted poster =>
        obtain ⟨form, user, -, added⟩ := created
        exact absurd rfl ((world.server.neverUsed_iff.mp (unused _ _ rfl)).2 _ added)
    | managed kept mine => exact CreatedBy.unique ledger created mine
  · intro document owner
    cases written with
    | @submitted name form user poster =>
        subst poster
        exact createdBy_add (unused _ _ rfl) journal
    | managed kept mine =>
        refine (createdBy_cons journal fun _ => kept).trans ?_
        split
        · rename_i here
          subst here
          constructor
          · intro created
            exact CreatedBy.unique ledger mine created
          · rintro rfl
            exact mine
        · rfl

/-- Every run of the two tabs acts on the postings as on a store with owners. -/
theorem tenancy_lawful : (tenancy rules).Lawful
    (fun world event => (system rules).anyStep world event = true) (start rules) := by
  intro world index self choice past request completion later response write reached _ found
    served writes
  have ledger := ledger_of_reachable reached
  have member := List.mem_of_getElem? found
  obtain ⟨uid, acts, written⟩ := writtenBy_of_applied ledger (traced_of_reachable reached)
    (.outstanding member rfl) ((origins_of_reaches reached).pending _ member).request
    ((holds_of_reaches reached).pending _ member).request writes
  have journal := served.journal
  rw [writes] at journal
  exact ⟨uid, acts, performs_of_writtenBy ledger written (served.unused writes) journal⟩

/-- Nobody has created a posting at the start. -/
theorem tenancy_opened : (tenancy rules).Represents (start rules).server Owned.empty := by
  refine ⟨fun document => Std.ExtTreeMap.getElem?_empty.symm, fun document uid => ⟨nofun, ?_⟩⟩
  rintro ⟨form, user, -, added⟩
  cases added

end Tenancy

section Users

variable {world : PostingsWorld rules} {acts : List (Act String String Doc)}

/-- What the two tabs do to the postings, in any interleaving, is a run of the store with
owners: whoever submitted a posting owns it, and every write is an act of the owner. -/
theorem postings_have_owners
    (reached : (tenancy rules).board.traced.Reaches (Machine.anyStep _) (start rules, [])
      (world, acts)) :
    ∃ store, Owned.run acts = some store ∧ (tenancy rules).Represents world.server store :=
  tenancy_lawful.run tenancy_opened (reached.weaken fun _ _ _ => rfl)

/-- Users do not interfere: without the acts of everybody else, the postings that a user
created would be the same. -/
theorem users_do_not_interfere
    (reached : (tenancy rules).board.traced.Reaches (Machine.anyStep _) (start rules, [])
      (world, acts)) (uid : String) :
    ∃ own, Owned.run (acts.filter fun act => act.actor = uid) = some own ∧
      (∀ document, CreatedBy world.server document uid →
        own.value document = (world.server.documents .upload)[document]?) ∧
      ∀ document, ¬ CreatedBy world.server document uid → own.value document = none :=
  tenancy_lawful.alone tenancy_opened (reached.weaken fun _ _ _ => rfl) uid

/-- Another user of the schedules. -/
def bob : User := ⟨"bob", by decide⟩

/-- Alice publishes a posting, Bob submits one, and Alice presses Update on hers. -/
def sharing : List (Event (app anyText) (firebase anyText)) :=
  publishing ++ managing ++
    [.launch 2 .upload, .input 3 (.editTexts form), .input 3 (.selectSegment 1),
      .input 3 (.uploadButton (some bob)), .input 2 .updateButton, .serve 1 (.name "d2"),
      .serve 2 .ok]

/-- Both users have acted. -/
def bothActed (noted : PostingsWorld anyText × List (Act String String Doc)) : Bool :=
  (noted.2.map fun act => (act.actor, act.key)) ==
    [("alice", "d1"), ("alice", "d1"), ("alice", "d1"), ("bob", "d2"), ("alice", "d1")]

theorem postings_have_owners_sharing :
    ∃ noted, (tenancy anyText).board.traced.Reaches (Machine.anyStep _) (start anyText, []) noted ∧
      bothActed noted = true ∧
      ∃ store, Owned.run noted.2 = some store ∧
        (tenancy anyText).Represents noted.1.server store := by
  obtain ⟨noted, reached, acted⟩ := Machine.exists_reaches (m := (tenancy anyText).board.traced)
    (Machine.anyStep _) (start anyText, []) sharing bothActed (by decide +kernel)
  exact ⟨noted, reached, acted, postings_have_owners reached⟩

theorem users_do_not_interfere_sharing :
    ∃ noted, (tenancy anyText).board.traced.Reaches (Machine.anyStep _) (start anyText, []) noted ∧
      bothActed noted = true ∧
      ∃ own, Owned.run (noted.2.filter fun act => act.actor = "alice") = some own ∧
        (∀ document, CreatedBy noted.1.server document "alice" →
          own.value document = (noted.1.server.documents .upload)[document]?) ∧
        ∀ document, ¬ CreatedBy noted.1.server document "alice" →
          own.value document = none := by
  obtain ⟨noted, reached, acted⟩ := Machine.exists_reaches (m := (tenancy anyText).board.traced)
    (Machine.anyStep _) (start anyText, []) sharing bothActed (by decide +kernel)
  exact ⟨noted, reached, acted, users_do_not_interfere reached "alice"⟩

end Users

end Postings

end Gbc
