import Gbc.Account.Entries
import Gbc.Platform.Ownership

/-!
# Profiles belong to their users

The documents in `users` name their users. A sign-up adds one under an automatic ID, an
update replaces the one under the user ID. As long as no user ID is the automatic ID of a
document, each document belongs to one user, and other users do not interfere with it.
-/

namespace Gbc.Account

open Callback Handler World

variable {rules : URLRules}

/-- The user whose account an operation has created. -/
def registeredBy (exchange : Exchange (remote rules)) : Option String :=
  match exchange with
  | ⟨.createUser _ _, (result : Except AuthErrorCode User)⟩ => result.toOption.map User.uid
  | _ => none

/-- For whom a chain of handlers writes: the user who has signed up, or the user of the
profile screen whose update button was pressed. -/
def actor (past : Past (app rules)) : Option String :=
  match past.entry.object, past.entry.input with
  | .signUp _, .signUpButton => past.trail.findSome? registeredBy
  | .profile screen, .updateUserData => screen.userId
  | _, _ => none

/-- The profiles, which belong to the users whom they name. -/
abbrev tenancy (rules : URLRules) : Tenancy (app rules) := .ofField .users "userId" actor

/-- No update is addressed to a document that was added under an automatic ID. -/
def idsApart (world : AccountWorld rules) : Event (app rules) (firebase rules) → Bool
  | .serve index _ => (world.pending[index]?).all fun pending =>
      match pending.request with
      | .setData _ document _ _ => world.server.journal.all fun entry =>
          match entry.2 with
          | .add name _ => name != document
          | _ => true
      | _ => true
  | _ => true

section Lawful

variable {world : AccountWorld rules} {server : Server rules}

/-- A sign-up adds a document of the user who signs up. -/
theorem performs_signUp {name : String} {form : SignUpViewController} {uid url : String}
    (unused : world.server.neverUsed name = true)
    (journal : server.journal = (.users, .add name (form.profile uid url)) ::
      world.server.journal) :
    (tenancy rules).Performs world.server server (.add name (form.profile uid url)) uid := by
  refine Tenancy.performs_of_named (fun older member same => ?_) ?_ journal
  · exact absurd same ((world.server.neverUsed_iff.mp unused).2 _ member)
  · simp [Write.fields, SignUpViewController.profile, Fields.value]

/-- An update replaces the document of its user. -/
theorem performs_update (accounts : Accounts world) {screen : ProfileViewController}
    {uid email imageUrl : String}
    (apart : ∀ name data, (CollectionName.users, Write.add name data) ∈ world.server.journal →
      name ≠ uid)
    (journal : server.journal = (.users, .set uid (screen.changes uid email imageUrl) false) ::
      world.server.journal) :
    (tenancy rules).Performs world.server server
      (.set uid (screen.changes uid email imageUrl) false) uid := by
  refine Tenancy.performs_of_named (fun older member same => ?_) ?_ journal
  · cases accounts.writes member with
    | signUp name form owner url => exact absurd same (apart _ _ member)
    | update self owner email imageUrl =>
        obtain rfl : owner = uid := same
        simp [Write.fields, ProfileViewController.changes, Fields.value]
  · simp [Write.fields, ProfileViewController.changes, Fields.value]

/-- While user IDs and automatic IDs are apart, every write to `users` is an act of the user
whom it names. -/
theorem tenancy_lawful : (tenancy rules).Lawful
    (fun world event => idsApart world event = true) (start rules) := by
  intro world index self choice past request completion later response write reached apart found
    served writes
  have accounts := accounts_of_reachable reached
  have member := List.mem_of_getElem? found
  have origin := (accounts.origins.pending _ member).request
  obtain ⟨events, holds⟩ := exists_acting reached
  have acts := (holds.pending _ member).1
  have journal := served.journal
  have unused := served.unused writes
  rw [writes] at journal
  cases origin with
  | @profile entry form now user data url uploads =>
      obtain ⟨name, rfl, same⟩ := Option.map_eq_some_iff.mp writes
      cases same
      refine ⟨user.uid, ?_, performs_signUp (unused _ _ rfl) journal⟩
      simp only [actor, afterUpload, afterSignUp, Past.answered, uploads.began, uploads.pressed]
      rfl
  | @update past self uid email imageUrl began =>
      obtain ⟨-, -, screen, email', imageUrl', updates, same⟩ := acts
      simp only [idsApart, found, Option.all_some, List.all_eq_true] at apart
      replace updates : Updates past.entry screen uid email' imageUrl' := updates
      cases response <;> cases writes
      refine ⟨uid, ?_, performs_update accounts ?_ journal⟩
      · simp only [actor, updates.began, updates.pressed, updates.userId]
      · intro name data added
        exact bne_iff_ne.mp (apart _ added)
  | _ => cases writes

/-- Nobody has a profile at the start. -/
theorem tenancy_opened : (tenancy rules).Represents (start rules).server Owned.empty := by
  refine ⟨fun document => Std.ExtTreeMap.getElem?_empty.symm, fun document uid => ⟨nofun, ?_⟩⟩
  rintro ⟨write, written, -⟩
  cases written

end Lawful

section Users

variable {world : AccountWorld rules} {acts : List (Act String String Doc)}

/-- While user IDs and automatic IDs are apart, what the account screens do to `users` is a
run of the store with owners: every write is an act of the user whom its document names. -/
theorem profiles_have_owners
    (reached : (tenancy rules).board.traced.Reaches (fun noted event => idsApart noted.1 event)
      (start rules, []) (world, acts)) :
    ∃ store, Owned.run acts = some store ∧ (tenancy rules).Represents world.server store :=
  tenancy_lawful.run tenancy_opened reached

/-- Then users do not interfere: without the acts of everybody else, the documents that name
a user would be the same. -/
theorem profiles_do_not_interfere
    (reached : (tenancy rules).board.traced.Reaches (fun noted event => idsApart noted.1 event)
      (start rules, []) (world, acts)) (uid : String) :
    ∃ own, Owned.run (acts.filter fun act => act.actor = uid) = some own ∧
      (∀ document, (tenancy rules).owns world.server document uid →
        own.value document = (world.server.documents .users)[document]?) ∧
      ∀ document, ¬ (tenancy rules).owns world.server document uid →
        own.value document = none :=
  tenancy_lawful.alone tenancy_opened reached uid

/-- Alice signs up and updates her profile, then Bob signs up. -/
def joining : List (Event (app anyText) (firebase anyText)) :=
  updating "d1" ++
    [.launch 2 .signUp, .input 3 (.editSignUp "Bob" "bob@mail" "secret" "902777"),
      .input 3 .signUpButton, .serve 1 (.name "u2"), .reply 1,
      .serve 1 (.token ⟨"https://u2/1", by decide⟩), .reply 1, .serve 1 .ok, .reply 1,
      .serve 1 (.name "d2"), .reply 1]

/-- Both users have acted. -/
def bothActed (noted : AccountWorld anyText × List (Act String String Doc)) : Bool :=
  (noted.2.map fun act => (act.actor, act.key)) == [("u1", "d1"), ("u1", "u1"), ("u2", "d2")]

theorem exists_joined :
    ∃ noted, (tenancy anyText).board.traced.Reaches (fun noted event => idsApart noted.1 event)
      (start anyText, []) noted ∧ bothActed noted = true :=
  Machine.exists_reaches (m := (tenancy anyText).board.traced)
    (fun noted event => idsApart noted.1 event) (start anyText, []) joining bothActed
    (by decide +kernel)

theorem profiles_have_owners_joined :
    ∃ noted, bothActed noted = true ∧ ∃ store, Owned.run noted.2 = some store ∧
      (tenancy anyText).Represents noted.1.server store := by
  obtain ⟨noted, reached, acted⟩ := exists_joined
  exact ⟨noted, acted, profiles_have_owners reached⟩

theorem profiles_do_not_interfere_joined :
    ∃ noted, bothActed noted = true ∧
      ∃ own, Owned.run (noted.2.filter fun act => act.actor = "u1") = some own ∧
        (∀ document, (tenancy anyText).owns noted.1.server document "u1" →
          own.value document = (noted.1.server.documents .users)[document]?) ∧
        ∀ document, ¬ (tenancy anyText).owns noted.1.server document "u1" →
          own.value document = none := by
  obtain ⟨noted, reached, acted⟩ := exists_joined
  exact ⟨noted, acted, profiles_do_not_interfere reached "u1"⟩

end Users

end Gbc.Account
