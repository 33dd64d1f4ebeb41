import Gbc.Account.Profiles

/-!
# Reading a profile back

A user has up to two documents: the one from signing up, under an automatic ID, and
the one that profile updates replace, under the user ID. The readers go through both
in ID order and keep the last, so what they show after an update depends on how the
automatic ID sorts against the user ID.
-/

namespace Gbc.Account

open Callback Handler World

variable {rules : URLRules}

/-- The profile screen shows these fields. -/
structure ProfileShows (fields : Fields) (screen : ProfileViewController) : Prop where
  userName : screen.userName = Fields.value "userName" fields
  phone : screen.phone = Fields.value "phone" fields
  imageUrl : screen.imageUrl = Fields.value "image" fields
  email : screen.email = Fields.value "eMail" fields

/-- The Home screen greets by these fields. -/
def HomeShows (fields : Fields) (screen : HomeTabViewController) : Prop :=
  screen.userName = Fields.value "userName" fields

/-- A screen handles the present result of its query for a user. -/
def handleUsers (world : AccountWorld rules) (self : Nat) (past : Past (app rules))
    (uid : String) : AccountWorld rules :=
  let snapshot := some (world.server.matching .users "userId" uid)
  match world.objects[self]? with
  | some target =>
      match target.object with
      | .profile _ => exec self past (ProfileViewController.usersLoaded snapshot) target world
      | .home _ => exec self past (HomeTabViewController.usersLoaded snapshot) target world
      | .signUp _ => world
  | none => world

/-- Both readers show the update, on any of their screens. -/
structure ReadsBack (world : AccountWorld rules) (uid : String) (update : Fields) : Prop where
  profile : ∀ self past process (screen : ProfileViewController),
    world.objects[self]? = some ⟨process, .profile screen⟩ →
    ∃ shown : ProfileViewController,
      (handleUsers world self past uid).objects[self]? = some ⟨process, .profile shown⟩ ∧
      ProfileShows update shown
  home : ∀ self past process (screen : HomeTabViewController),
    world.objects[self]? = some ⟨process, .home screen⟩ →
    ∃ shown : HomeTabViewController,
      (handleUsers world self past uid).objects[self]? = some ⟨process, .home shown⟩ ∧
      HomeShows update shown

/-- A sign-up document does not hide an update of the user: it sorts before the user's
own document, or it has been replaced by the update of another user, or it has the
same values of the fields that are read. -/
def Yields (server : Server rules) (document : String) (signUp : Fields) (uid : String)
    (update : Fields) (keys : List String) : Prop :=
  document ≤ uid ∨ (server.lastSet .users document).isSome = true ∨
    ∀ key ∈ keys, Fields.value key signUp = Fields.value key update

/-- The fields of the document of the user that is read last. -/
def lastRead (server : Server rules) (document : String) (signUp : Fields) (uid : String)
    (update : Fields) : Fields :=
  if document ≤ uid ∨ (server.lastSet .users document).isSome = true then update else signUp

/-- The fields of a user's document that the profile screen reads. -/
def profileKeys : List String := ["userName", "phone", "image", "eMail"]

/-- A profile screen that shows some fields shows others if the values agree. -/
theorem ProfileShows.congr_iff {read fields : Fields} {screen : ProfileViewController}
    (shows : ProfileShows read screen) : ProfileShows fields screen ↔
      ∀ key ∈ profileKeys, Fields.value key read = Fields.value key fields := by
  constructor
  · intro others key member
    simp only [profileKeys, List.mem_cons, List.not_mem_nil, or_false] at member
    rcases member with rfl | rfl | rfl | rfl
    · exact shows.userName.symm.trans others.userName
    · exact shows.phone.symm.trans others.phone
    · exact shows.imageUrl.symm.trans others.imageUrl
    · exact shows.email.symm.trans others.email
  · intro agree
    exact ⟨shows.userName.trans (agree _ (by decide)), shows.phone.trans (agree _ (by decide)),
      shows.imageUrl.trans (agree _ (by decide)), shows.email.trans (agree _ (by decide))⟩

section Readers

variable {world : AccountWorld rules} {self process : Nat} (past : Past (app rules))

/-- An object that is replaced is there. -/
theorem getElem?_setObject {target other : Instance (app rules)}
    (placed : world.objects[self]? = some target) :
    (world.setObject self other).objects[self]? = some other := by
  have bound := (List.getElem?_eq_some_iff.mp placed).1
  simp [World.setObject, bound]

/-- A field of a document that is there. -/
theorem getElem?_of_mem {data : Doc} {key : String} (present : key ∈ data) :
    ∃ value, data[key]? = some value :=
  Option.isSome_iff_exists.mp (by simpa using present)

/-- Reading one complete document leaves its fields on the profile screen. -/
theorem exec_profileUser {documentID : String} {data : Doc} (documents : Snapshot)
    {screen : ProfileViewController} (complete : ∀ key ∈ profileKeys, key ∈ data)
    (placed : world.objects[self]? = some ⟨process, .profile screen⟩) :
    ∃ (shown : ProfileViewController) (later : AccountWorld rules),
      exec self past (ProfileViewController.showUsers ((documentID, data) :: documents))
          ⟨process, .profile screen⟩ world =
        exec self past (ProfileViewController.showUsers documents)
          ⟨process, .profile shown⟩ later ∧
      later.objects[self]? = some ⟨process, .profile shown⟩ ∧ later.faults = world.faults ∧
      shown.userName = data["userName"]? ∧ shown.phone = data["phone"]? ∧
      shown.imageUrl = data["image"]? ∧ shown.email = data["eMail"]? := by
  obtain ⟨userName, hasUserName⟩ := getElem?_of_mem (complete "userName" (by decide))
  obtain ⟨phone, hasPhone⟩ := getElem?_of_mem (complete "phone" (by decide))
  obtain ⟨image, hasImage⟩ := getElem?_of_mem (complete "image" (by decide))
  obtain ⟨eMail, hasEMail⟩ := getElem?_of_mem (complete "eMail" (by decide))
  simp only [ProfileViewController.showUsers, hasUserName, hasPhone, hasImage, hasEMail,
    Code.unwrap_some, Handler.assign, World.exec, Controller.ofScreen, Controller.screen,
    ProfileViewController.downloadImage]
  cases URL.ofString rules image with
  | none =>
      refine ⟨_, _, rfl, ?_, rfl, rfl, rfl, rfl, rfl⟩
      simp only [World.setObject, List.set_set]
      exact getElem?_setObject placed
  | some url =>
      refine ⟨_, _, rfl, ?_, rfl, rfl, rfl, rfl, rfl⟩
      simp only [World.setObject, List.set_set]
      exact getElem?_setObject placed

/-- Reading complete documents leaves the fields of the last one on the profile screen. -/
theorem exec_profileUsers {documents : Snapshot} {screen : ProfileViewController}
    (complete : ∀ document ∈ documents, ∀ key ∈ profileKeys, key ∈ document.2)
    (placed : world.objects[self]? = some ⟨process, .profile screen⟩) :
    ∃ shown : ProfileViewController,
      (exec self past (ProfileViewController.showUsers documents) ⟨process, .profile screen⟩
        world).objects[self]? = some ⟨process, .profile shown⟩ ∧
      (exec self past (ProfileViewController.showUsers documents) ⟨process, .profile screen⟩
        world).faults = world.faults ∧
      (documents = [] → shown = screen) ∧
      ∀ documentID data, documents.getLast? = some (documentID, data) →
        shown.userName = data["userName"]? ∧ shown.phone = data["phone"]? ∧
        shown.imageUrl = data["image"]? ∧ shown.email = data["eMail"]? := by
  induction documents generalizing screen world with
  | nil => exact ⟨screen, placed, rfl, fun _ => rfl, nofun⟩
  | cons document documents inductionHypothesis =>
      obtain ⟨documentID, data⟩ := document
      obtain ⟨now, later, same, placed, calm, shows⟩ := exec_profileUser past documents
        (complete (documentID, data) List.mem_cons_self) placed
      obtain ⟨shown, placed, silent, kept, last⟩ := inductionHypothesis
        (fun document member => complete document (List.mem_cons_of_mem _ member)) placed
      rw [same]
      refine ⟨shown, placed, silent.trans calm, nofun, fun lastID lastData found => ?_⟩
      cases documents with
      | nil =>
          obtain ⟨rfl, rfl⟩ : documentID = lastID ∧ data = lastData := by simpa using found
          rw [kept rfl]
          exact shows
      | cons second documents => exact last lastID lastData (by simpa using found)

/-- Reading complete documents leaves the name of the last one on the Home screen. -/
theorem exec_homeUsers {documents : Snapshot} {screen : HomeTabViewController}
    (complete : ∀ document ∈ documents, "userName" ∈ document.2)
    (placed : world.objects[self]? = some ⟨process, .home screen⟩) :
    ∃ shown : HomeTabViewController,
      (exec self past (HomeTabViewController.showUsers documents) ⟨process, .home screen⟩
        world).objects[self]? = some ⟨process, .home shown⟩ ∧
      (exec self past (HomeTabViewController.showUsers documents) ⟨process, .home screen⟩
        world).faults = world.faults ∧
      (documents = [] → shown = screen) ∧
      ∀ documentID data, documents.getLast? = some (documentID, data) →
        shown.userName = data["userName"]? := by
  induction documents generalizing screen world with
  | nil => exact ⟨screen, placed, rfl, fun _ => rfl, nofun⟩
  | cons document documents inductionHypothesis =>
      obtain ⟨documentID, data⟩ := document
      obtain ⟨userName, present⟩ :=
        getElem?_of_mem (complete (documentID, data) List.mem_cons_self)
      simp only [HomeTabViewController.showUsers, present, Code.unwrap_some, Handler.assign,
        World.exec, Controller.ofScreen, Controller.screen]
      obtain ⟨shown, placed, silent, kept, last⟩ := inductionHypothesis
        (fun document member => complete document (List.mem_cons_of_mem _ member))
        (getElem?_setObject placed)
      refine ⟨shown, placed, silent, fun empty => absurd empty (List.cons_ne_nil _ _),
        fun lastID lastData found => ?_⟩
      cases documents with
      | nil =>
          obtain ⟨rfl, rfl⟩ : documentID = lastID ∧ data = lastData := by simpa using found
          rw [kept rfl, present]
      | cons second documents => exact last lastID lastData (by simpa using found)

end Readers

section Users

variable {world : AccountWorld rules} {uid document : String} {signUp update : Fields}

/-- Every write to `users` has all fields that are read. -/
theorem Writes.present {write : Write} {data : Fields} (writes : Writes write)
    (same : write = .add document data ∨ write = .set document data false) {key : String}
    (read : key ∈ profileKeys) : (Fields.value key data).isSome = true := by
  simp only [profileKeys, List.mem_cons, List.not_mem_nil, or_false] at read
  rcases same with rfl | rfl
  · cases writes
    rcases read with rfl | rfl | rfl | rfl <;> rfl
  · cases writes
    rcases read with rfl | rfl | rfl | rfl <;> rfl

/-- A profile update is a write to the document under the user ID. -/
theorem Accounts.update_of_lastSet (accounts : Accounts world)
    (updated : world.server.lastSet .users uid = some update) :
    (CollectionName.users, Write.set uid update false) ∈ world.server.journal ∧
      Fields.value "userId" update = some uid := by
  obtain ⟨entry, member, found⟩ := List.exists_of_findSome?_eq_some updated
  obtain rfl := Server.replacement_eq_some.mp found
  refine ⟨member, ?_⟩
  have writes := accounts.writes member
  cases writes
  rfl

/-- After an update, the document under the user ID is exactly that update. -/
theorem Accounts.document_of_lastSet (accounts : Accounts world)
    (updated : world.server.lastSet .users uid = some update) :
    (world.server.documents .users)[uid]? = some (Doc.merge ∅ update) := by
  refine Server.getElem?_replay_of_lastSet updated accounts.ledger.fresh ?_ ?_
  · intro data merge written
    cases accounts.writes written
    rfl
  · intro written
    cases accounts.writes written

/-- A sign-up document that was not replaced is exactly what signing up wrote. -/
theorem Accounts.document_of_added (accounts : Accounts world)
    (added : (CollectionName.users, Write.add document signUp) ∈ world.server.journal)
    (kept : world.server.lastSet .users document = none) :
    (world.server.documents .users)[document]? = some (Doc.merge ∅ signUp) := by
  refine Server.getElem?_replay_of_added added ?_ ?_ ?_
  · intro other written
    obtain ⟨past, answered⟩ := accounts.ledger.accounted added
    obtain ⟨past', answered'⟩ := accounts.ledger.accounted written
    exact (accounts.ledger.owner answered' answered).2
  · intro data merge written
    have writes := accounts.writes written
    have none := List.findSome?_eq_none_iff.mp kept _ written
    cases writes
    simp [Server.replacement] at none
  · intro written
    cases accounts.writes written

/-- The documents of a user who has signed up and updated the profile. -/
theorem Accounts.document_of_user (accounts : Accounts world)
    (added : (CollectionName.users, Write.add document signUp) ∈ world.server.journal)
    (owner : Fields.value "userId" signUp = some uid)
    (updated : world.server.lastSet .users uid = some update) {other : String} {data : Doc}
    (found : (world.server.documents .users)[other]? = some data)
    (owned : data["userId"]? = some uid) :
    other = uid ∧ data = Doc.merge ∅ update ∨
      other = document ∧ world.server.lastSet .users document = none ∧
        data = Doc.merge ∅ signUp := by
  have own := accounts.document_of_lastSet updated
  by_cases same : other = uid
  · subst same
    exact .inl ⟨rfl, Option.some.inj (found.symm.trans own)⟩
  · right
    rcases Server.written_of_replay found owned with
      ⟨fields, written, named⟩ | ⟨fields, merge, written, named⟩
    · obtain ⟨rfl, rfl⟩ := accounts.added_unique written named added owner
      cases replaced : world.server.lastSet .users other with
      | none =>
          have kept := accounts.document_of_added added replaced
          exact ⟨rfl, rfl, Option.some.inj (found.symm.trans kept)⟩
      | some fields' =>
          -- The update that replaced it belongs to the user with its ID.
          have now := accounts.document_of_lastSet replaced
          obtain rfl := Option.some.inj (found.symm.trans now)
          rw [Doc.getElem?_merge, (accounts.update_of_lastSet replaced).2] at owned
          exact absurd (Option.some.inj owned) same
    · have writes := accounts.writes written
      cases writes
      simp [ProfileViewController.changes, Fields.value] at named
      exact absurd named same

/-- All documents that a query for the user delivers have the fields that are read. -/
theorem Accounts.complete (accounts : Accounts world)
    (added : (CollectionName.users, Write.add document signUp) ∈ world.server.journal)
    (owner : Fields.value "userId" signUp = some uid)
    (updated : world.server.lastSet .users uid = some update) :
    ∀ found ∈ world.server.matching .users "userId" uid, ∀ key ∈ profileKeys,
      key ∈ found.2 := by
  rintro ⟨other, data⟩ member key read
  obtain ⟨listed, owned⟩ := List.mem_filter.mp member
  have found := Std.ExtTreeMap.mem_toList_iff_getElem?_eq_some.mp listed
  have signedUp := (accounts.writes added).present (.inl rfl) read
  have set := (accounts.update_of_lastSet updated).1
  have replaced := (accounts.writes set).present (.inr rfl) read
  rw [← Std.ExtTreeMap.isSome_getElem?_iff_mem]
  rcases accounts.document_of_user added owner updated found (by simpa using owned) with
    ⟨-, rfl⟩ | ⟨-, -, rfl⟩
  · simpa [Doc.getElem?_merge] using replaced
  · simpa [Doc.getElem?_merge] using signedUp

/-- The document that a query for the user delivers last. -/
theorem Accounts.last_of_user (accounts : Accounts world)
    (added : (CollectionName.users, Write.add document signUp) ∈ world.server.journal)
    (owner : Fields.value "userId" signUp = some uid)
    (updated : world.server.lastSet .users uid = some update) :
    ∃ last, (world.server.matching .users "userId" uid).getLast? =
      some (last, Doc.merge ∅ (lastRead world.server document signUp uid update)) := by
  unfold lastRead
  split
  · rename_i yields
    refine ⟨uid, ?_⟩
    refine Server.getLast?_matching _ (accounts.document_of_lastSet updated) ?_ ?_
    · rw [Doc.getElem?_merge, (accounts.update_of_lastSet updated).2]
      rfl
    · intro other data found owned
      rcases accounts.document_of_user added owner updated found owned with
        ⟨rfl, -⟩ | ⟨rfl, kept, -⟩
      · exact String.le_refl _
      · exact yields.resolve_right (by simp [kept])
  · rename_i hides
    obtain ⟨after, kept⟩ := not_or.mp hides
    have kept : world.server.lastSet .users document = none := by simpa using kept
    refine ⟨document, ?_⟩
    refine Server.getLast?_matching _ (accounts.document_of_added added kept) ?_ ?_
    · rw [Doc.getElem?_merge, owner]
      rfl
    · intro other data found owned
      rcases accounts.document_of_user added owner updated found owned with
        ⟨rfl, -⟩ | ⟨rfl, -, -⟩
      · exact (String.le_total _ _).resolve_right after
      · exact String.le_refl _

/-- The document that is read last has the values of the update exactly if the sign-up
document does not hide it. -/
theorem forall_lastRead_iff {keys : List String} {server : Server rules} :
    (∀ key ∈ keys, Fields.value key (lastRead server document signUp uid update) =
      Fields.value key update) ↔ Yields server document signUp uid update keys := by
  unfold Yields lastRead
  by_cases yields : document ≤ uid ∨ (server.lastSet .users document).isSome = true
  · rw [if_pos yields]
    exact ⟨fun _ => yields.imp id .inl, fun _ _ _ => rfl⟩
  · rw [if_neg yields]
    refine ⟨fun same => .inr (.inr same), ?_⟩
    rintro (before | replaced | same)
    · exact absurd (.inl before) yields
    · exact absurd (.inr replaced) yields
    · exact same

variable {self process : Nat} (past : Past (app rules))

/-- The profile screen shows the document that is read last. -/
theorem Accounts.profile_reads (accounts : Accounts world) {screen : ProfileViewController}
    (added : (CollectionName.users, Write.add document signUp) ∈ world.server.journal)
    (owner : Fields.value "userId" signUp = some uid)
    (updated : world.server.lastSet .users uid = some update)
    (placed : world.objects[self]? = some ⟨process, .profile screen⟩) :
    ∃ shown : ProfileViewController,
      (handleUsers world self past uid).objects[self]? = some ⟨process, .profile shown⟩ ∧
      (handleUsers world self past uid).faults = world.faults ∧
      ProfileShows (lastRead world.server document signUp uid update) shown := by
  have complete := accounts.complete added owner updated
  obtain ⟨lastID, last⟩ := accounts.last_of_user added owner updated
  obtain ⟨shown, found, calm, -, shows⟩ := exec_profileUsers past complete placed
  obtain ⟨userName, phone, imageUrl, email⟩ := shows _ _ last
  simp only [Doc.getElem?_merge, Std.ExtTreeMap.getElem?_empty, Option.or_none] at *
  have same : handleUsers world self past uid = exec self past
      (ProfileViewController.showUsers (world.server.matching .users "userId" uid))
      ⟨process, .profile screen⟩ world := by
    simp [handleUsers, placed, ProfileViewController.usersLoaded]
  exact ⟨shown, same ▸ found, same ▸ calm, userName, phone, imageUrl, email⟩

/-- The Home screen greets by the document that is read last. -/
theorem Accounts.home_reads (accounts : Accounts world) {screen : HomeTabViewController}
    (added : (CollectionName.users, Write.add document signUp) ∈ world.server.journal)
    (owner : Fields.value "userId" signUp = some uid)
    (updated : world.server.lastSet .users uid = some update)
    (placed : world.objects[self]? = some ⟨process, .home screen⟩) :
    ∃ shown : HomeTabViewController,
      (handleUsers world self past uid).objects[self]? = some ⟨process, .home shown⟩ ∧
      (handleUsers world self past uid).faults = world.faults ∧
      HomeShows (lastRead world.server document signUp uid update) shown := by
  have complete := accounts.complete added owner updated
  obtain ⟨lastID, last⟩ := accounts.last_of_user added owner updated
  obtain ⟨shown, found, calm, -, shows⟩ := exec_homeUsers past
    (fun found member => complete found member _ (by decide)) placed
  have userName := shows _ _ last
  simp only [Doc.getElem?_merge, Std.ExtTreeMap.getElem?_empty, Option.or_none] at userName
  have same : handleUsers world self past uid = exec self past
      (HomeTabViewController.showUsers (world.server.matching .users "userId" uid))
      ⟨process, .home screen⟩ world := by
    simp [handleUsers, placed, HomeTabViewController.usersLoaded]
  exact ⟨shown, same ▸ found, same ▸ calm, userName⟩

end Users

/-- After an update, both readers show it exactly if the sign-up document does not hide
it, and in any case they do not trap. -/
theorem updates_read_back_iff {world : AccountWorld rules} {uid document : String}
    {signUp update : Fields}
    (reached : (system rules).Reaches (system rules).anyStep (start rules) world)
    (signedUp : (CollectionName.users, Write.add document signUp) ∈ world.server.journal)
    (owner : Fields.value "userId" signUp = some uid)
    (updated : world.server.lastSet .users uid = some update) :
    (∀ self past process (screen : ProfileViewController),
      world.objects[self]? = some ⟨process, .profile screen⟩ →
      ∃ shown : ProfileViewController,
        (handleUsers world self past uid).objects[self]? = some ⟨process, .profile shown⟩ ∧
        (handleUsers world self past uid).faults = world.faults ∧
        (ProfileShows update shown ↔
          Yields world.server document signUp uid update profileKeys)) ∧
    ∀ self past process (screen : HomeTabViewController),
      world.objects[self]? = some ⟨process, .home screen⟩ →
      ∃ shown : HomeTabViewController,
        (handleUsers world self past uid).objects[self]? = some ⟨process, .home shown⟩ ∧
        (handleUsers world self past uid).faults = world.faults ∧
        (HomeShows update shown ↔
          Yields world.server document signUp uid update ["userName"]) := by
  have accounts := accounts_of_reachable reached
  constructor
  · intro self past process screen placed
    obtain ⟨shown, found, calm, shows⟩ :=
      accounts.profile_reads past signedUp owner updated placed
    refine ⟨shown, found, calm, ?_⟩
    rw [shows.congr_iff, forall_lastRead_iff]
  · intro self past process screen placed
    obtain ⟨shown, found, calm, shows⟩ :=
      accounts.home_reads past signedUp owner updated placed
    refine ⟨shown, found, calm, ?_⟩
    have userName : shown.userName = _ := shows
    rw [← forall_lastRead_iff]
    simp [HomeShows, userName]

section Schedules

/-- The user of the schedules. -/
def registered : User := ⟨"u1", by decide⟩

/-- A user signs up and gets this document, loads the profile and updates it; a Home
screen is open. -/
def updating (document : String) : List (Event (app anyText) (firebase anyText)) :=
  signingUp document ++ [.launch 1 .profile, .launch 1 .home, .input 1 .viewWillAppear,
    .input 1 (.authState 0 (some registered)), .serve 0 .ok, .reply 0,
    .input 1 (.editProfile "Alicia" "902777"), .input 1 .updateUserData, .serve 1 .ok, .reply 1]

/-- What a sign-up of the schedules writes. -/
def signedUpFields : Fields :=
  [("userName", "Alice"), ("eMail", "alice@mail"), ("phone", "902555"), ("userId", "u1"),
    ("image", "https://u1/1")]

/-- What the profile update of the schedules writes. -/
def updatedFields : Fields :=
  [("eMail", "alice@mail"), ("phone", "902777"), ("userId", "u1"), ("userName", "Alicia"),
    ("image", "https://u1/1")]

/-- The user has signed up and updated the profile, and a profile screen is open. -/
def hasUpdated (document : String) (world : AccountWorld anyText) : Bool :=
  world.server.journal.contains (.users, .add document signedUpFields) &&
    world.server.lastSet .users "u1" == some updatedFields &&
    (world.objects[1]?).any fun target =>
      match target.object with
      | .profile _ => true
      | _ => false

/-- What the check of a schedule says. -/
theorem of_hasUpdated {document : String} {world : AccountWorld anyText}
    (happened : hasUpdated document world = true) :
    (CollectionName.users, Write.add document signedUpFields) ∈ world.server.journal ∧
      world.server.lastSet .users "u1" = some updatedFields ∧
      ∃ process screen, world.objects[1]? = some ⟨process, .profile screen⟩ := by
  obtain ⟨written, opened⟩ := Bool.and_eq_true_iff.mp happened
  obtain ⟨signedUp, updated⟩ := Bool.and_eq_true_iff.mp written
  obtain ⟨⟨process, object⟩, placed, isProfile⟩ := (Option.any_eq_true _ _).mp opened
  refine ⟨List.contains_iff_mem.mp signedUp, beq_iff_eq.mp updated, process, ?_⟩
  cases object with
  | profile screen => exact ⟨screen, placed⟩
  | _ => cases isProfile

end Schedules

/-- A profile whose sign-up document sorts first is updated and read back. -/
theorem updates_read_back_iff_updated :
    ∃ world, (system anyText).Reaches (system anyText).anyStep
        (start anyText) world ∧ hasUpdated "d1" world = true ∧
      ReadsBack world "u1" updatedFields := by
  obtain ⟨world, reached, happened⟩ := Machine.exists_reaches (m := system anyText)
    (system anyText).anyStep (start anyText) (updating "d1")
    (hasUpdated "d1") (by decide +kernel)
  obtain ⟨signedUp, updated, -⟩ := of_hasUpdated happened
  obtain ⟨profile, home⟩ := updates_read_back_iff reached signedUp rfl updated
  refine ⟨world, reached, happened, ?_, ?_⟩
  · intro self past process screen placed
    obtain ⟨shown, found, -, shows⟩ := profile self past process screen placed
    exact ⟨shown, found, shows.mpr (.inl (by decide))⟩
  · intro self past process screen placed
    obtain ⟨shown, found, -, shows⟩ := home self past process screen placed
    exact ⟨shown, found, shows.mpr (.inl (by decide))⟩

/-- A sign-up document that sorts after the user ID hides the update. -/
theorem update_hidden_by_signUp :
    ¬ ∀ (rules : URLRules) (world : AccountWorld rules) (uid document : String)
        (signUp update : Fields),
      (system rules).Reaches (system rules).anyStep (start rules) world →
      (CollectionName.users, Write.add document signUp) ∈ world.server.journal →
      Fields.value "userId" signUp = some uid →
      world.server.lastSet .users uid = some update →
      ReadsBack world uid update := by
  intro readsBack
  obtain ⟨world, reached, happened⟩ := Machine.exists_reaches (m := system anyText)
    (system anyText).anyStep (start anyText) (updating "z1")
    (fun world => hasUpdated "z1" world && (world.server.lastSet .users "z1").isNone)
    (by decide +kernel)
  obtain ⟨happened, kept⟩ := Bool.and_eq_true_iff.mp happened
  obtain ⟨signedUp, updated, process, screen, placed⟩ := of_hasUpdated happened
  have back := readsBack _ world "u1" "z1" _ _ reached signedUp rfl updated
  obtain ⟨shown, found, shows⟩ :=
    back.profile 1 ⟨⟨0, 1, .viewWillAppear, .profile screen⟩, []⟩ process screen placed
  obtain ⟨shown', found', -, shows'⟩ := (accounts_of_reachable reached).profile_reads
    ⟨⟨0, 1, .viewWillAppear, .profile screen⟩, []⟩ signedUp rfl updated placed
  cases found.symm.trans found'
  have last : lastRead world.server "z1" signedUpFields "u1" updatedFields = signedUpFields := by
    have none : world.server.lastSet .users "z1" = none := by simpa using kept
    simp [lastRead, none]
  have name := shows.userName.symm.trans shows'.userName
  rw [last] at name
  exact absurd name (by decide)

end Gbc.Account
