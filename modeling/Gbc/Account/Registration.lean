import Gbc.Account.Origin
import Gbc.Market.Submission

/-!
# What the submission forms store

Any number of sign-up forms, each submitted any number of times while it is edited,
and with them the two publishing forms. A sign-up stores what stood in its form at
the press if the form still shows it when its completion handlers read it.
-/

namespace Gbc

open Callback World

variable {rules : URLRules}

namespace Account

/-- What a sign-up stores has nothing else than what stood in the form at the press. -/
structure StoredAs (form : SignUpViewController) (user : User) (document : String)
    (server : Server rules) : Prop where
  account : ⟨user.uid, form.eMail, form.passWord⟩ ∈ server.accounts
  profile : ∃ (url : URL rules) (picture : ImageData),
    form.imageView.bind UIImage.jpegData = some picture ∧
    server.version url = some ⟨"user/" ++ user.uid, picture, url⟩ ∧
    ∀ key, ∃ data, (server.documents .users)[document]? = some data ∧
      data[key]? = Fields.value key (form.profile user.uid url.string)
  picture : ∀ object ∈ server.storage, object.path = "user/" ++ user.uid →
    form.imageView.bind UIImage.jpegData = some object.data

/-- Every stored sign-up has nothing else than what stood in its form at the press. -/
def StoresSignUps (world : AccountWorld rules) : Prop :=
  ∀ (entry : Entry (app rules)) (trail : List (Exchange (remote rules)))
    (form : SignUpViewController) (collection : CollectionName) (data : Fields)
    (document : String),
    world.Answered ⟨entry, trail⟩
      ⟨.addDocument collection data, (some document : Option String)⟩ →
    Pressed entry form → ∃ user, StoredAs form user document world.server

/-- Only sign-up forms are used. -/
def signingUpOnly (world : AccountWorld rules) (event : Event (app rules) (firebase rules)) :
    Bool :=
  match event with
  | .input self _ =>
      (world.objects[self]?).all fun target =>
        match target.object with
        | .signUp _ => true
        | _ => false
  | _ => true

/-- Only sign-up forms are used, and the completion handlers of a sign-up find the
form as it was at the press. -/
def formsKept (world : AccountWorld rules) (event : Event (app rules) (firebase rules)) :
    Bool :=
  signingUpOnly world event &&
    match event with
    | .reply index =>
        (world.pending[index]?).all fun pending =>
          (world.objects[pending.self]?).all fun target =>
            formKept target.object pending.past pending.request
    | _ => true

/-- What every world of such a run keeps. -/
structure Registers (world : AccountWorld rules) : Prop where
  origins : (origins rules True).Holds world
  ledger : Ledger world
  traced : world.Traced
  began : BeganWith (fun entry : Entry (app rules) => ∃ form, entry.object = .signUp form) world

theorem registers_of_reaches {world : AccountWorld rules}
    (reached : (system rules).Reaches formsKept (start rules) world) : Registers world where
  origins := by
    refine origins_of_reachable (reached.weaken fun state event kept => ?_)
    cases event with
    | reply index =>
        intro pending response target found answered placed _
        simp only [formsKept, signingUpOnly, Bool.true_and, found, Option.all_some,
          placed] at kept
        exact kept
    | _ => simp [Contract.guard, Account.origins]
  ledger := ledger_of_reachable reached
  traced := traced_of_reachable reached
  began := by
    refine beganWith_of_reachable (fun state self input target kept placed => ?_) reached
    simp only [formsKept, signingUpOnly, placed, Option.all_some, Bool.and_true] at kept
    split at kept
    · rename_i form same
      exact ⟨form, same⟩
    · cases kept

section Flow

variable {world : AccountWorld rules} {entry : Entry (app rules)} {form : SignUpViewController}
  {user : User} {data : ImageData} {url : URL rules}

/-- No handler of such a run began on a profile screen. -/
theorem Registers.not_profile (registers : Registers world) {past : Past (app rules)}
    {self : ProfileViewController} (occurs : world.Occurs past) :
    past.entry.object ≠ .profile self := by
  intro began
  obtain ⟨form, same⟩ := registers.began past occurs
  cases began.symm.trans same

/-- The handlers that run after an upload and a lookup follow a successful sign-up. -/
theorem Registers.signedUp_of_upload (registers : Registers world)
    (occurs : world.Occurs (afterUpload entry form user data)) :
    world.Answered ⟨entry, []⟩ ⟨.createUser form.eMail form.passWord,
      (.ok user : Except AuthErrorCode User)⟩ :=
  .handled (registers.traced _ _ _ (.handled (registers.traced _ _ _ occurs)))

/-- Every version stored for a user shows the picture of the sign-up. -/
theorem Registers.picture_of_stored (registers : Registers world) {object : StoredObject rules}
    (signedUp : world.Answered ⟨entry, []⟩ ⟨.createUser form.eMail form.passWord,
      (.ok user : Except AuthErrorCode User)⟩)
    (pressed : Pressed entry form) (stored : object ∈ world.server.storage)
    (path : object.path = "user/" ++ user.uid) :
    form.imageView.bind UIImage.jpegData = some object.data := by
  obtain ⟨past, uploaded⟩ := registers.ledger.uploaded stored
  have occurs := uploaded.occurs
  have origin := registers.origins.answered uploaded
  simp only [path] at origin
  generalize named : "user/" ++ user.uid = location at origin
  cases origin with
  | @picture entry' form' user' _ uploads =>
      have sameUser := (String.append_right_inj _).mp named
      have handled := registers.traced _ _ _ occurs
      cases registers.ledger.registrant signedUp (.handled handled) sameUser
      cases pressed.began.symm.trans uploads.began
      exact uploads.shown trivial
  | pick began => exact absurd began (registers.not_profile occurs)

/-- The document of a sign-up is added once and never written again. -/
theorem Registers.journal_of_users (registers : Registers world) {document : String}
    {write : Write} (written : (CollectionName.users, write) ∈ world.server.journal)
    (addressed : write.document = document) : ∃ data, write = .add document data := by
  have accounted := registers.ledger.accounted written
  cases write with
  | add name data => exact ⟨data, by rw [← addressed]; rfl⟩
  | set name data merge =>
      obtain ⟨past, set⟩ := accounted
      have occurs := set.occurs
      have origin := registers.origins.answered set
      cases origin with
      | update began => exact absurd began (registers.not_profile occurs)
  | delete name =>
      obtain ⟨past, deleted⟩ := accounted
      have origin := registers.origins.answered deleted
      cases origin

/-- While the forms keep what they show, what is stored for a sign-up is what stood in
the form at the press. -/
theorem Registers.storesSignUps (registers : Registers world) : StoresSignUps world := by
  intro entry trail form collection data document answered pressed
  have occurs := answered.occurs
  have origin := registers.origins.answered answered
  cases origin with
  | @profile _ form' now user picture url uploads same =>
      cases pressed.began.symm.trans uploads.began
      have located := registers.traced _ _ _ occurs
      have signedUp := registers.signedUp_of_upload (.handled located)
      obtain ⟨object, stored, path, rfl⟩ := registers.ledger.located (.handled located)
      have shown := registers.picture_of_stored signedUp pressed stored path
      refine ⟨user, registers.ledger.account signedUp,
        ⟨object.url, object.data, shown, ?_, fun key => ?_⟩, ?_⟩
      · rw [registers.ledger.version stored, ← path]
      · refine Server.exists_getElem?_replay (registers.ledger.added answered) ?_ ?_ ?_
        · intro fields written
          obtain ⟨past, added⟩ := registers.ledger.accounted written
          rw [← (registers.ledger.owner answered added).2, same trivial]
        · intro fields merge written
          obtain ⟨_, wrong⟩ := registers.journal_of_users written rfl
          cases wrong
        · intro written
          obtain ⟨_, wrong⟩ := registers.journal_of_users written rfl
          cases wrong
      · intro other stored path
        exact registers.picture_of_stored signedUp pressed stored path

end Flow

section Schedules

/-- The name a sign-up was submitted with and the name in its document. -/
def submittedName (world : AccountWorld rules) : Option (String × Option String) :=
  match world.acknowledged with
  | (⟨entry, _⟩, ⟨.addDocument .users _, (some document : Option String)⟩) :: _ =>
      match entry.object, entry.input with
      | .signUp form, .signUpButton =>
          some (form.userName, (world.server.documents .users)[document]?.bind (·["userName"]?))
      | _, _ => none
  | _ => none

/-- A stored sign-up has the name it was submitted with. -/
theorem StoresSignUps.name {world : AccountWorld rules} (stores : StoresSignUps world)
    {submitted : String} {stored : Option String}
    (names : submittedName world = some (submitted, stored)) : stored = some submitted := by
  unfold submittedName at names
  split at names
  · rename_i entry trail data document older handled
    split at names
    · rename_i form began pressed
      have answered : world.Answered ⟨entry, trail⟩
          ⟨.addDocument .users data, (some document : Option String)⟩ :=
        .handled (by rw [handled]; exact List.mem_cons_self)
      obtain ⟨user, storedAs⟩ := stores _ _ form _ _ _ answered ⟨began, pressed⟩
      obtain ⟨url, picture, _, _, fields⟩ := storedAs.profile
      obtain ⟨doc, found, same⟩ := fields "userName"
      have read : doc["userName"]? = some form.userName := same.trans rfl
      simp only [found, Option.bind_some, read, Option.some.injEq, Prod.mk.injEq] at names
      obtain ⟨rfl, rfl⟩ := names
      rfl
    · cases names
  · cases names

end Schedules

end Account

/-- The operation that is served ends without an error. -/
def succeeding {app : App (remote rules)} (event : Event app (firebase rules)) : Bool :=
  match event with
  | .serve _ choice => choice.succeeds
  | _ => true

/-- While the forms keep what their completion handlers read, all three submission
flows store what stood in the form at the press. -/
theorem stores_what_was_submitted (rules : URLRules) :
    (∀ world : Postings.PostingsWorld rules,
      (Postings.system rules).Reaches Postings.picturesKept (Postings.start rules) world →
      Postings.StoresSubmissions world) ∧
    ∀ world : Account.AccountWorld rules,
      (Account.system rules).Reaches Account.formsKept (Account.start rules) world →
      Account.StoresSignUps world :=
  ⟨fun _ reached => (Postings.publishes_of_reaches reached).storesSubmissions,
    fun _ reached => (Account.registers_of_reaches reached).storesSignUps⟩

/-- A posting and a sign-up are submitted and stored. -/
theorem stores_what_was_submitted_twice :
    (∃ world, (Postings.system anyText).Reaches Postings.picturesKept
        (Postings.start anyText) world ∧
      (world.server.documents .upload).contains "d1" = true ∧
      Postings.StoresSubmissions world) ∧
    ∃ world, (Account.system anyText).Reaches Account.formsKept
        (Account.start anyText) world ∧
      (Account.submittedName world == some ("Alice", some "Alice")) = true ∧
      Account.StoresSignUps world := by
  constructor
  · obtain ⟨world, reached, published⟩ := Machine.exists_reaches
      (m := Postings.system anyText) Postings.picturesKept
      (Postings.start anyText) Postings.publishing
      (fun world : Postings.PostingsWorld anyText =>
        (world.server.documents .upload).contains "d1") (by decide +kernel)
    exact ⟨world, reached, published, (stores_what_was_submitted _).1 world reached⟩
  · obtain ⟨world, reached, signedUp⟩ := Machine.exists_reaches
      (m := Account.system anyText) Account.formsKept
      (Account.start anyText) (Account.signingUp "d1")
      (fun world : Account.AccountWorld anyText =>
        Account.submittedName world == some ("Alice", some "Alice")) (by decide +kernel)
    exact ⟨world, reached, signedUp, (stores_what_was_submitted _).2 world reached⟩

/-- A sign-up form is edited between the press and the creation of the account: the document
holds the edited name. -/
theorem stores_later_edits :
    ¬ ∀ rules : URLRules,
      (∀ world : Postings.PostingsWorld rules,
        (Postings.system rules).Reaches
          (fun world event => Postings.submittingOnly world event && succeeding event)
          (Postings.start rules) world →
        Postings.StoresSubmissions world) ∧
      ∀ world : Account.AccountWorld rules,
        (Account.system rules).Reaches
          (fun world event => Account.signingUpOnly world event && succeeding event)
          (Account.start rules) world →
        Account.StoresSignUps world := by
  intro stores
  obtain ⟨world, reached, names⟩ := Machine.exists_reaches
    (m := Account.system anyText)
    (fun world event => Account.signingUpOnly world event && succeeding event)
    (Account.start anyText)
    (Account.pressing ++ [Account.refilling, .serve 0 (.name "u1"), .reply 0] ++
      Account.finishing 0 "d1")
    (fun world : Account.AccountWorld anyText =>
      Account.submittedName world == some ("Alice", some "Bob")) (by decide +kernel)
  have same := ((stores anyText).2 world reached).name (beq_iff_eq.mp names)
  exact absurd same (by decide)

end Gbc
