import Gbc.Market.Ownership
import Gbc.Market.Shown

/-!
# Displayed postings are authentic

Whatever a list or a detail screen shows of a posting was given to it by its owner: the
texts stood in a form whose button that user pressed, the reference is its own ID, and the
link names a picture that was uploaded for it. So does the message that a detail screen
composes reach a number which the poster has entered.
-/

namespace Gbc

open Callback Handler World

variable {rules : URLRules}

/-- The postings that a screen has loaded. -/
def Screen.postings : Screen → List Upload
  | .market self => self.postingArray ++ self.uploadArray
  | .manage self => self.manaageArray
  | .detail self => self.array
  | _ => []

namespace Postings

/-- How a field of a posting came to its value: through an operation that began with a
press of this user, and that has been answered. -/
inductive Given (world : PostingsWorld rules) (document uid key value : String) : Prop where
  | posted {entry : Entry (app rules)} {form : UploadMarketPlaceViewController} {user : User}
      (began : entry.object = .upload form) (pressed : entry.input = .uploadButton (some user))
      (poster : user.uid = uid) (entered : Fields.value key (form.posting user) = some value)
      (answered : world.Answered ⟨entry, []⟩
        ⟨.addDocument .upload (form.posting user), (some document : Option String)⟩)
  | updated {entry : Entry (app rules)} {screen : UpdatePostingsViewController}
      (began : entry.object = .update screen) (pressed : entry.input = .updateButton)
      (owner : screen.user.uid = uid) (entered : Fields.value key screen.changes = some value)
      (answered : world.Answered ⟨entry, []⟩
        ⟨.setData .upload document screen.changes true, true⟩)
  | referred (named : key = "Ref") (own : value = document)
  | pictured {past : Past (app rules)} {object : StoredObject rules} (named : key = "Image")
      (link : value = object.url.string) (path : object.path = "Uploads/" ++ document)
      (version : world.server.version object.url = some object)
      (uploader : actor past.entry = some uid)
      (answered : world.Answered past ⟨.putData object.path object.data, true⟩)

section Writes

variable {world : PostingsWorld rules} {document uid key value : String} {write : Write}

/-- The operation behind a write. -/
theorem exists_applied {collection : CollectionName} (ledger : Ledger world)
    (written : (collection, write) ∈ world.server.journal) :
    ∃ past exchange, world.Answered past exchange ∧
      applied exchange = some (collection, write) := by
  have accounted := ledger.accounted written
  cases write with
  | add name data => exact accounted.imp fun past answered => ⟨_, answered, rfl⟩
  | set name data merge => exact accounted.imp fun past answered => ⟨_, answered, rfl⟩
  | delete name => exact accounted.imp fun past answered => ⟨_, answered, rfl⟩

/-- Every document that was ever written to has a creator. -/
theorem exists_creator
    (reached : (system rules).Reaches (system rules).anyStep (start rules) world)
    (written : (.upload, write) ∈ world.server.journal) :
    ∃ uid, CreatedBy world.server write.document uid := by
  have ledger := ledger_of_reachable reached
  obtain ⟨past, exchange, answered, writes⟩ := exists_applied ledger written
  obtain ⟨uid, -, by_owner⟩ := writtenBy_of_applied ledger (traced_of_reachable reached)
    answered.occurs ((origins_of_reaches reached).answered answered)
    ((holds_of_reaches reached).answered answered) writes
  cases by_owner with
  | @submitted name form user poster => exact ⟨user.uid, form, user, rfl, written⟩
  | managed kept created => exact ⟨uid, created⟩

/-- The chains of handlers that began on an update screen began on one of a posting of its
user. -/
def UpdatesOwn (world : PostingsWorld rules) : Prop :=
  ∀ past, world.Occurs past → ∀ screen, past.entry.object = .update screen →
    screen.docPath ≠ "" → CreatedBy world.server screen.docPath screen.user.uid

/-- The provenance of the postings, for the screens and for what began on them. -/
structure Owning (world : PostingsWorld rules) : Prop where
  holds : (contract rules ⟨False, False⟩).Holds world
  own : UpdatesOwn world

/-- Update screens are opened for the postings of their user. -/
theorem updatesOwn_of_reaches
    (reached : (system rules).Reaches (system rules).anyStep (start rules) world) :
    UpdatesOwn world := by
  have initial : Owning (start rules) := by
    refine ⟨holds_of_reaches (.refl : (system rules).Reaches (Machine.anyStep _) _ _),
      fun past occurs => ?_⟩
    cases occurs with
    | outstanding member => cases member
    | handled member => cases member
  refine (reached.invariant initial ?_ : Owning world).own
  rintro world event next ⟨holds, own⟩ _ taken
  have guarded : (contract rules ⟨False, False⟩).guard world event :=
    guard_of_delivery fun _ _ _ _ _ => ⟨False.elim, False.elim⟩
  refine ⟨holds.step (contract_sound rules _) guarded taken, ?_⟩
  have suffix : world.server.journal <:+ next.server.journal := by
    rcases answers_of_step taken with ⟨same, _⟩ | ⟨past, request, response, choice, serves, _⟩
    · exact same ▸ List.suffix_refl _
    · exact (Server.served_of_serve serves).suffix
  intro past occurs screen began named
  refine CreatedBy.evolve suffix ?_
  rcases occurs_of_step taken occurs with
    older | ⟨self, input, target, rfl, placed, rfl⟩ | ⟨older, request, response, rfl, old, _⟩
  · exact own past older screen began named
  · have valid : ScreenOk ⟨False, False⟩ world.server target.object :=
      holds.objects target (List.mem_of_getElem? placed)
    rw [show target.object = .update screen from began] at valid
    exact UpdateOk.owner valid named
  · exact own older old screen began named

/-- The user who uploads a picture for a posting is its creator. -/
theorem actor_of_pictures
    (reached : (system rules).Reaches (system rules).anyStep (start rules) world)
    {past : Past (app rules)} {collection : CollectionName} {image : UIImage}
    (pictures : Pictures False past collection document image)
    (occurs : world.Occurs past) (created : CreatedBy world.server document uid) :
    actor past.entry = some uid := by
  have ledger := ledger_of_reachable reached
  have traced := traced_of_reachable reached
  cases pictures with
  | posted began pressed =>
      rw [CreatedBy.unique ledger created (createdBy_of_handled ledger traced occurs)]
      simp [actor, began, pressed]
  | @informed entry form document image began pressed =>
      -- The ID of an information item is that of no posting.
      obtain ⟨posting, user, -, added⟩ := created
      obtain ⟨other, answered⟩ := ledger.accounted added
      have same := (ledger.owner answered (.handled (traced _ _ _ occurs))).2
      have users := congrArg (Fields.value "User") same
      simp [Fields.value, UploadMarketPlaceViewController.posting,
        AddInfoViewController.item] at users
  | @updated entry screen image began pressed complete =>
      obtain ⟨form, user, -, added⟩ := id created
      have named := addsNamed_of_reachable reached _ _ _ added
      have own := updatesOwn_of_reaches reached _ occurs screen began named
      rw [CreatedBy.unique ledger created own]
      simp [actor, began]

/-- What is uploaded is a picture of some document. -/
theorem pictures_of_putData {kept : Prop} {past : Past (app rules)} {path : String}
    {data : ImageData} (origin : Originates kept past (.putData path data)) :
    ∃ collection document image, Pictures kept past collection document image ∧
      path = "Uploads/" ++ document ∧ image.jpegData = some data := by
  cases origin with
  | picture pictures encoded => exact ⟨_, _, _, pictures, rfl, encoded⟩

/-- The version that a located link names was uploaded by the creator of the posting. -/
theorem given_of_link
    (reached : (system rules).Reaches (system rules).anyStep (start rules) world)
    {past : Past (app rules)} {url : URL rules}
    (located : world.Answered past
      ⟨.downloadURL ("Uploads/" ++ document), (some url : Option (URL rules))⟩)
    (created : CreatedBy world.server document uid) :
    Given world document uid "Image" url.string := by
  have ledger := ledger_of_reachable reached
  obtain ⟨object, stored, path, rfl⟩ := ledger.located located
  obtain ⟨uploading, answered⟩ := ledger.uploaded stored
  obtain ⟨collection, target, image, pictures, same, -⟩ :=
    pictures_of_putData ((origins_of_reaches reached).answered answered)
  obtain rfl : document = target := by simpa using path.symm.trans same
  exact .pictured rfl rfl path (ledger.version stored)
    (actor_of_pictures reached pictures answered.occurs created) answered

/-- What a write gives to a posting was given to it by its creator. -/
theorem given_of_written
    (reached : (system rules).Reaches (system rules).anyStep (start rules) world)
    (created : CreatedBy world.server document uid)
    (written : (.upload, write) ∈ world.server.journal) (aimed : write.document = document)
    (value_eq : Fields.value key write.fields = some value) :
    Given world document uid key value := by
  have ledger := ledger_of_reachable reached
  have traced := traced_of_reachable reached
  obtain ⟨past, exchange, answered, writes⟩ := exists_applied ledger written
  have occurs := answered.occurs
  have origin := (origins_of_reaches reached).answered answered
  obtain ⟨request, response⟩ := exchange
  cases origin with
  | @post entry form user began pressed complete =>
      obtain ⟨name, rfl, same⟩ := Option.map_eq_some_iff.mp writes
      cases same
      obtain rfl : name = document := aimed
      have poster := CreatedBy.unique ledger ⟨form, user, rfl, written⟩ created
      exact .posted began pressed poster value_eq answered
  | refer began pressed =>
      cases response <;> cases writes
      obtain rfl := aimed
      by_cases named : key = "Ref"
      · subst named
        exact .referred rfl (by simpa [Write.fields, Write.document, Fields.value] using
          value_eq.symm)
      · simp [Write.fields, Fields.value, Ne.symm named] at value_eq
  | @update entry screen began pressed complete =>
      cases response <;> cases writes
      obtain rfl : screen.docPath = document := aimed
      obtain ⟨_, _, -, added⟩ := id created
      have named := addsNamed_of_reachable reached _ _ _ added
      have own := updatesOwn_of_reaches reached _ occurs screen began named
      exact .updated began pressed (CreatedBy.unique ledger own created) value_eq answered
  | @link past collection target image data url pictures encoded =>
      cases response <;> cases writes
      obtain rfl : target = document := aimed
      have located := traced _ _ _ occurs
      by_cases named : key = "Image"
      · subst named
        obtain rfl : url.string = value := by simpa [Write.fields, Fields.value] using value_eq
        exact given_of_link reached (.handled located) created
      · simp [Write.fields, Fields.value, Ne.symm named] at value_eq
  | delete => cases response <;> cases writes; cases value_eq
  | inform => cases response <;> cases writes
  | _ => cases writes

end Writes

/-- The posting decodes a document that its owner gave all of its fields. -/
structure Authentic (world : PostingsWorld rules) (document uid : String) (posting : Upload) :
    Prop where
  owner : CreatedBy world.server document uid
  decodes : ∃ data : Doc, posting = Upload.ofData data ∧
    ∀ key value, data[key]? = some value → Given world document uid key value

section Shown

variable {world : PostingsWorld rules} {document uid : String} {posting : Upload}

/-- The fields of a stored posting were given to it by its creator. -/
theorem given_of_replay
    (reached : (system rules).Reaches (system rules).anyStep (start rules) world)
    (created : CreatedBy world.server document uid) {moment : List (CollectionName × Write)}
    {data : Doc} {key value : String} (past : moment <:+ world.server.journal)
    (found : (Server.replay .upload moment)[document]? = some data)
    (present : data[key]? = some value) : Given world document uid key value := by
  rcases Server.written_of_replay found present with
    ⟨fields, added, same⟩ | ⟨fields, merge, set, same⟩
  · exact given_of_written reached created (past.mem added) rfl same
  · exact given_of_written reached created (past.mem set) rfl same

/-- What a posting held at a moment is authentic. -/
theorem authentic_of_replay
    (reached : (system rules).Reaches (system rules).anyStep (start rules) world)
    (created : CreatedBy world.server document uid) {moment : List (CollectionName × Write)}
    {data : Doc} (past : moment <:+ world.server.journal)
    (found : (Server.replay .upload moment)[document]? = some data) :
    Authentic world document uid (Upload.ofData data) :=
  ⟨created, data, rfl, fun _ _ present => given_of_replay reached created past found present⟩

/-- A posting that was stored is authentic. -/
theorem authentic_of_posted
    (reached : (system rules).Reaches (system rules).anyStep (start rules) world)
    (posted : Posted world.server posting) :
    ∃ document uid, Authentic world document uid posting := by
  obtain ⟨moment, document, data, past, found, rfl⟩ := posted
  obtain ⟨write, member, rfl⟩ := Server.exists_write_of_replay found
  obtain ⟨uid, created⟩ := exists_creator reached (past.mem member)
  exact ⟨write.document, uid, authentic_of_replay reached created past found⟩

/-- The user named in a posting is its creator. -/
theorem Given.user {value : String} (given : Given world document uid "User" value) :
    value = uid := by
  cases given with
  | posted began pressed poster entered answered =>
      rw [← poster]
      simpa [Fields.value, UploadMarketPlaceViewController.posting] using entered.symm
  | updated began pressed owner entered answered =>
      simp [Fields.value, UpdatePostingsViewController.changes] at entered
  | referred named => simp at named
  | pictured named => simp at named

/-- The user of a posting is its owner. -/
theorem Authentic.user (authentic : Authentic world document uid posting)
    (named : posting.user ≠ "") : posting.user = uid := by
  obtain ⟨-, data, rfl, given⟩ := authentic
  exact (given "User" _ (Doc.getElem?_of_text rfl named)).user

/-- The number of a posting was entered by its owner. -/
theorem Authentic.number (authentic : Authentic world document uid posting)
    (entered : posting.mNumber ≠ "") :
    Given world document uid "Mobile-Number" posting.mNumber := by
  obtain ⟨-, data, rfl, given⟩ := authentic
  exact given _ _ (Doc.getElem?_of_text rfl entered)

/-- What a screen shows of the postings is authentic. -/
structure ShowsAuthentic (world : PostingsWorld rules) (screen : Screen) : Prop where
  postings : ∀ posting ∈ screen.postings, ∃ document uid, Authentic world document uid posting
  /-- A Manage screen lists what its user has posted. -/
  managed : ∀ self : ManagePostingsViewController, screen = .manage self →
    ∀ posting ∈ self.manaageArray, ∃ document,
      Authentic world document self.currentUser.uid posting

/-- Loaded postings were stored. -/
theorem posted_of_shows {screen : Screen} (shows : Shows world.server screen)
    (member : posting ∈ screen.postings) : Posted world.server posting := by
  cases screen with
  | market self =>
      rcases List.mem_append.mp member with selected | loaded
      · exact shows.2 posting selected
      · exact shows.1 posting loaded
  | manage self => exact shows posting member
  | detail self => exact shows.1 posting member
  | _ => cases member

/-- In every run, whatever the screens show of the postings is authentic. -/
theorem shown_postings_are_authentic
    (reached : (system rules).Reaches (system rules).anyStep (start rules) world) :
    ∀ target ∈ world.objects, ShowsAuthentic world target.object := by
  intro target placed
  have postings : ∀ posting ∈ target.object.postings,
      ∃ document uid, Authentic world document uid posting := by
    intro posting member
    have shows : Shows world.server target.object :=
      (showing_of_reaches reached).objects target placed
    exact authentic_of_posted reached (posted_of_shows shows member)
  refine ⟨postings, fun self same posting member => ?_⟩
  rw [same] at postings
  obtain ⟨document, uid, authentic⟩ := postings posting member
  have valid : ManageOk ⟨False, False⟩ world.server self := by
    simpa [contract, ScreenOk, same] using (holds_of_reaches reached).objects target placed
  rw [valid.rows] at member
  obtain ⟨shown, listed, rfl⟩ := List.mem_map.mp member
  have user : (Upload.ofData shown.2).user = self.currentUser.uid := valid.owned shown listed
  have owner := authentic.user (user ▸ self.currentUser.uid_ne)
  exact ⟨document, user ▸ owner ▸ authentic⟩

/-- In every run, the message of a detail screen is about the posting it was opened for, and
it is addressed to the number which the poster has entered there, if the document has one: a
late picture link may leave a document without. -/
theorem message_reaches_poster
    (reached : (system rules).Reaches (system rules).anyStep (start rules) world) :
    ∀ target ∈ world.objects, ∀ self : DetailViewController, target.object = .detail self →
      self.loaded = true → ∃ posting document uid,
        self.array[self.index]? = some posting ∧ Authentic world document uid posting ∧
        (posting.mNumber ≠ "" →
          Given world document uid "Mobile-Number" posting.mNumber) ∧
        self.smsButton = ⟨"Hi, I would like to know more details about " ++ posting.title ++
          " in " ++ posting.loc, [posting.mNumber, "4379836554"]⟩ := by
  intro target placed self same loaded
  have shows : Shows world.server (.detail self) :=
    same ▸ (showing_of_reaches reached).objects target placed
  rcases shows.2 with unset | ⟨posting, found, title, location, number⟩
  · rw [loaded] at unset
    cases unset
  · obtain ⟨document, uid, authentic⟩ :=
      authentic_of_posted reached (shows.1 posting (List.mem_of_getElem? found))
    have message : self.smsButton = ⟨_, _⟩ := rfl
    rw [title, location, number] at message
    exact ⟨posting, document, uid, found, authentic, authentic.number, message⟩

/-- A published posting is listed for its user and opened from the market place. -/
def browsing : List (Event (app anyText) (firebase anyText)) :=
  publishing ++ managing ++ [.launch 3 .market, .input 3 .viewDidLoad, .serve 1 .ok, .reply 1,
    .input 3 (.didSelectRowAt 0)]

/-- A Manage list and a detail screen show the posting. -/
def browsed (world : PostingsWorld anyText) : Bool :=
  world.objects.any (fun target =>
    match target.object with
    | .manage self => !self.manaageArray.isEmpty
    | _ => false) &&
  world.objects.any fun target =>
    match target.object with
    | .detail self => self.loaded && self.contactNumber != ""
    | _ => false

theorem shown_postings_are_authentic_browsed :
    ∃ world, (system anyText).Reaches (system anyText).anyStep (start anyText) world ∧
      browsed world = true ∧ ∀ target ∈ world.objects, ShowsAuthentic world target.object := by
  obtain ⟨world, reached, shown⟩ := Machine.exists_reaches (m := system anyText)
    (system anyText).anyStep (start anyText) browsing browsed (by decide +kernel)
  exact ⟨world, reached, shown, shown_postings_are_authentic reached⟩

theorem message_reaches_poster_browsed :
    ∃ world, (system anyText).Reaches (system anyText).anyStep (start anyText) world ∧
      ∃ target ∈ world.objects, ∃ (self : DetailViewController) (posting : Upload)
        (document uid : String), target.object = .detail self ∧
          Given world document uid "Mobile-Number" posting.mNumber ∧
          self.smsButton.recipients = [posting.mNumber, "4379836554"] := by
  obtain ⟨world, reached, shown⟩ := Machine.exists_reaches (m := system anyText)
    (system anyText).anyStep (start anyText) browsing browsed (by decide +kernel)
  obtain ⟨target, placed, loaded⟩ := List.any_eq_true.mp (Bool.and_eq_true_iff.mp shown).2
  cases same : target.object with
  | detail self =>
      rw [same] at loaded
      obtain ⟨loaded, numbered⟩ := Bool.and_eq_true_iff.mp loaded
      obtain ⟨posting, document, uid, -, authentic, entered, message⟩ :=
        message_reaches_poster reached target placed self same loaded
      have number : self.contactNumber = posting.mNumber :=
        congrArg (fun message => message.recipients.headD "") message
      exact ⟨world, reached, target, placed, self, posting, document, uid, same,
        entered (number ▸ bne_iff_ne.mp numbered),
        congrArg MFMessageComposeViewController.recipients message⟩
  | _ => rw [same] at loaded; cases loaded

end Shown

end Postings

end Gbc

