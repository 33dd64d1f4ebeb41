import Gbc.Market.Opening

/-!
# What the lists show was stored

Every posting on a list or a detail screen, and every item of the information list, is
the decoding of a document that the collection held at some moment. A detail screen
composes its message from the labels of the posting it was opened for.
-/

namespace Gbc

open Callback Handler

variable {rules : URLRules}

/-- `MFMessageComposeViewController`, by what it is presented with. -/
structure MFMessageComposeViewController where
  body : String
  recipients : List String

namespace DetailViewController

/-- `smsButton`: the message that it presents. -/
def smsButton (self : DetailViewController) : MFMessageComposeViewController where
  body := "Hi, I would like to know more details about " ++ self.titleDisplay ++ " in " ++
    self.location
  recipients := [self.contactNumber, "4379836554"]

/-- The labels are those of the posting at `index`, or `viewDidLoad` has not set them. -/
def Labelled (self : DetailViewController) : Prop :=
  self.loaded = false ∨ ∃ posting, self.array[self.index]? = some posting ∧
    self.titleDisplay = posting.title ∧ self.location = posting.loc ∧
    self.contactNumber = posting.mNumber

end DetailViewController

namespace Postings

/-- The posting decodes a document as it was stored at some moment. -/
def Posted (server : Server rules) (posting : Upload) : Prop :=
  ∃ (moment : List (CollectionName × Write)) (document : String) (data : Doc),
    moment <:+ server.journal ∧ (Server.replay .upload moment)[document]? = some data ∧
    posting = Upload.ofData data

/-- The item decodes a document as it was stored at some moment. -/
def Informed (server : Server rules) (item : Info) : Prop :=
  ∃ (moment : List (CollectionName × Write)) (document : String) (data : Doc),
    moment <:+ server.journal ∧ (Server.replay .infoUpload moment)[document]? = some data ∧
    item = Info.ofData data

/-- The documents were stored at some moment. -/
def Documented (server : Server rules) (collection : CollectionName) (documents : Snapshot) :
    Prop :=
  ∀ document ∈ documents, ∃ moment, moment <:+ server.journal ∧
    (Server.replay collection moment)[document.1]? = some document.2

/-- What a screen shows was stored. -/
def Shows (server : Server rules) : Screen → Prop
  | .market self => (∀ posting ∈ self.uploadArray, Posted server posting) ∧
      ∀ posting ∈ self.postingArray, Posted server posting
  | .manage self => ∀ posting ∈ self.manaageArray, Posted server posting
  | .detail self => (∀ posting ∈ self.array, Posted server posting) ∧ self.Labelled
  | .info self => ∀ item ∈ self.infoArray, Informed server item
  | _ => True

/-- The screens show what was stored, and loads deliver it. -/
def showing (rules : URLRules) : Contract (app rules) (firebase rules) where
  Evolves server later := server.journal <:+ later.journal
  Server _ := True
  Object := Shows
  Request _ _ _ := True
  Response
    | server, _, .getDocuments collection, (snapshot : Option Snapshot) =>
        ∀ documents, snapshot = some documents → Documented server collection documents
    | _, _, _, _ => True
  Fault _ := True
  InputGuard _ _ := True
  ServeGuard _ _ _ _ := True
  ReplyGuard _ _ _ _ := True

section Evolution

variable {server later : Server rules} (evolves : server.journal <:+ later.journal)

include evolves

theorem Posted.evolve {posting : Upload} (posted : Posted server posting) :
    Posted later posting :=
  let ⟨moment, document, data, past, rest⟩ := posted
  ⟨moment, document, data, past.trans evolves, rest⟩

theorem Informed.evolve {item : Info} (informed : Informed server item) :
    Informed later item :=
  let ⟨moment, document, data, past, rest⟩ := informed
  ⟨moment, document, data, past.trans evolves, rest⟩

theorem Documented.evolve {collection : CollectionName} {documents : Snapshot}
    (stored : Documented server collection documents) : Documented later collection documents :=
  fun document member =>
    let ⟨moment, past, found⟩ := stored document member
    ⟨moment, past.trans evolves, found⟩

theorem Shows.evolve {screen : Screen} (shows : Shows server screen) : Shows later screen := by
  cases screen with
  | market self =>
      exact ⟨fun posting member => (shows.1 posting member).evolve evolves,
        fun posting member => (shows.2 posting member).evolve evolves⟩
  | manage self => exact fun posting member => Posted.evolve evolves (shows posting member)
  | detail self =>
      exact ⟨fun posting member => (shows.1 posting member).evolve evolves, shows.2⟩
  | info self => exact fun item member => Informed.evolve evolves (shows item member)
  | _ => trivial

end Evolution

section Handlers

variable {Self : Type} [Controller Screen Self] [LawfulController Screen Self]
  {server : Server rules} {past : Past (app rules)} {screen : Screen}

/-- An assignment to properties that no list is decoded into. -/
theorem assign_showing {change : Self → Self} {next : Handler rules} (valid : Shows server screen)
    (keeps : ∀ self : Self, Shows server (Controller.screen self) →
      Shows server (Controller.screen (change self)))
    (rest : ∀ changed : Screen, Shows server changed →
      (showing rules).Safe server past next changed) :
    (showing rules).Safe server past (assign change next) screen :=
  safe_assign valid keeps rest

/-- An operation whose completion handler keeps what the screens show. -/
theorem call_showing {request : (remote rules).Request}
    {completion : (remote rules).Response request → Handler rules} {next : Handler rules}
    (later : ∀ response (server : Server rules) past (target : Screen), Shows server target →
      (showing rules).Safe server past (completion response) target)
    (rest : (showing rules).Safe server past next screen) :
    (showing rules).Safe server past (.call request completion next) screen :=
  ⟨trivial, fun server response target _ _ _ valid _ => later response server _ target valid,
    rest⟩

theorem unwrap_showing {Value : Type} {value : Option Value} {fault : Fault}
    {next : Value → Handler rules}
    (rest : ∀ found, value = some found → (showing rules).Safe server past (next found) screen) :
    (showing rules).Safe server past (.unwrap value fault next) screen :=
  Contract.safe_unwrap.mpr ⟨fun _ => trivial, rest⟩

theorem document_showing {path : String} {next : Handler rules}
    (rest : (showing rules).Safe server past next screen) :
    (showing rules).Safe server past (document path next) screen :=
  safe_document.mpr ⟨fun _ => trivial, fun _ => rest⟩

theorem fire_showing {request : Request rules} {next : Handler rules}
    (rest : (showing rules).Safe server past next screen) :
    (showing rules).Safe server past (.fire request next) screen :=
  Contract.safe_fire.mpr ⟨trivial, rest⟩

theorem uploadPicture_showing {collection : CollectionName} {title refId : String}
    {image : UIImage} {next : Handler rules}
    (rest : (showing rules).Safe server past next screen) :
    (showing rules).Safe server past (uploadPicture collection title image refId next)
      screen := by
  unfold uploadPicture
  split
  · exact rest
  · refine call_showing (fun (uploaded : Bool) server past target valid => ?_) rest
    cases uploaded with
    | false => trivial
    | true =>
        refine call_showing (fun (url : Option (URL rules)) server past target valid => ?_) trivial
        exact document_showing (unwrap_showing fun _ _ => fire_showing trivial)

theorem uploadButton_showing {currentUser : Option User} (valid : Shows server screen) :
    (showing rules).Safe server past (UploadMarketPlaceViewController.uploadButton currentUser)
      screen := by
  refine safe_this.mpr fun self _ => ?_
  split
  · trivial
  · refine assign_showing valid (fun _ _ => trivial) fun changed _ => ?_
    refine unwrap_showing fun user _ => call_showing ?_ trivial
    rintro (_ | documentID) server past target valid
    · trivial
    · exact safe_this.mpr fun now _ => unwrap_showing fun image _ =>
        uploadPicture_showing (document_showing (fire_showing trivial))

theorem submitInfoButton_showing :
    (showing rules).Safe server past AddInfoViewController.submitInfoButton screen := by
  refine safe_this.mpr fun self _ => ?_
  split
  · refine call_showing ?_ trivial
    rintro (_ | documentID) server past target valid
    · trivial
    · exact safe_this.mpr fun now _ => unwrap_showing fun image _ => uploadPicture_showing trivial
  · trivial

theorem updateButton_showing (valid : Shows server screen) :
    (showing rules).Safe server past UpdatePostingsViewController.updateButton screen := by
  refine safe_this.mpr fun self _ => ?_
  split
  · trivial
  · refine assign_showing valid (fun _ _ => trivial) fun changed _ => ?_
    exact document_showing (fire_showing (unwrap_showing fun _ _ =>
      uploadPicture_showing trivial))

theorem confirmDelete_showing :
    (showing rules).Safe server past UpdatePostingsViewController.confirmDelete screen :=
  safe_this.mpr fun _ _ => document_showing (fire_showing trivial)

theorem fill_showing (documents : Snapshot) (valid : Shows server screen) :
    (showing rules).Safe server past (UpdatePostingsViewController.fill documents) screen := by
  induction documents generalizing screen with
  | nil => trivial
  | cons document documents inductionHypothesis =>
      refine safe_this.mpr fun self _ => ?_
      split
      · refine unwrap_showing fun image _ => unwrap_showing fun url _ => call_showing ?_ ?_
        · intro picture server past target valid
          exact assign_showing valid (fun _ _ => trivial) fun _ _ => trivial
        · exact assign_showing valid (fun _ _ => trivial) fun _ => inductionHypothesis
      · exact inductionHypothesis valid

theorem updateLoad_showing :
    (showing rules).Safe server past UpdatePostingsViewController.viewDidLoad screen := by
  refine call_showing ?_ trivial
  rintro (_ | documents) server past target valid
  · trivial
  · exact fill_showing documents valid

/-- The postings decoded from stored documents. -/
theorem Documented.posted {documents : Snapshot} (stored : Documented server .upload documents)
    (posting : Upload)
    (member : posting ∈ documents.map fun document => Upload.ofData document.2) :
    Posted server posting := by
  obtain ⟨document, delivered, rfl⟩ := List.mem_map.mp member
  obtain ⟨moment, past, found⟩ := stored document delivered
  exact ⟨moment, document.1, document.2, past, found, rfl⟩

/-- The items decoded from stored documents. -/
theorem Documented.informed {documents : Snapshot}
    (stored : Documented server .infoUpload documents) (item : Info)
    (member : item ∈ documents.map fun document => Info.ofData document.2) :
    Informed server item := by
  obtain ⟨document, delivered, rfl⟩ := List.mem_map.mp member
  obtain ⟨moment, past, found⟩ := stored document delivered
  exact ⟨moment, document.1, document.2, past, found, rfl⟩

theorem marketLoad_showing :
    (showing rules).Safe server past MarketPlaceViewController.loadFireBaseData screen := by
  refine ⟨trivial, ?_, trivial⟩
  rintro later (_ | documents) target _ _ stored valid _
  · trivial
  · have posted := Documented.posted (stored documents rfl)
    exact assign_showing valid (fun _ _ => ⟨posted, posted⟩) fun _ _ => trivial

/-- Every segment selects from the postings that were loaded. -/
theorem segmentChanged_shows {self : MarketPlaceViewController}
    (valid : Shows server (.market self)) : Shows server (.market self.segmentChanged) := by
  have selected : ∀ name posting,
      posting ∈ MarketPlaceViewController.filterArray self.uploadArray name →
      Posted server posting :=
    fun name posting member => valid.1 posting (List.mem_filter.mp member).1
  unfold MarketPlaceViewController.segmentChanged
  split
  · exact ⟨valid.1, valid.1⟩
  · split
    · exact ⟨valid.1, selected "Job"⟩
    · split
      · exact ⟨valid.1, selected "Rental"⟩
      · exact valid

theorem marketCell_showing {row cell : Nat} (valid : Shows server screen) :
    (showing rules).Safe server past (MarketPlaceViewController.cellForRowAt row cell)
      screen := by
  refine safe_this.mpr fun self shown => ?_
  split
  · refine unwrap_showing fun posting _ =>
      assign_showing valid (fun _ kept => kept) fun changed valid => ?_
    refine unwrap_showing fun url _ => call_showing ?_ ?_
    · intro image server past target valid
      exact assign_showing valid (fun _ kept => kept) fun _ _ => trivial
    · exact assign_showing valid (fun _ kept => kept) fun _ _ => trivial
  · trivial

/-- A detail screen takes its labels from the posting it was opened for. -/
theorem detailLoad_showing {self : DetailViewController}
    (posted : ∀ posting ∈ self.array, Posted server posting) :
    (showing rules).Safe server past DetailViewController.viewDidLoad (.detail self) := by
  refine safe_this.mpr fun now shown => ?_
  cases shown
  refine unwrap_showing fun posting found => unwrap_showing fun url _ => ?_
  refine call_showing ?_ ⟨⟨posted, .inr ⟨posting, found, rfl, rfl, rfl⟩⟩, trivial⟩
  intro image server past target valid
  exact assign_showing valid (fun _ kept => kept) fun _ _ => trivial

theorem marketTap_showing {row : Nat} (valid : Shows server screen) :
    (showing rules).Safe server past (MarketPlaceViewController.didSelectRowAt row) screen := by
  refine safe_this.mpr fun self shown => ?_
  obtain rfl := LawfulController.eq_screen shown
  split
  · refine assign_showing valid (fun _ kept => kept) fun changed _ =>
      ⟨⟨valid.2, .inl rfl⟩, detailLoad_showing valid.2⟩
  · trivial

theorem manageLoad_showing :
    (showing rules).Safe server past ManagePostingsViewController.loadFireBaseData screen := by
  refine ⟨trivial, ?_, trivial⟩
  rintro later (_ | documents) target _ _ stored valid _
  · trivial
  · refine assign_showing valid (fun self _ => Documented.posted ?_) fun _ _ => trivial
    exact fun document owned => stored documents rfl document (List.mem_filter.mp owned).1

theorem manageCell_showing {row cell : Nat} (valid : Shows server screen) :
    (showing rules).Safe server past (ManagePostingsViewController.cellForRowAt row cell)
      screen := by
  refine safe_this.mpr fun self shown => ?_
  split
  · refine unwrap_showing fun posting _ =>
      assign_showing valid (fun _ kept => kept) fun changed valid => ?_
    refine unwrap_showing fun url _ => call_showing ?_ ?_
    · intro image server past target valid
      exact assign_showing valid (fun _ kept => kept) fun _ _ => trivial
    · exact assign_showing valid (fun _ kept => kept) fun _ _ => trivial
  · trivial

theorem manageTap_showing {row : Nat} (valid : Shows server screen) :
    (showing rules).Safe server past (ManagePostingsViewController.didSelectRowAt row)
      screen := by
  refine safe_this.mpr fun self shown => ?_
  split
  · exact unwrap_showing fun posting _ => assign_showing valid (fun _ kept => kept)
      fun changed _ => ⟨trivial, updateLoad_showing⟩
  · trivial

theorem infoLoad_showing :
    (showing rules).Safe server past InformationViewController.loadData screen := by
  refine ⟨trivial, ?_, trivial⟩
  rintro later (_ | documents) target _ _ stored valid _
  · trivial
  · have informed := Documented.informed (stored documents rfl)
    exact assign_showing valid (fun _ _ => informed) fun _ _ => trivial

theorem infoCell_showing {row cell : Nat} (valid : Shows server screen) :
    (showing rules).Safe server past (InformationViewController.cellForRowAt row cell)
      screen := by
  refine safe_this.mpr fun self shown => ?_
  split
  · refine unwrap_showing fun item _ =>
      assign_showing valid (fun _ kept => kept) fun changed valid => ?_
    refine unwrap_showing fun url _ => call_showing ?_ trivial
    intro image server past target valid
    refine assign_showing valid (fun _ kept => kept) fun changed valid => ?_
    exact assign_showing valid (fun _ kept => kept) fun _ _ => trivial
  · trivial

theorem infoTap_showing {row : Nat} (valid : Shows server screen) :
    (showing rules).Safe server past (InformationViewController.didSelectRowAt row) screen := by
  refine safe_this.mpr fun self shown => ?_
  split
  · refine unwrap_showing fun item _ =>
      assign_showing valid (fun _ kept => kept) fun changed _ => ⟨trivial, ?_⟩
    exact assign_showing trivial (fun _ _ => trivial) fun _ _ => trivial
  · trivial

/-- Every input keeps what the screens show. -/
theorem handle_showing {input : Input} (valid : Shows server screen) :
    (showing rules).Safe server past (screen.handle input) screen := by
  cases screen with
  | upload self =>
      cases input with
      | uploadButton currentUser => exact uploadButton_showing valid
      | editTexts texts => exact assign_showing valid (fun _ _ => trivial) fun _ _ => trivial
      | pick image => exact assign_showing valid (fun _ _ => trivial) fun _ _ => trivial
      | selectSegment index =>
          simp only [Screen.handle, UploadMarketPlaceViewController.handle]
          split
          · exact assign_showing valid (fun _ _ => trivial) fun _ _ => trivial
          · trivial
      | _ => trivial
  | market self =>
      cases input with
      | viewDidLoad => exact marketLoad_showing
      | viewWillAppear => exact marketLoad_showing
      | cellForRowAt row cell => exact marketCell_showing valid
      | manageButton currentUser => cases currentUser <;> trivial
      | didSelectRowAt row => exact marketTap_showing valid
      | selectSegment index =>
          simp only [Screen.handle, MarketPlaceViewController.handle]
          split
          · refine assign_showing valid (fun now kept => ?_) fun _ _ => trivial
            apply segmentChanged_shows
            exact kept
          · trivial
      | _ => trivial
  | manage self =>
      cases input with
      | viewDidLoad => exact manageLoad_showing
      | viewWillAppear => exact manageLoad_showing
      | cellForRowAt row cell => exact manageCell_showing valid
      | didSelectRowAt row => exact manageTap_showing valid
      | _ => trivial
  | update self =>
      cases input with
      | updateButton => exact updateButton_showing valid
      | confirmDelete => exact confirmDelete_showing
      | editTexts texts => exact assign_showing valid (fun _ _ => trivial) fun _ _ => trivial
      | pick image => exact assign_showing valid (fun _ _ => trivial) fun _ _ => trivial
      | selectSegment index =>
          simp only [Screen.handle, UpdatePostingsViewController.handle]
          split
          · exact assign_showing valid (fun _ _ => trivial) fun _ _ => trivial
          · trivial
      | _ => trivial
  | addInfo self =>
      cases input with
      | submitInfoButton => exact submitInfoButton_showing
      | editInfo titleInfo infoView =>
          exact assign_showing valid (fun _ _ => trivial) fun _ _ => trivial
      | pick image => exact assign_showing valid (fun _ _ => trivial) fun _ _ => trivial
      | _ => trivial
  | info self =>
      cases input with
      | viewDidLoad => exact infoLoad_showing
      | cellForRowAt row cell => exact infoCell_showing valid
      | didSelectRowAt row => exact infoTap_showing valid
      | _ => trivial
  | detail self => trivial
  | detailedInfo self => trivial

end Handlers

/-- What is delivered is what the collection holds. -/
theorem documented_listed (server : Server rules) (collection : CollectionName) :
    Documented server collection (server.documents collection).toList :=
  fun _ member => ⟨server.journal, List.suffix_refl _,
    Std.ExtTreeMap.mem_toList_iff_getElem?_eq_some.mp member⟩

theorem showing_sound (rules : URLRules) : (showing rules).Sound where
  refl _ := List.suffix_refl _
  trans := List.IsSuffix.trans
  object evolves valid := Shows.evolve evolves valid
  request _ _ := trivial
  response := by
    intro server later past request response evolves valid
    cases request with
    | getDocuments collection => exact fun documents same => (valid documents same).evolve evolves
    | _ => trivial
  root _ root _ := by
    cases root with
    | market => exact ⟨nofun, nofun⟩
    | manage currentUser => exact nofun
    | info => exact nofun
    | _ => trivial
  input _ _ _ _ _ valid _ _ _ _ := handle_showing valid
  serve := by
    intro server past request choice later response _ _ _ serves
    have served := Server.served_of_serve serves
    refine ⟨served.suffix, trivial, ?_⟩
    cases served with
    | @listed collection =>
        rintro documents same
        cases same
        exact documented_listed server collection
    | listFailed => exact nofun
    | _ => trivial

/-- In every run, the screens show what was stored. -/
theorem showing_of_reaches {world : PostingsWorld rules}
    {test : PostingsWorld rules → Event (app rules) (firebase rules) → Bool}
    (reached : (system rules).Reaches test (start rules) world) :
    (showing rules).Holds world := by
  refine Contract.Holds.reachable (showing_sound rules)
    (Contract.holds_initial trivial) (reached.weaken fun state event _ => ?_)
  cases event <;> simp [Contract.guard, showing]

end Postings

end Gbc
