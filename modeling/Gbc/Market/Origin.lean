import Gbc.Market.App

/-!
# Where each request comes from

`Originates` lists every way in which a handler of the two tabs issues a request,
with the input its chain of handlers began with and the answers it awaited since.
The rest of the development follows a document through its flow by this relation
and does not look into the handlers again.
-/

namespace Gbc

open Callback Handler

variable {rules : URLRules}

namespace Postings

/-- A handler with this past uploads `image` as the picture of `document`. The two
publishing flows read the picture when `addDocument` is answered; under `kept` it
is the one shown at the press. -/
inductive Pictures (kept : Prop) :
    Past (app rules) → CollectionName → String → UIImage → Prop where
  | posted {entry : Entry (app rules)} {form : UploadMarketPlaceViewController} {user : User}
      {document : String} {image : UIImage} (began : entry.object = .upload form)
      (pressed : entry.input = .uploadButton (some user))
      (shown : kept → form.imageView = some image) :
      Pictures kept
        ⟨entry, [⟨.addDocument .upload (form.posting user), (some document : Option String)⟩]⟩
        .upload document image
  | informed {entry : Entry (app rules)} {form : AddInfoViewController} {document : String}
      {image : UIImage} (began : entry.object = .addInfo form)
      (pressed : entry.input = .submitInfoButton) (shown : kept → form.image = some image) :
      Pictures kept
        ⟨entry, [⟨.addDocument .infoUpload form.item, (some document : Option String)⟩]⟩
        .infoUpload document image
  | updated {entry : Entry (app rules)} {screen : UpdatePostingsViewController} {image : UIImage}
      (began : entry.object = .update screen) (pressed : entry.input = .updateButton)
      (complete : screen.texts.incomplete screen.segmentControl = false)
      (shown : screen.imageView = some image) :
      Pictures kept ⟨entry, []⟩ .upload screen.docPath image

/-- The past of the handler that runs after a picture has been uploaded. -/
def afterUpload (past : Past (app rules)) (document : String) (data : ImageData) :
    Past (app rules) :=
  past.answered (.putData ("Uploads/" ++ document) data) true

/-- The past of the handler that runs after an uploaded picture has been located. -/
def afterLookup (past : Past (app rules)) (document : String) (data : ImageData) (url : URL rules) :
    Past (app rules) :=
  (afterUpload past document data).answered (.downloadURL ("Uploads/" ++ document))
    (some url : Option (URL rules))

/-- How the handlers of the two tabs issue their requests. -/
inductive Originates (kept : Prop) : Past (app rules) → Request rules → Prop where
  | load {past : Past (app rules)} {collection : CollectionName} :
      Originates kept past (.getDocuments collection)
  | display {past : Past (app rules)} {url : URL rules} : Originates kept past (.loadFrom url)
  | post {entry : Entry (app rules)} {form : UploadMarketPlaceViewController} {user : User}
      (began : entry.object = .upload form) (pressed : entry.input = .uploadButton (some user))
      (complete : form.texts.incomplete form.segment = false) :
      Originates kept ⟨entry, []⟩ (.addDocument .upload (form.posting user))
  | inform {entry : Entry (app rules)} {form : AddInfoViewController}
      (began : entry.object = .addInfo form) (pressed : entry.input = .submitInfoButton) :
      Originates kept ⟨entry, []⟩ (.addDocument .infoUpload form.item)
  | refer {entry : Entry (app rules)} {form : UploadMarketPlaceViewController} {user : User}
      {document : String} (began : entry.object = .upload form)
      (pressed : entry.input = .uploadButton (some user)) :
      Originates kept
        ⟨entry, [⟨.addDocument .upload (form.posting user), (some document : Option String)⟩]⟩
        (.setData .upload document [("Ref", document)] true)
  | update {entry : Entry (app rules)} {screen : UpdatePostingsViewController}
      (began : entry.object = .update screen) (pressed : entry.input = .updateButton)
      (complete : screen.texts.incomplete screen.segmentControl = false) :
      Originates kept ⟨entry, []⟩ (.setData .upload screen.docPath screen.changes true)
  | delete {entry : Entry (app rules)} {screen : UpdatePostingsViewController}
      (began : entry.object = .update screen) (pressed : entry.input = .confirmDelete) :
      Originates kept ⟨entry, []⟩ (.delete .upload screen.docPath)
  | picture {past : Past (app rules)} {collection : CollectionName} {document : String}
      {image : UIImage} {data : ImageData} (pictures : Pictures kept past collection document image)
      (encoded : image.jpegData = some data) :
      Originates kept past (.putData ("Uploads/" ++ document) data)
  | lookup {past : Past (app rules)} {collection : CollectionName} {document : String}
      {image : UIImage} {data : ImageData} (pictures : Pictures kept past collection document image)
      (encoded : image.jpegData = some data) :
      Originates kept (afterUpload past document data) (.downloadURL ("Uploads/" ++ document))
  | link {past : Past (app rules)} {collection : CollectionName} {document : String}
      {image : UIImage} {data : ImageData} {url : URL rules}
      (pictures : Pictures kept past collection document image)
      (encoded : image.jpegData = some data) :
      Originates kept (afterLookup past document data url)
        (.setData collection document [("Image", url.string)] true)

/-- The form that awaited `addDocument` still shows the picture it was submitted with. -/
def pictureKept (screen : Screen) (past : Past (app rules)) : Request rules → Bool
  | .addDocument _ _ =>
      match past.entry.object, screen with
      | .upload form, .upload self => self.imageView == form.imageView
      | .addInfo form, .addInfo self => self.image == form.image
      | _, _ => true
  | _ => true

/-- Every request originates as `Originates` says. -/
def origins (rules : URLRules) (kept : Prop) : Contract (app rules) (firebase rules) where
  Evolves _ _ := True
  Server _ := True
  Object _ _ := True
  Request _ past request := Originates kept past request
  Response _ _ _ _ := True
  Fault _ := True
  InputGuard _ _ := True
  ServeGuard _ _ _ _ := True
  ReplyGuard screen past request _ := kept → pictureKept screen past request = true

variable {kept : Prop} {server : Server rules} {past : Past (app rules)}

section Writers

theorem uploadPicture_originates {collection : CollectionName} {title : String} {image : UIImage}
    {refId : String} {next : Handler rules} {object : Screen}
    (pictures : Pictures kept past collection refId image)
    (rest : (origins rules kept).Safe server past next object) :
    (origins rules kept).Safe server past (uploadPicture collection title image refId next)
      object := by
  unfold uploadPicture
  cases encoded : image.jpegData with
  | none => exact rest
  | some data =>
      refine ⟨.picture pictures encoded, ?_, rest⟩
      intro _ success _ _ _ _ _ _
      cases success with
      | false => trivial
      | true =>
          refine ⟨.lookup pictures encoded, ?_, trivial⟩
          intro _ url _ _ _ _ _ _
          refine safe_document.mpr ⟨fun _ => trivial, fun _ => ?_⟩
          refine Contract.safe_unwrap.mpr ⟨fun _ => trivial, ?_⟩
          rintro url rfl
          exact Contract.safe_fire.mpr ⟨.link pictures encoded, trivial⟩

theorem uploadButton_originates {entry : Entry (app rules)} {currentUser : Option User}
    {self : UploadMarketPlaceViewController} (began : entry.object = .upload self)
    (pressed : entry.input = .uploadButton currentUser) :
    (origins rules kept).Safe server ⟨entry, []⟩
      (UploadMarketPlaceViewController.uploadButton currentUser) (.upload self) := by
  simp only [UploadMarketPlaceViewController.uploadButton, this, Contract.Safe,
    Controller.ofScreen]
  split
  · trivial
  · rename_i complete
    refine ⟨trivial, ?_⟩
    cases currentUser with
    | none => trivial
    | some user =>
        refine ⟨.post began pressed (Bool.eq_false_iff.mpr complete), ?_, trivial⟩
        intro _ ref target _ _ _ _ (same : kept → pictureKept target _ _ = true)
        cases ref with
        | none => trivial
        | some documentID =>
            cases target with
            | upload now =>
                show (origins rules kept).Safe _ _ (.unwrap now.imageView .imageView _) _
                cases shown : now.imageView with
                | none => trivial
                | some image =>
                    refine uploadPicture_originates (.posted began pressed ?_) ?_
                    · intro keeps
                      have unchanged := same keeps
                      simp only [pictureKept, began, beq_iff_eq] at unchanged
                      exact unchanged ▸ shown
                    · exact safe_document.mpr ⟨fun _ => trivial, fun _ =>
                        Contract.safe_fire.mpr ⟨.refer began pressed, trivial⟩⟩
            | _ => trivial

theorem submitInfoButton_originates {entry : Entry (app rules)} {self : AddInfoViewController}
    (began : entry.object = .addInfo self) (pressed : entry.input = .submitInfoButton) :
    (origins rules kept).Safe server ⟨entry, []⟩ AddInfoViewController.submitInfoButton
      (.addInfo self) := by
  simp only [AddInfoViewController.submitInfoButton, this, Contract.Safe, Controller.ofScreen]
  split
  · refine ⟨.inform began pressed, ?_, trivial⟩
    intro _ ref target _ _ _ _ (same : kept → pictureKept target _ _ = true)
    cases ref with
    | none => trivial
    | some documentID =>
        cases target with
        | addInfo now =>
            show (origins rules kept).Safe _ _ (.unwrap now.image .imageView _) _
            cases shown : now.image with
            | none => trivial
            | some image =>
                refine uploadPicture_originates (.informed began pressed ?_) trivial
                intro keeps
                have unchanged := same keeps
                simp only [pictureKept, began, beq_iff_eq] at unchanged
                exact unchanged ▸ shown
        | _ => trivial
  · trivial

theorem updateButton_originates {entry : Entry (app rules)} {self : UpdatePostingsViewController}
    (began : entry.object = .update self) (pressed : entry.input = .updateButton) :
    (origins rules kept).Safe server ⟨entry, []⟩ UpdatePostingsViewController.updateButton
      (.update self) := by
  simp only [UpdatePostingsViewController.updateButton, this, Contract.Safe, Controller.ofScreen]
  split
  · trivial
  · rename_i complete
    refine ⟨trivial, ?_⟩
    have valid := Bool.eq_false_iff.mpr complete
    refine safe_document.mpr ⟨fun _ => trivial, fun _ => ?_⟩
    refine Contract.safe_fire.mpr ⟨.update began pressed valid, ?_⟩
    refine Contract.safe_unwrap.mpr ⟨fun _ => trivial, fun image shown => ?_⟩
    exact uploadPicture_originates (.updated began pressed valid shown) trivial

theorem confirmDelete_originates {entry : Entry (app rules)} {self : UpdatePostingsViewController}
    (began : entry.object = .update self) (pressed : entry.input = .confirmDelete) :
    (origins rules kept).Safe server ⟨entry, []⟩ UpdatePostingsViewController.confirmDelete
      (.update self) := by
  simp only [UpdatePostingsViewController.confirmDelete, this, Contract.Safe,
    Controller.ofScreen]
  exact safe_document.mpr ⟨fun _ => trivial, fun _ =>
    Contract.safe_fire.mpr ⟨.delete began pressed, trivial⟩⟩

end Writers

section Readers

theorem fill_originates {documents : Snapshot} {object : Screen} :
    (origins rules kept).Safe server past (UpdatePostingsViewController.fill documents)
      object := by
  induction documents generalizing object with
  | nil => trivial
  | cons document documents inductionHypothesis =>
      obtain ⟨documentID, data⟩ := document
      simp only [UpdatePostingsViewController.fill, this, Contract.Safe]
      split
      · split
        · cases data["Image"]? with
          | none => trivial
          | some image =>
              rw [Code.unwrap_some]
              cases URL.ofString rules image with
              | none => trivial
              | some url =>
                  exact ⟨.display, fun _ _ _ _ _ _ _ _ => ⟨trivial, trivial⟩, trivial,
                    inductionHypothesis⟩
        · exact inductionHypothesis
      · trivial

theorem updateLoad_originates {object : Screen} :
    (origins rules kept).Safe server past UpdatePostingsViewController.loadFireBaseData
      object := by
  refine ⟨.load, ?_, trivial⟩
  intro _ snapshot _ _ _ _ _ _
  cases snapshot with
  | none => trivial
  | some documents => exact fill_originates

/-- A load whose completion only assigns to its screen. -/
theorem load_originates {collection : CollectionName} {object : Screen}
    {completion : Option Snapshot → Handler rules}
    (assigns : ∀ snapshot (later : Server rules) (past' : Past (app rules)) target,
      (origins rules kept).Safe later past' (completion snapshot) target) :
    (origins rules kept).Safe server past (.call (.getDocuments collection) completion .done)
      object :=
  ⟨.load, fun _ _ _ _ _ _ _ _ => assigns _ _ _ _, trivial⟩

theorem marketLoad_originates {object : Screen} :
    (origins rules kept).Safe server past MarketPlaceViewController.loadFireBaseData object := by
  refine load_originates fun snapshot _ _ _ => ?_
  cases snapshot with
  | none => trivial
  | some documents => exact ⟨trivial, trivial⟩

theorem manageLoad_originates {object : Screen} :
    (origins rules kept).Safe server past ManagePostingsViewController.loadFireBaseData
      object := by
  refine load_originates fun snapshot _ _ _ => ?_
  cases snapshot with
  | none => trivial
  | some documents => exact ⟨trivial, trivial⟩

theorem infoLoad_originates {object : Screen} :
    (origins rules kept).Safe server past InformationViewController.loadData object := by
  refine load_originates fun snapshot _ _ _ => ?_
  cases snapshot with
  | none => trivial
  | some documents => exact ⟨trivial, trivial⟩

theorem marketCell_originates {self : MarketPlaceViewController} {row cell : Nat} :
    (origins rules kept).Safe server past (MarketPlaceViewController.cellForRowAt row cell)
      (.market self) := by
  simp only [MarketPlaceViewController.cellForRowAt, this, Contract.Safe, Controller.ofScreen]
  split
  · cases self.postingArray[row]? with
    | none => trivial
    | some posting =>
        refine ⟨trivial, ?_⟩
        cases URL.ofString rules posting.uimage with
        | none => trivial
        | some url =>
            exact ⟨.display, fun _ _ _ _ _ _ _ _ => ⟨trivial, trivial⟩, trivial, trivial⟩
  · trivial

theorem manageCell_originates {self : ManagePostingsViewController} {row cell : Nat} :
    (origins rules kept).Safe server past (ManagePostingsViewController.cellForRowAt row cell)
      (.manage self) := by
  simp only [ManagePostingsViewController.cellForRowAt, this, Contract.Safe,
    Controller.ofScreen]
  split
  · cases self.manaageArray[row]? with
    | none => trivial
    | some posting =>
        refine ⟨trivial, ?_⟩
        cases URL.ofString rules posting.uimage with
        | none => trivial
        | some url =>
            exact ⟨.display, fun _ _ _ _ _ _ _ _ => ⟨trivial, trivial⟩, trivial, trivial⟩
  · trivial

theorem infoCell_originates {self : InformationViewController} {row cell : Nat} :
    (origins rules kept).Safe server past (InformationViewController.cellForRowAt row cell)
      (.info self) := by
  simp only [InformationViewController.cellForRowAt, this, Contract.Safe, Controller.ofScreen]
  split
  · cases self.infoArray[row]? with
    | none => trivial
    | some item =>
        refine ⟨trivial, ?_⟩
        cases URL.ofString rules item.uImage with
        | none => trivial
        | some url =>
            exact ⟨.display, fun _ _ _ _ _ _ _ _ => ⟨trivial, trivial, trivial⟩, trivial⟩
  · trivial

theorem marketSelect_originates {self : MarketPlaceViewController} {row : Nat} :
    (origins rules kept).Safe server past (MarketPlaceViewController.didSelectRowAt row)
      (.market self) := by
  simp only [MarketPlaceViewController.didSelectRowAt, this, Contract.Safe, Controller.ofScreen]
  split
  · refine ⟨trivial, trivial, ?_⟩
    simp only [DetailViewController.viewDidLoad, this, Contract.Safe, Controller.ofScreen,
      DetailViewController.prepared]
    cases self.postingArray[row]? with
    | none => trivial
    | some posting =>
        rw [Code.unwrap_some]
        cases URL.ofString rules posting.uimage with
        | none => trivial
        | some url =>
            exact ⟨.display, fun _ _ _ _ _ _ _ _ => ⟨trivial, trivial⟩, trivial, trivial⟩
  · trivial

theorem manageSelect_originates {self : ManagePostingsViewController} {row : Nat} :
    (origins rules kept).Safe server past (ManagePostingsViewController.didSelectRowAt row)
      (.manage self) := by
  simp only [ManagePostingsViewController.didSelectRowAt, this, Contract.Safe,
    Controller.ofScreen]
  split
  · cases self.manaageArray[row]? with
    | none => trivial
    | some posting => exact ⟨trivial, trivial, updateLoad_originates⟩
  · trivial

theorem infoSelect_originates {self : InformationViewController} {row : Nat} :
    (origins rules kept).Safe server past (InformationViewController.didSelectRowAt row)
      (.info self) := by
  simp only [InformationViewController.didSelectRowAt, this, Contract.Safe, Controller.ofScreen]
  split
  · cases self.infoArray[row]? with
    | none => trivial
    | some item => exact ⟨trivial, trivial, trivial, trivial⟩
  · trivial

end Readers

/-- Every handler issues its requests as `Originates` says. -/
theorem handle_originates {entry : Entry (app rules)} {screen : Screen} {input : Input}
    (began : entry.object = screen) (given : entry.input = input) :
    (origins rules kept).Safe server ⟨entry, []⟩ (screen.handle input) screen := by
  cases screen with
  | upload self =>
      cases input with
      | uploadButton currentUser => exact uploadButton_originates began given
      | editTexts texts => exact ⟨trivial, trivial⟩
      | pick image => exact ⟨trivial, trivial⟩
      | selectSegment index =>
          simp only [Screen.handle, UploadMarketPlaceViewController.handle]
          split
          · exact ⟨trivial, trivial⟩
          · trivial
      | _ => trivial
  | addInfo self =>
      cases input with
      | submitInfoButton => exact submitInfoButton_originates began given
      | editInfo titleInfo infoView => exact ⟨trivial, trivial⟩
      | pick image => exact ⟨trivial, trivial⟩
      | _ => trivial
  | update self =>
      cases input with
      | updateButton => exact updateButton_originates began given
      | confirmDelete => exact confirmDelete_originates began given
      | editTexts texts => exact ⟨trivial, trivial⟩
      | selectSegment index =>
          simp only [Screen.handle, UpdatePostingsViewController.handle]
          split
          · exact ⟨trivial, trivial⟩
          · trivial
      | pick image => exact ⟨trivial, trivial⟩
      | _ => trivial
  | market self =>
      cases input with
      | viewDidLoad => exact marketLoad_originates
      | viewWillAppear => exact marketLoad_originates
      | cellForRowAt row cell => exact marketCell_originates
      | manageButton currentUser => cases currentUser <;> trivial
      | didSelectRowAt row => exact marketSelect_originates
      | selectSegment index =>
          simp only [Screen.handle, MarketPlaceViewController.handle]
          split
          · exact ⟨trivial, trivial⟩
          · trivial
      | _ => trivial
  | manage self =>
      cases input with
      | viewDidLoad => exact manageLoad_originates
      | viewWillAppear => exact manageLoad_originates
      | cellForRowAt row cell => exact manageCell_originates
      | didSelectRowAt row => exact manageSelect_originates
      | _ => trivial
  | info self =>
      cases input with
      | viewDidLoad => exact infoLoad_originates
      | cellForRowAt row cell => exact infoCell_originates
      | didSelectRowAt row => exact infoSelect_originates
      | _ => trivial
  | detail self => trivial
  | detailedInfo self => trivial

/-- The origins of requests are kept in all interleavings. -/
theorem origins_sound (rules : URLRules) (kept : Prop) : (origins rules kept).Sound where
  refl _ := trivial
  trans _ _ := trivial
  object _ _ := trivial
  request _ valid := valid
  response _ _ := trivial
  root _ _ _ := trivial
  input server past screen input _ _ _ given began first := by
    obtain ⟨entry, trail⟩ := past
    obtain rfl : trail = [] := first
    exact handle_originates began given
  serve _ _ _ _ := ⟨trivial, trivial, trivial⟩

/-- Every run keeps the origins of its requests, with `kept` while the answers of
`addDocument` find the pictures that were submitted. -/
theorem origins_of_reachable {world : PostingsWorld rules}
    (reached : Machine.Reachable (m := system rules) (origins rules kept).guard (start rules)
      world) : (origins rules kept).Holds world :=
  Contract.Holds.reachable (origins_sound rules kept) (Contract.holds_initial trivial) reached

/-- Every run keeps the origins of its requests. -/
theorem origins_of_reaches {world : PostingsWorld rules}
    {test : PostingsWorld rules → Event (app rules) (firebase rules) → Bool}
    (reached : (system rules).Reaches test (start rules) world) :
    (origins rules False).Holds world := by
  refine origins_of_reachable (reached.weaken fun _ event _ => ?_)
  cases event with
  | reply => exact fun _ _ _ _ _ _ => nofun
  | _ => simp [Contract.guard, origins]

end Postings

end Gbc
