import Gbc.Market.Provenance

/-!
# Every handler keeps the provenance contract

One lemma for each handler of the two tabs, then the soundness of the contract
over all interleavings.
-/

namespace Gbc

open Callback Handler

variable {rules : URLRules}

namespace Postings

variable {demands : Demands} {server : Server rules} {past : Past (app rules)}

section Writers

/-- The trailing steps of a picture upload keep the contract when the closing
merge does. -/
theorem uploadPicture_safe {collection : CollectionName} {title : String} {image : UIImage}
    {refId : String} {next : Handler rules} {object : Screen}
    (merges : ∀ (later : Server rules) (past' : Past (app rules)) (url : URL rules),
      server.journal <:+ later.journal → past'.entry = past.entry →
      RequestOk demands later past' (.setData collection refId [("Image", url.string)] true))
    (rest : (contract rules demands).Safe server past next object) :
    (contract rules demands).Safe server past (uploadPicture collection title image refId next)
      object := by
  unfold uploadPicture
  cases image.jpegData with
  | none => exact rest
  | some imageData =>
      refine ⟨trivial, ?_, rest⟩
      intro uploaded success target evolves _ _ _ _
      cases success with
      | false => trivial
      | true =>
          refine ⟨trivial, ?_, trivial⟩
          intro located url target' evolves' _ _ _ _
          refine safe_document.mpr ⟨fun _ _ => by simp, fun _ => ?_⟩
          refine Contract.safe_unwrap.mpr ⟨fun _ _ => by simp, ?_⟩
          rintro url rfl
          exact Contract.safe_fire.mpr ⟨merges _ _ url (evolves.trans evolves') rfl, trivial⟩

/-- A merge of a download URL into a document of the `Upload` collection. -/
theorem imageMerge_ok {refId : String} (url : URL rules) (named : refId ≠ "")
    (addressed : AddressedFrom demands server past refId) :
    RequestOk demands server past (.setData .upload refId [("Image", url.string)] true) := by
  refine ⟨rfl, named, rfl, ?_, ?_, addressed⟩
  · intro ref found
    simp [Fields.value] at found
  · intro image found
    simp [Fields.value] at found
    exact found ▸ url.accepted

/-- A flow that did not begin on an update screen may address any document. -/
theorem addressed_of_entry {refId : String}
    (began : ∀ self, past.entry.object ≠ .update self) :
    AddressedFrom demands server past refId :=
  fun self same => absurd same (began self)

theorem uploadDocumentAdded_safe {ref : Option String}
    {object : Screen} (named : ∀ document, ref = some document → document ≠ "")
    (began : ∀ self, past.entry.object ≠ .update self) :
    (contract rules demands).Safe server past
      (UploadMarketPlaceViewController.documentAdded ref) object := by
  cases ref with
  | none => trivial
  | some documentID =>
      have nonempty := named documentID rfl
      refine safe_this.mpr fun self _ => ?_
      refine Contract.safe_unwrap.mpr ⟨fun _ _ => by simp, fun image _ => ?_⟩
      refine uploadPicture_safe ?_ ?_
      · intro later past' url _ same
        exact imageMerge_ok url nonempty (addressed_of_entry fun self => same ▸ began self)
      · refine safe_document.mpr ⟨fun _ _ => by simp, fun _ => ?_⟩
        refine Contract.safe_fire.mpr
          ⟨⟨rfl, nonempty, rfl, ?_, ?_, addressed_of_entry began⟩, trivial⟩
        · intro ref found
          simp [Fields.value] at found
          exact found.symm
        · intro image found
          simp [Fields.value] at found

theorem uploadButton_safe {currentUser : Option User} (self : UploadMarketPlaceViewController)
    (began : past.entry.object = .upload self) :
    (contract rules demands).Safe server past
      (UploadMarketPlaceViewController.uploadButton currentUser) (.upload self) := by
  simp only [UploadMarketPlaceViewController.uploadButton, this, Contract.Safe,
    Controller.ofScreen]
  split
  · trivial
  · refine ⟨trivial, ?_⟩
    cases currentUser with
    | none => exact fun _ => by simp
    | some user =>
        refine ⟨⟨self, user, rfl⟩, ?_, trivial⟩
        intro later ref target _ _ (named : ∀ document, ref = some document → _) _ _
        exact uploadDocumentAdded_safe named (by simp [began])

theorem addInfoDocumentAdded_safe {ref : Option String} {object : Screen} :
    (contract rules demands).Safe server past (AddInfoViewController.documentAdded ref)
      object := by
  cases ref with
  | none => trivial
  | some documentID =>
      refine safe_this.mpr fun self _ => ?_
      refine Contract.safe_unwrap.mpr ⟨fun _ _ => by simp, fun image _ => ?_⟩
      refine uploadPicture_safe ?_ trivial
      intro later past' url _ _
      refine ⟨rfl, ?_⟩
      intro image found
      simp [Fields.value] at found
      exact found ▸ url.accepted

theorem submitInfoButton_safe (self : AddInfoViewController) :
    (contract rules demands).Safe server past AddInfoViewController.submitInfoButton
      (.addInfo self) := by
  simp only [AddInfoViewController.submitInfoButton, this, Contract.Safe, Controller.ofScreen]
  split
  · exact ⟨rfl, fun _ _ _ _ _ _ _ _ => addInfoDocumentAdded_safe, trivial⟩
  · trivial

/-- The writes of an update screen are addressed to a document of its user. -/
theorem addressed_of_update {self : UpdatePostingsViewController}
    (valid : UpdateOk demands server self) (named : self.docPath ≠ "")
    (began : past.entry.object = .update self) :
    AddressedFrom demands server past self.docPath := by
  intro other same
  obtain rfl : self = other := by simpa [began] using same
  exact ⟨rfl, valid.owner named, fun refs => (valid.aimed refs).1⟩

theorem updateButton_safe (self : UpdatePostingsViewController)
    (valid : UpdateOk demands server self) (began : past.entry.object = .update self) :
    (contract rules demands).Safe server past UpdatePostingsViewController.updateButton
      (.update self) := by
  simp only [UpdatePostingsViewController.updateButton, this, Contract.Safe, Controller.ofScreen]
  split
  · trivial
  · refine ⟨{ valid with }, ?_⟩
    refine safe_document.mpr ⟨fun _ _ => by simp, fun named => ?_⟩
    have addressed := addressed_of_update valid named began
    refine Contract.safe_fire.mpr ⟨⟨rfl, named, rfl, ?_, ?_, addressed⟩, ?_⟩
    · intro ref found
      simp [Fields.value, UpdatePostingsViewController.changes] at found
    · intro image found
      simp [Fields.value, UpdatePostingsViewController.changes] at found
    · refine Contract.safe_unwrap.mpr ⟨fun _ _ => by simp, fun image _ => ?_⟩
      refine uploadPicture_safe ?_ trivial
      intro later past' url evolves same
      exact imageMerge_ok url named fun other began' =>
        (addressed.evolve evolves) other (same ▸ began')

theorem confirmDelete_safe (self : UpdatePostingsViewController)
    (valid : UpdateOk demands server self) (began : past.entry.object = .update self) :
    (contract rules demands).Safe server past UpdatePostingsViewController.confirmDelete
      (.update self) := by
  simp only [UpdatePostingsViewController.confirmDelete, this, Contract.Safe,
    Controller.ofScreen]
  exact safe_document.mpr ⟨fun _ _ => by simp, fun named =>
    Contract.safe_fire.mpr ⟨⟨named, addressed_of_update valid named began⟩, trivial⟩⟩

end Writers

section Readers

/-- A handler that ends with an assignment keeps the contract when the assignment
keeps it on the screens of its class. -/
theorem assign_safe {Self : Type} [Controller Screen Self] {change : Self → Self} {object : Screen}
    (valid : ScreenOk demands server object)
    (keeps : ∀ self, Controller.ofScreen object = some self →
      ScreenOk demands server (Controller.screen (change self))) :
    (contract rules demands).Safe server past (assign change .done) object := by
  refine ⟨?_, trivial⟩
  dsimp only
  cases found : (Controller.ofScreen object : Option Self) with
  | none => exact valid
  | some self => exact keeps self found

/-- A picture arriving at the update screen keeps the contract. -/
theorem updateImage_safe {image : Option UIImage} {object : Screen}
    (valid : ScreenOk demands server object) :
    (contract rules demands).Safe server past
      (assign (fun screen : UpdatePostingsViewController => { screen with imageView := image })
        .done) object := by
  refine assign_safe valid ?_
  intro self found
  cases object <;> cases found
  exact { (show UpdateOk demands server self from valid) with }

theorem fill_safe {documents : Snapshot} {self : UpdatePostingsViewController}
    (valid : UpdateOk demands server self)
    (stored : ∀ document ∈ documents, DocumentOk server document)
    (delivered : demands.images → ∀ document ∈ documents,
      document.2.text "Ref" = self.docPath → "Image" ∈ document.2) :
    (contract rules demands).Safe server past (UpdatePostingsViewController.fill documents)
      (.update self) := by
  induction documents generalizing self with
  | nil => trivial
  | cons document documents inductionHypothesis =>
      have storedHere := stored document List.mem_cons_self
      have storedLater := fun other member => stored other (List.mem_cons_of_mem _ member)
      obtain ⟨documentID, data⟩ := document
      simp only [UpdatePostingsViewController.fill, this, Contract.Safe, Controller.ofScreen]
      split
      · rename_i same
        cases found : data["Image"]? with
        | none =>
            intro images
            have present := delivered images _ List.mem_cons_self same
            rw [Std.ExtTreeMap.mem_iff_isSome_getElem?, found] at present
            cases present
        | some image =>
            rw [Code.unwrap_some, URL.ofString_of_accepts (storedHere.image image found),
              Code.unwrap_some]
            have filled : UpdateOk demands server { self with
                texts := PostingTexts.ofData data
                segmentControl := UpdatePostingsViewController.segmentOf data
                source := some (documentID, data) } := by
              refine { valid with source := ?_ }
              intro refs document shows
              obtain rfl := Option.some.inj shows
              have aimed := valid.aimed refs
              have ref := Doc.getElem?_of_text same aimed.2
              exact ⟨(storedHere.ref _ ref).symm.trans aimed.1, rfl, rfl⟩
            exact ⟨trivial, fun _ _ _ _ _ _ object _ => updateImage_safe object, filled,
              inductionHypothesis filled storedLater fun images other member =>
                delivered images other (List.mem_cons_of_mem _ member)⟩
      · exact inductionHypothesis valid storedLater
          fun images other member => delivered images other (List.mem_cons_of_mem _ member)

theorem updateLoad_safe {object : Screen} :
    (contract rules demands).Safe server past UpdatePostingsViewController.loadFireBaseData
      object := by
  refine ⟨trivial, ?_, trivial⟩
  intro later snapshot target _ _ stored valid delivers
  cases snapshot with
  | none => trivial
  | some documents =>
      cases target with
      | update self =>
          refine fill_safe valid (stored documents rfl) ?_
          intro images document member same
          exact (delivers documents rfl document
            (List.mem_filter.mpr ⟨member, beq_iff_eq.mpr same⟩)).1 images
      | _ => cases documents <;> trivial

/-- A document with an accepted `Image` decodes to a row with an accepted one. -/
theorem DocumentOk.accepts_uimage {document : String × Doc}
    (valid : DocumentOk server document) (present : "Image" ∈ document.2) :
    rules.accepts (Upload.ofData document.2).uimage = true := by
  obtain ⟨image, found⟩ := Option.isSome_iff_exists.mp
    (Std.ExtTreeMap.mem_iff_isSome_getElem?.mp present)
  rw [Upload.ofData, Doc.text_of_getElem? found]
  exact valid.image image found

/-- A document with a `Ref` is named by it. -/
theorem DocumentOk.text_ref {document : String × Doc} (valid : DocumentOk server document)
    (present : "Ref" ∈ document.2) : document.2.text "Ref" = document.1 := by
  obtain ⟨ref, found⟩ := Option.isSome_iff_exists.mp
    (Std.ExtTreeMap.mem_iff_isSome_getElem?.mp present)
  exact (Doc.text_of_getElem? found).trans (valid.ref ref found)

theorem marketLoad_safe {object : Screen} :
    (contract rules demands).Safe server past MarketPlaceViewController.loadFireBaseData
      object := by
  refine ⟨trivial, ?_, trivial⟩
  intro later snapshot target _ _ stored valid delivers
  cases snapshot with
  | none => trivial
  | some documents =>
      refine assign_safe valid ?_
      intro self found
      cases target <;> cases found
      intro images
      have accepted : ∀ posting ∈ documents.map fun document => Upload.ofData document.2,
          rules.accepts posting.uimage = true := by
        intro posting member
        obtain ⟨document, listed, rfl⟩ := List.mem_map.mp member
        exact (stored documents rfl document listed).accepts_uimage
          ((delivers documents rfl document listed).1 images)
      exact ⟨accepted, accepted⟩

theorem manageLoad_safe {object : Screen} :
    (contract rules demands).Safe server past ManagePostingsViewController.loadFireBaseData
      object := by
  refine ⟨trivial, ?_, trivial⟩
  intro later snapshot target _ _ stored valid delivers
  cases snapshot with
  | none => trivial
  | some documents =>
      refine assign_safe valid ?_
      intro self found
      cases target <;> cases found
      exact {
        rows := rfl
        documents := fun document member =>
          stored documents rfl document (List.mem_of_mem_filter member)
        owned := fun document member =>
          (beq_iff_eq.mp (List.mem_filter.mp member).2).symm
        images := fun images document member =>
          (delivers documents rfl document member).1 images
        refs := fun refs document member =>
          (delivers documents rfl document member).2 refs rfl }

theorem infoLoad_safe {object : Screen} :
    (contract rules demands).Safe server past InformationViewController.loadData object := by
  refine ⟨trivial, ?_, trivial⟩
  intro later snapshot target _ _ stored valid delivers
  cases snapshot with
  | none => trivial
  | some documents =>
      refine assign_safe valid ?_
      intro self found
      cases target <;> cases found
      intro images item member
      obtain ⟨document, listed, rfl⟩ := List.mem_map.mp member
      obtain ⟨image, present⟩ := Option.isSome_iff_exists.mp
        (Std.ExtTreeMap.mem_iff_isSome_getElem?.mp
          ((delivers documents rfl document listed).1 images))
      rw [Info.ofData, Doc.text_of_getElem? present]
      exact stored documents rfl document listed image present

theorem marketCell_safe (self : MarketPlaceViewController) (row cell : Nat)
    (valid : ScreenOk demands server (.market self)) :
    (contract rules demands).Safe server past (MarketPlaceViewController.cellForRowAt row cell)
      (.market self) := by
  simp only [MarketPlaceViewController.cellForRowAt, this, Contract.Safe, Controller.ofScreen]
  split
  · cases found : self.postingArray[row]? with
    | none => exact fun _ => by simp
    | some posting =>
        refine ⟨valid, ?_⟩
        cases parsed : URL.ofString rules posting.uimage with
        | none =>
            intro images
            have accepted := (valid images).1 posting (List.mem_of_getElem? found)
            rw [URL.ofString_of_accepts accepted] at parsed
            cases parsed
        | some url =>
            refine ⟨trivial, ?_, valid, trivial⟩
            intro later image target _ _ _ object _
            refine assign_safe object ?_
            intro self found
            cases target <;> cases found
            exact object
  · trivial

theorem manageCell_safe (self : ManagePostingsViewController) (row cell : Nat)
    (valid : ManageOk demands server self) :
    (contract rules demands).Safe server past
      (ManagePostingsViewController.cellForRowAt row cell) (.manage self) := by
  simp only [ManagePostingsViewController.cellForRowAt, this, Contract.Safe,
    Controller.ofScreen]
  split
  · cases found : self.manaageArray[row]? with
    | none => exact fun _ => by simp
    | some posting =>
        refine ⟨{ valid with }, ?_⟩
        cases parsed : URL.ofString rules posting.uimage with
        | none =>
            intro images
            have member := List.mem_of_getElem? found
            rw [valid.rows] at member
            obtain ⟨document, shown, rfl⟩ := List.mem_map.mp member
            have accepted := (valid.documents document shown).accepts_uimage
              (valid.images images document shown)
            rw [URL.ofString_of_accepts accepted] at parsed
            cases parsed
        | some url =>
            refine ⟨trivial, ?_, { valid with }, trivial⟩
            intro later image target _ _ _ object _
            refine assign_safe object ?_
            intro self found
            cases target <;> cases found
            exact { (show ManageOk demands later self from object) with }
  · trivial

theorem infoCell_safe (self : InformationViewController) (row cell : Nat)
    (valid : ScreenOk demands server (.info self)) :
    (contract rules demands).Safe server past (InformationViewController.cellForRowAt row cell)
      (.info self) := by
  simp only [InformationViewController.cellForRowAt, this, Contract.Safe, Controller.ofScreen]
  split
  · cases found : self.infoArray[row]? with
    | none => exact fun _ => by simp
    | some item =>
        refine ⟨valid, ?_⟩
        cases parsed : URL.ofString rules item.uImage with
        | none =>
            intro images
            have accepted := valid images item (List.mem_of_getElem? found)
            rw [URL.ofString_of_accepts accepted] at parsed
            cases parsed
        | some url =>
            refine ⟨trivial, ?_, trivial⟩
            intro later image target _ _ _ object _
            cases target <;> exact ⟨object, object, trivial⟩
  · trivial

theorem detail_safe (self : DetailViewController)
    (valid : ScreenOk demands server (.detail self)) :
    (contract rules demands).Safe server past DetailViewController.viewDidLoad
      (.detail self) := by
  simp only [DetailViewController.viewDidLoad, this, Contract.Safe, Controller.ofScreen]
  cases found : self.array[self.index]? with
  | none => exact fun _ => by simp
  | some posting =>
      rw [Code.unwrap_some]
      cases parsed : URL.ofString rules posting.uimage with
      | none =>
          intro images
          have accepted := valid images posting (List.mem_of_getElem? found)
          rw [URL.ofString_of_accepts accepted] at parsed
          cases parsed
      | some url =>
          refine ⟨trivial, ?_, valid, trivial⟩
          intro later image target _ _ _ object _
          refine assign_safe object ?_
          intro self found
          cases target <;> cases found
          exact object

theorem marketSelect_safe (self : MarketPlaceViewController) (row : Nat)
    (valid : ScreenOk demands server (.market self)) :
    (contract rules demands).Safe server past (MarketPlaceViewController.didSelectRowAt row)
      (.market self) := by
  simp only [MarketPlaceViewController.didSelectRowAt, this, Contract.Safe, Controller.ofScreen]
  split
  · have array : ScreenOk demands server (.detail (.prepared self.postingArray row)) :=
      fun images => (valid images).1
    exact ⟨valid, array, detail_safe _ array⟩
  · trivial

/-- A tap on a Manage row hands over the `Ref` of a document of the user. -/
theorem prepared_ok {self : ManagePostingsViewController} {row : Nat} {posting : Upload}
    (valid : ManageOk demands server self) (found : self.manaageArray[row]? = some posting) :
    UpdateOk demands server (.prepared posting.refNo self.currentUser
      ((self.shown[row]?.map (·.1)).getD "")) := by
  rw [valid.rows, List.getElem?_map] at found
  obtain ⟨document, shown, rfl⟩ := Option.map_eq_some_iff.mp found
  have member := List.mem_of_getElem? shown
  have stored := valid.documents document member
  have owner := Doc.getElem?_of_text (valid.owned document member) self.currentUser.uid_ne
  refine ⟨?_, ?_, fun _ document shows => nomatch shows⟩
  · intro named
    have ref := stored.ref _ (Doc.getElem?_of_text rfl named)
    show CreatedBy server (document.2.text "Ref") self.currentUser.uid
    rw [show document.2.text "Ref" = document.1 from ref]
    exact stored.user _ owner
  · intro refs
    have named := stored.text_ref (valid.refs refs document member)
    simp only [UpdatePostingsViewController.prepared, Upload.ofData, shown, Option.map_some,
      Option.getD_some, named]
    exact ⟨trivial, stored.named⟩

theorem manageSelect_safe (self : ManagePostingsViewController) (row : Nat)
    (valid : ManageOk demands server self) :
    (contract rules demands).Safe server past
      (ManagePostingsViewController.didSelectRowAt row) (.manage self) := by
  simp only [ManagePostingsViewController.didSelectRowAt, this, Contract.Safe,
    Controller.ofScreen]
  split
  · cases found : self.manaageArray[row]? with
    | none => exact fun _ => by simp
    | some posting => exact ⟨{ valid with }, prepared_ok valid found, updateLoad_safe⟩
  · trivial

theorem infoSelect_safe (self : InformationViewController) (row : Nat)
    (valid : ScreenOk demands server (.info self)) :
    (contract rules demands).Safe server past (InformationViewController.didSelectRowAt row)
      (.info self) := by
  simp only [InformationViewController.didSelectRowAt, this, Contract.Safe, Controller.ofScreen]
  split
  · cases self.infoArray[row]? with
    | none => exact fun _ => by simp
    | some item => exact ⟨valid, trivial, trivial, trivial⟩
  · trivial

/-- Filtering shows postings that were loaded. -/
theorem segmentChanged_ok (self : MarketPlaceViewController)
    (valid : ScreenOk demands server (.market self)) :
    ScreenOk demands server (.market self.segmentChanged) := by
  intro images
  have loaded := (valid images).2
  have filtered : ∀ name, ∀ posting ∈ MarketPlaceViewController.filterArray self.uploadArray name,
      rules.accepts posting.uimage = true :=
    fun _ posting member => loaded posting (List.mem_of_mem_filter member)
  unfold MarketPlaceViewController.segmentChanged
  split
  · exact ⟨loaded, loaded⟩
  · split
    · exact ⟨filtered "Job", loaded⟩
    · split
      · exact ⟨filtered "Rental", loaded⟩
      · exact valid images

end Readers

/-- Every input to a screen is handled within the contract. -/
theorem handle_safe {screen : Screen} {input : Input}
    (valid : ScreenOk demands server screen) (began : past.entry.object = screen) :
    (contract rules demands).Safe server past (screen.handle input) screen := by
  cases screen with
  | upload self =>
      cases input with
      | uploadButton currentUser => exact uploadButton_safe self began
      | editTexts texts => exact ⟨trivial, trivial⟩
      | pick image => exact ⟨trivial, trivial⟩
      | selectSegment index =>
          simp only [Screen.handle, UploadMarketPlaceViewController.handle]
          split
          · exact ⟨trivial, trivial⟩
          · trivial
      | _ => trivial
  | addInfo self =>
      cases input with
      | submitInfoButton => exact submitInfoButton_safe self
      | editInfo titleInfo infoView => exact ⟨trivial, trivial⟩
      | pick image => exact ⟨trivial, trivial⟩
      | _ => trivial
  | update self =>
      have update : UpdateOk demands server self := valid
      cases input with
      | updateButton => exact updateButton_safe self valid began
      | confirmDelete => exact confirmDelete_safe self valid began
      | editTexts texts =>
          exact ⟨{ update with source := fun _ _ shows => nomatch shows }, trivial⟩
      | selectSegment index =>
          simp only [Screen.handle, UpdatePostingsViewController.handle]
          split
          · exact ⟨{ update with source := fun _ _ shows => nomatch shows }, trivial⟩
          · trivial
      | pick image => exact ⟨{ update with }, trivial⟩
      | _ => trivial
  | market self =>
      cases input with
      | viewDidLoad => exact marketLoad_safe
      | viewWillAppear => exact marketLoad_safe
      | cellForRowAt row cell => exact marketCell_safe self row cell valid
      | manageButton currentUser =>
          exact Contract.safe_unwrap.mpr ⟨fun _ _ => by simp, fun _ _ => trivial⟩
      | didSelectRowAt row => exact marketSelect_safe self row valid
      | selectSegment index =>
          simp only [Screen.handle, MarketPlaceViewController.handle]
          split
          · have chosen : ScreenOk demands server (.market { self with filterSegment := index }) :=
              valid
            exact ⟨segmentChanged_ok _ chosen, trivial⟩
          · trivial
      | _ => trivial
  | manage self =>
      cases input with
      | viewDidLoad => exact manageLoad_safe
      | viewWillAppear => exact manageLoad_safe
      | cellForRowAt row cell => exact manageCell_safe self row cell valid
      | didSelectRowAt row => exact manageSelect_safe self row valid
      | _ => trivial
  | info self =>
      cases input with
      | viewDidLoad => exact infoLoad_safe
      | cellForRowAt row cell => exact infoCell_safe self row cell valid
      | didSelectRowAt row => exact infoSelect_safe self row valid
      | _ => trivial
  | detail self => trivial
  | detailedInfo self => trivial

/-- A write that keeps the fields of the documents it leaves keeps the contract of
the backend. -/
theorem ServerOk.write {collection : CollectionName} {write : Write} (valid : ServerOk server)
    (upload : collection = .upload → ∀ data,
      (write.apply (server.documents .upload))[write.document]? = some data →
      DocumentOk (server.write collection write) (write.document, data))
    (info : collection = .infoUpload → ∀ (data : Doc) (image : String),
      (write.apply (server.documents .infoUpload))[write.document]? = some data →
      data["Image"]? = some image → rules.accepts image = true) :
    ServerOk (server.write collection write) where
  upload document data found := by
    have evolves : server.journal <:+ (server.write collection write).journal :=
      List.suffix_cons _ _
    by_cases written : collection = .upload
    · subst written
      rw [Server.write_documents] at found
      by_cases same : write.document = document
      · subst same
        exact upload rfl data found
      · rw [Write.getElem?_apply_of_ne _ _ same] at found
        exact (valid.upload document data found).evolve evolves
    · rw [Server.write_documents_of_ne _ _ (Ne.symm written)] at found
      exact (valid.upload document data found).evolve evolves
  info document data image found present := by
    by_cases written : collection = .infoUpload
    · subst written
      rw [Server.write_documents] at found
      by_cases same : write.document = document
      · subst same
        exact info rfl data image found present
      · rw [Write.getElem?_apply_of_ne _ _ same] at found
        exact valid.info document data image found present
    · rw [Server.write_documents_of_ne _ _ (Ne.symm written)] at found
      exact valid.info document data image found present

/-- Merging fields that keep the rules of a document keeps those rules, whether or
not the document was there. -/
theorem DocumentOk.merge {document : String} {data : Fields}
    (stored : ∀ old, (server.documents .upload)[document]? = some old →
      DocumentOk server (document, old))
    (valid : RequestOk demands server past (.setData .upload document data true)) :
    DocumentOk (server.write .upload (.set document data true))
      (document, ((server.documents .upload)[document]?.getD ∅).merge data) := by
  obtain ⟨_, named, user, ref, image, _⟩ := valid
  have old : DocumentOk server (document, (server.documents .upload)[document]?.getD ∅) := by
    cases found : (server.documents .upload)[document]? with
    | some old => exact stored old found
    | none => exact ⟨named, by simp, by simp, by simp⟩
  have evolves : server.journal <:+ (server.write .upload (.set document data true)).journal :=
    List.suffix_cons _ _
  refine DocumentOk.evolve evolves ⟨named, ?_, ?_, ?_⟩
  · intro value found
    rw [Doc.getElem?_merge] at found
    cases written : Fields.value "Ref" data with
    | none => rw [written] at found; exact old.ref value found
    | some new => rw [written] at found; cases found; exact ref _ written
  · intro value found
    rw [Doc.getElem?_merge, user] at found
    exact old.user value found
  · intro value found
    rw [Doc.getElem?_merge] at found
    cases written : Fields.value "Image" data with
    | none => rw [written] at found; exact old.image value found
    | some new => rw [written] at found; cases found; exact image _ written

/-- The backend keeps the contract when it serves an admitted request. -/
theorem serve_keeps {request : Request rules} {later : Server rules}
    {response : request.Response} (valid : ServerOk server)
    (asked : RequestOk demands server past request)
    (served : server.Served request later response) :
    server.journal <:+ later.journal ∧ ServerOk later ∧ ResponseOk later request response := by
  cases served with
  | @added collection data name unused =>
      have named := ((Server.neverUsed_iff server).mp unused).1
      refine ⟨List.suffix_cons _ _, valid.write ?_ ?_, fun _ same => Option.some.inj same ▸ named⟩
      · rintro rfl stored found
        obtain ⟨form, user, rfl⟩ := asked
        obtain rfl : Doc.merge ∅ (form.posting user) = stored := by
          simpa [Write.document] using found
        refine ⟨named, ?_, ?_, ?_⟩
        · intro ref present
          simp [Doc.getElem?_merge, Fields.value, UploadMarketPlaceViewController.posting]
            at present
        · intro uid present
          refine ⟨form, user, ?_, List.mem_cons_self⟩
          simpa [Doc.getElem?_merge, Fields.value, UploadMarketPlaceViewController.posting]
            using present
        · intro image present
          simp [Doc.getElem?_merge, Fields.value, UploadMarketPlaceViewController.posting]
            at present
      · rintro rfl stored image found present
        obtain rfl : Doc.merge ∅ data = stored := by simpa [Write.document] using found
        rw [Doc.getElem?_merge, show Fields.value "Image" data = none from asked] at present
        simp at present
  | @set collection document data merge =>
      refine ⟨List.suffix_cons _ _, valid.write ?_ ?_, trivial⟩
      · rintro rfl stored found
        obtain rfl : merge = true := asked.1
        simp only [Write.document, Write.getElem?_apply_merge, Option.some.injEq] at found
        subst found
        exact DocumentOk.merge (valid.upload document) asked
      · rintro rfl stored image found present
        obtain rfl : merge = true := asked.1
        simp only [Write.document, Write.getElem?_apply_merge, Option.some.injEq] at found
        subst found
        rw [Doc.getElem?_merge] at present
        cases written : Fields.value "Image" data with
        | some new => rw [written] at present; cases present; exact asked.2 _ written
        | none =>
            rw [written] at present
            cases old : (server.documents .infoUpload)[document]? with
            | none => simp [old] at present
            | some data => rw [old] at present; exact valid.info _ data image old present
  | deleted =>
      refine ⟨List.suffix_cons _ _, valid.write ?_ ?_, trivial⟩
      · intro _ stored found
        simp [Write.document] at found
      · intro _ stored image found
        simp [Write.document] at found
  | @listed collection =>
      refine ⟨List.suffix_refl _, valid, ?_⟩
      cases collection with
      | users => trivial
      | upload =>
          intro documents delivered document member
          obtain rfl := Option.some.inj delivered
          exact valid.upload _ _ (Std.ExtTreeMap.mem_toList_iff_getElem?_eq_some.mp member)
      | infoUpload =>
          intro documents delivered document member image
          obtain rfl := Option.some.inj delivered
          exact valid.info _ _ image (Std.ExtTreeMap.mem_toList_iff_getElem?_eq_some.mp member)
  | @listFailed collection =>
      refine ⟨List.suffix_refl _, valid, ?_⟩
      cases collection with
      | users => trivial
      | _ =>
          intro _ delivered
          cases delivered
  | addFailed =>
      refine ⟨List.suffix_refl _, valid, ?_⟩
      intro _ found
      cases found
  | @uploaded path data url =>
      let later : Server rules := { server with storage := ⟨path, data, url⟩ :: server.storage }
      have evolves : server.journal <:+ later.journal := List.suffix_refl _
      exact ⟨evolves, ⟨fun document data found => (valid.upload document data found).evolve evolves,
        valid.info⟩, trivial⟩
  | registered | refused => exact asked.elim
  | _ => exact ⟨List.suffix_refl _, valid, trivial⟩

/-- The contract is sound over all interleavings. -/
theorem contract_sound (rules : URLRules) (demands : Demands) :
    (contract rules demands).Sound where
  refl _ := List.suffix_refl _
  trans := List.IsSuffix.trans
  object evolves valid := ScreenOk.evolve evolves valid
  request evolves valid := RequestOk.evolve evolves valid
  response evolves valid := ResponseOk.evolve evolves valid
  root server root _ := by
    cases root with
    | upload => trivial
    | market => exact fun _ => ⟨by simp [MarketPlaceViewController.opened],
        by simp [MarketPlaceViewController.opened]⟩
    | manage currentUser => constructor <;> simp [ManagePostingsViewController.opened]
    | addInfo => trivial
    | info => exact fun _ _ member => nomatch member
  input server past screen input _ valid _ _ began _ := handle_safe valid began
  serve valid asked _ served := serve_keeps valid asked (Server.served_of_serve served)

/-- Every world reached by delivering only snapshots that meet the demands keeps
the provenance contract. -/
theorem holds_of_reachable {demands : Demands} {world : PostingsWorld rules}
    (reached : Machine.Reachable (m := system rules) (contract rules demands).guard
      (start rules) world) : (contract rules demands).Holds world := by
  refine Contract.Holds.reachable (contract_sound rules demands)
    (Contract.holds_initial ⟨?_, ?_⟩) reached
  · intro document data found
    simp at found
  · intro document data image found
    simp at found

end Postings

end Gbc
