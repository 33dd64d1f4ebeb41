import Gbc.Market.Postings
import Gbc.Market.Taps

/-!
# Why the two tabs stop

Every trap of the market place and information tabs, with its cause. A list shows a
document that has no picture yet, a posting is submitted or the Manage screen is opened by
nobody, an information item or an update has no picture to upload, a picture that was uploaded
is not found, or an update screen was opened for a posting without `Ref`.
-/

namespace Gbc

open Callback Handler

variable {rules : URLRules}

namespace Postings

/-- What a handler with this past can stop for on a screen. -/
inductive Cause (past : Past (app rules)) : Screen → Fault → Prop where
  /-- A row whose document has no picture yet. -/
  | marketRow {self : MarketPlaceViewController} {row cell : Nat} {posting : Upload}
      (asked : past.entry.input = .cellForRowAt row cell)
      (shown : self.postingArray[row]? = some posting) (unlinked : posting.uimage = "") :
      Cause past (.market self) .image
  | manageRow {self : ManagePostingsViewController} {row cell : Nat} {posting : Upload}
      (asked : past.entry.input = .cellForRowAt row cell)
      (shown : self.manaageArray[row]? = some posting) (unlinked : posting.uimage = "") :
      Cause past (.manage self) .image
  | infoRow {self : InformationViewController} {row cell : Nat} {item : Info}
      (asked : past.entry.input = .cellForRowAt row cell)
      (shown : self.infoArray[row]? = some item) (unlinked : item.uImage = "") :
      Cause past (.info self) .image
  /-- A posting that was opened before it has a picture. -/
  | detail {self : DetailViewController} {row : Nat} {posting : Upload}
      (tapped : past.entry.input = .didSelectRowAt row)
      (shown : self.array[self.index]? = some posting) (unlinked : posting.uimage = "") :
      Cause past (.detail self) .image
  | update {self : UpdatePostingsViewController} {documents : Snapshot} {document : String × Doc}
      (loaded : past.trail.head? =
        some ⟨.getDocuments .upload, (some documents : Option Snapshot)⟩)
      (member : document ∈ documents) (own : document.2.text "Ref" = self.docPath)
      (unlinked : document.2["Image"]? = none) : Cause past (.update self) .image
  /-- Nobody is signed in. -/
  | signedOut {self : UploadMarketPlaceViewController}
      (pressed : past.entry.input = .uploadButton none) : Cause past (.upload self) .currentUser
  /-- The Manage screen is opened while nobody is signed in. -/
  | unmanaged {self : MarketPlaceViewController}
      (pressed : past.entry.input = .manageButton none) : Cause past (.market self) .currentUser
  /-- No picture was picked for an information item. -/
  | unpictured {self : AddInfoViewController} {data : Fields} {document : String}
      (added : past.trail.head? =
        some ⟨.addDocument .infoUpload data, (some document : Option String)⟩)
      (unpicked : self.image = none) : Cause past (.addInfo self) .imageView
  /-- The picture of the posting could not be loaded into the update form. -/
  | unshown {self : UpdatePostingsViewController} (pressed : past.entry.input = .updateButton)
      (missing : self.imageView = none) : Cause past (.update self) .imageView
  /-- The URL of an uploaded picture is not found. -/
  | unlocated {screen : Screen} {path : String}
      (lookup : past.trail.head? = some ⟨.downloadURL path, (none : Option (URL rules))⟩) :
      Cause past screen .downloadURL
  /-- The update screen was opened for a posting without `Ref`. -/
  | unaddressed {self : UpdatePostingsViewController}
      (pressed : past.entry.input = .updateButton ∨ past.entry.input = .confirmDelete)
      (unnamed : self.docPath = "") : Cause past (.update self) .documentPath

/-- The text of a link, or none yet. -/
def Links (rules : URLRules) (image : String) : Prop := image = "" ∨ rules.accepts image = true

/-- The entries of the lists link to pictures or to none yet, and the posting form shows a
picture. -/
def PictureLinks (rules : URLRules) : Screen → Prop
  | .market self => (∀ posting ∈ self.uploadArray, Links rules posting.uimage) ∧
      ∀ posting ∈ self.postingArray, Links rules posting.uimage
  | .manage self => ∀ posting ∈ self.manaageArray, Links rules posting.uimage
  | .detail self => ∀ posting ∈ self.array, Links rules posting.uimage
  | .info self => ∀ item ∈ self.infoArray, Links rules item.uImage
  | .upload self => self.imageView.isSome = true
  | .update _ | .addInfo _ | .detailedInfo _ => True

/-- What the handlers keep of the screens. -/
structure Sane (rules : URLRules) (screen : Screen) : Prop where
  inStep : screen.InStep
  pictured : PictureLinks rules screen

/-- Every text in an `Image` field is a link. -/
def Illustrated (rules : URLRules) (snapshot : Option Snapshot) : Prop :=
  ∀ documents, snapshot = some documents → ∀ document ∈ documents, ∀ image,
    document.2["Image"]? = some image → rules.accepts image = true

/-- Why the two tabs stop. -/
def diagnosis (rules : URLRules) : Diagnosis (app rules) where
  Object := Sane rules
  Response
    | .addDocument _ _, (ref : Option String) => ∀ document, ref = some document → document ≠ ""
    | .getDocuments .upload, (snapshot : Option Snapshot) => Illustrated rules snapshot
    | .getDocuments .infoUpload, (snapshot : Option Snapshot) => Illustrated rules snapshot
    | _, _ => True
  Cause := Cause

section Handlers

variable {past : Past (app rules)} {screen : Screen}

/-- Text that is no URL is the missing link. -/
theorem Links.eq_empty {image : String} (links : Links rules image)
    (fails : URL.ofString rules image = none) : image = "" := by
  rcases links with empty | accepted
  · exact empty
  · rw [URL.ofString_of_accepts accepted] at fails
    cases fails

/-- The image of a delivered document links. -/
theorem Illustrated.links {documents : Snapshot} (linked : Illustrated rules (some documents))
    {document : String × Doc} (member : document ∈ documents) :
    Links rules (document.2.text "Image") := by
  cases found : document.2["Image"]? with
  | none => exact .inl (by simp [Doc.text, found])
  | some image =>
      rw [Doc.text_of_getElem? found]
      exact .inr (linked documents rfl document member image found)

/-- An image load, whose completion handler only shows the image. -/
theorem explains_load {url : URL rules} {completion : Option UIImage → Handler rules}
    {next : Handler rules}
    (shows : ∀ image past target, Sane rules target →
      (diagnosis rules).Explains past (completion image) target)
    (rest : (diagnosis rules).Explains past next screen) :
    (diagnosis rules).Explains past (.call (.loadFrom url) completion next) screen :=
  ⟨fun image target _ valid => shows image _ target valid, rest⟩

/-- A picture that has been uploaded for a document stops only if its URL is not found. -/
theorem explains_picture {collection : CollectionName} {title refId : String} {image : UIImage}
    {next : Handler rules} (named : refId ≠ "")
    (rest : (diagnosis rules).Explains past next screen) :
    (diagnosis rules).Explains past (uploadPicture collection title image refId next)
      screen := by
  unfold uploadPicture
  split
  · exact rest
  · refine ⟨fun (uploaded : Bool) target _ _ => ?_, rest⟩
    cases uploaded with
    | false => trivial
    | true =>
        refine ⟨fun (url : Option (URL rules)) target _ _ => ?_, trivial⟩
        refine explains_document.mpr ⟨fun empty => absurd empty named, fun _ => ?_⟩
        refine Diagnosis.explains_unwrap.mpr ⟨?_, fun found _ => ?_⟩
        · rintro rfl
          exact .unlocated rfl
        · exact Diagnosis.explains_fire.mpr trivial

theorem explains_uploadButton {currentUser : Option User}
    {self : UploadMarketPlaceViewController} (valid : Sane rules (.upload self))
    (pressed : past.entry.input = .uploadButton currentUser) :
    (diagnosis rules).Explains past (UploadMarketPlaceViewController.uploadButton currentUser)
      (.upload self) := by
  refine explains_this.mpr fun now shown => ?_
  cases shown
  split
  · trivial
  · refine ⟨⟨trivial, valid.pictured⟩, Diagnosis.explains_unwrap.mpr ⟨?_, fun user _ => ?_⟩⟩
    · rintro rfl
      exact .signedOut pressed
    · refine ⟨fun (ref : Option String) target named valid => ?_, trivial⟩
      cases ref with
      | none => trivial
      | some document =>
          have named : document ≠ "" := named document rfl
          refine explains_this.mpr fun form shown => ?_
          obtain rfl := LawfulController.eq_screen shown
          refine Diagnosis.explains_unwrap.mpr ⟨fun missing => ?_, fun image _ => ?_⟩
          · have pictured : form.imageView.isSome = true := valid.pictured
            rw [missing] at pictured
            cases pictured
          · refine explains_picture named (explains_document.mpr ⟨fun empty => ?_, fun _ => ?_⟩)
            · exact absurd empty named
            · exact Diagnosis.explains_fire.mpr trivial

theorem explains_submitInfoButton :
    (diagnosis rules).Explains past AddInfoViewController.submitInfoButton screen := by
  refine explains_this.mpr fun self _ => ?_
  split
  · refine ⟨fun (ref : Option String) target named _ => ?_, trivial⟩
    cases ref with
    | none => trivial
    | some document =>
        refine explains_this.mpr fun now shown => ?_
        obtain rfl := LawfulController.eq_screen shown
        refine Diagnosis.explains_unwrap.mpr ⟨fun unpicked => ?_, fun image _ => ?_⟩
        · exact .unpictured rfl unpicked
        · exact explains_picture (named document rfl) trivial
  · trivial

theorem explains_updateButton {self : UpdatePostingsViewController}
    (pressed : past.entry.input = .updateButton) :
    (diagnosis rules).Explains past UpdatePostingsViewController.updateButton (.update self) := by
  refine explains_this.mpr fun now shown => ?_
  cases shown
  split
  · trivial
  · refine ⟨⟨trivial, trivial⟩, explains_document.mpr ⟨fun empty => ?_, fun named => ?_⟩⟩
    · exact .unaddressed (.inl pressed) empty
    · refine Diagnosis.explains_fire.mpr (Diagnosis.explains_unwrap.mpr ⟨fun missing => ?_, ?_⟩)
      · exact .unshown pressed missing
      · exact fun image _ => explains_picture named trivial

theorem explains_confirmDelete {self : UpdatePostingsViewController}
    (pressed : past.entry.input = .confirmDelete) :
    (diagnosis rules).Explains past UpdatePostingsViewController.confirmDelete
      (.update self) := by
  refine explains_this.mpr fun now shown => ?_
  cases shown
  refine explains_document.mpr ⟨fun empty => ?_, fun _ => ?_⟩
  · exact .unaddressed (.inr pressed) empty
  · exact Diagnosis.explains_fire.mpr trivial

/-- The loop over the delivered documents: one of this posting may have no picture yet. -/
theorem explains_fill {documents : Snapshot} (linked : Illustrated rules (some documents))
    (loaded : past.trail.head? =
      some ⟨.getDocuments .upload, (some documents : Option Snapshot)⟩) (valid : Sane rules screen)
    {rest : Snapshot} (within : rest ⊆ documents) :
    (diagnosis rules).Explains past (UpdatePostingsViewController.fill rest) screen := by
  induction rest generalizing screen with
  | nil => trivial
  | cons document rest inductionHypothesis =>
      obtain ⟨member, within⟩ := List.cons_subset.mp within
      refine explains_this.mpr fun self shown => ?_
      obtain rfl := LawfulController.eq_screen shown
      split
      · rename_i own
        refine Diagnosis.explains_unwrap.mpr ⟨fun unlinked => ?_, fun image found => ?_⟩
        · exact .update loaded member own unlinked
        · refine Diagnosis.explains_unwrap.mpr ⟨fun fails => ?_, fun url _ => ?_⟩
          · rw [URL.ofString_of_accepts (linked documents rfl document member image found)] at fails
            cases fails
          · refine explains_load (fun picture past target valid => ?_) ?_
            · exact explains_assign valid (fun _ _ => ⟨trivial, trivial⟩) fun _ _ => trivial
            · exact ⟨⟨trivial, trivial⟩, inductionHypothesis ⟨trivial, trivial⟩ within⟩
      · exact inductionHypothesis valid within

theorem explains_updateLoad :
    (diagnosis rules).Explains past UpdatePostingsViewController.viewDidLoad screen := by
  refine ⟨fun (snapshot : Option Snapshot) target linked valid => ?_, trivial⟩
  cases snapshot with
  | none => trivial
  | some documents => exact explains_fill linked rfl valid (List.Subset.refl _)

/-- What a load of postings delivers links to pictures. -/
theorem Illustrated.postings {documents : Snapshot} (linked : Illustrated rules (some documents)) :
    ∀ posting ∈ documents.map fun document => Upload.ofData document.2,
      Links rules posting.uimage := by
  intro posting member
  obtain ⟨document, listed, rfl⟩ := List.mem_map.mp member
  exact linked.links listed

theorem explains_marketLoad :
    (diagnosis rules).Explains past MarketPlaceViewController.loadFireBaseData screen := by
  refine ⟨fun (snapshot : Option Snapshot) target linked valid => ?_, trivial⟩
  cases snapshot with
  | none => trivial
  | some documents =>
      have links := Illustrated.postings linked
      exact explains_assign valid (fun _ _ => ⟨rfl, links, links⟩) fun _ _ => trivial

/-- Every segment shows postings that link to their pictures. -/
theorem segmentChanged_pictured {self : MarketPlaceViewController}
    (valid : PictureLinks rules (.market self)) :
    PictureLinks rules (.market self.segmentChanged) := by
  have selected : ∀ name posting,
      posting ∈ MarketPlaceViewController.filterArray self.uploadArray name →
      Links rules posting.uimage :=
    fun name posting member => valid.1 posting (List.mem_filter.mp member).1
  unfold MarketPlaceViewController.segmentChanged
  split
  · exact ⟨valid.1, valid.1⟩
  · split
    · exact ⟨valid.1, selected "Job"⟩
    · split
      · exact ⟨valid.1, selected "Rental"⟩
      · exact valid

/-- A row of the table has its entry, so that an index is never out of range. -/
theorem explains_row {Row Shown : Type} {table : List Shown} {rows : List Row} {row : Nat}
    {next : Row → Handler rules} (inStep : table.length = rows.length) (bound : row < table.length)
    (rest : ∀ found, rows[row]? = some found →
      (diagnosis rules).Explains past (next found) screen) :
    (diagnosis rules).Explains past (.unwrap rows[row]? .index next) screen := by
  refine Diagnosis.explains_unwrap.mpr ⟨fun missing => ?_, rest⟩
  have beyond := List.getElem?_eq_none_iff.mp missing
  omega

/-- The picture of a list entry stops only if there is no link to it yet. -/
theorem explains_link {image : String} {next : URL rules → Handler rules}
    (links : Links rules image) (unlinked : image = "" → Cause past screen .image)
    (rest : ∀ url, (diagnosis rules).Explains past (next url) screen) :
    (diagnosis rules).Explains past (.unwrap (URL.ofString rules image) .image next) screen :=
  Diagnosis.explains_unwrap.mpr
    ⟨fun fails => unlinked (links.eq_empty fails), fun url _ => rest url⟩

theorem explains_marketCell {self : MarketPlaceViewController} {row cell : Nat}
    (valid : Sane rules (.market self)) (asked : past.entry.input = .cellForRowAt row cell) :
    (diagnosis rules).Explains past (MarketPlaceViewController.cellForRowAt row cell)
      (.market self) := by
  refine explains_this.mpr fun now shown => ?_
  cases shown
  have inStep : self.table = self.postingArray := valid.inStep
  split
  · rename_i bound
    refine explains_row (by rw [inStep]) bound fun posting found => ?_
    have links := valid.pictured.2 posting (List.mem_of_getElem? found)
    refine ⟨⟨inStep, valid.pictured⟩, explains_link links (.marketRow asked found) fun url => ?_⟩
    refine explains_load (fun image past target valid => ?_) ⟨⟨inStep, valid.pictured⟩, trivial⟩
    exact explains_assign valid (fun _ kept => ⟨kept.inStep, kept.pictured⟩) fun _ _ => trivial
  · trivial

theorem explains_marketTap {self : MarketPlaceViewController} {row : Nat}
    (valid : Sane rules (.market self)) (tapped : past.entry.input = .didSelectRowAt row) :
    (diagnosis rules).Explains past (MarketPlaceViewController.didSelectRowAt row)
      (.market self) := by
  refine explains_this.mpr fun now shown => ?_
  cases shown
  have inStep : self.table = self.postingArray := valid.inStep
  split
  · rename_i bound
    have within : row < self.postingArray.length := inStep ▸ bound
    refine ⟨⟨inStep, valid.pictured⟩, ⟨within, valid.pictured.2⟩, ?_⟩
    refine explains_this.mpr fun detail shown => ?_
    cases shown
    refine explains_row rfl within fun posting found => ?_
    have links := valid.pictured.2 posting (List.mem_of_getElem? found)
    refine explains_link links (.detail tapped found) fun url => ?_
    refine explains_load (fun image past target valid => ?_) ⟨⟨within, valid.pictured.2⟩, trivial⟩
    exact explains_assign valid (fun _ kept => ⟨kept.inStep, kept.pictured⟩) fun _ _ => trivial
  · trivial

theorem explains_manageLoad :
    (diagnosis rules).Explains past ManagePostingsViewController.loadFireBaseData screen := by
  refine ⟨fun (snapshot : Option Snapshot) target linked valid => ?_, trivial⟩
  cases snapshot with
  | none => trivial
  | some documents =>
      refine explains_assign valid (fun _ _ => ⟨rfl, fun posting member => ?_⟩) fun _ _ => trivial
      obtain ⟨document, listed, rfl⟩ := List.mem_map.mp member
      exact Illustrated.links linked (List.mem_filter.mp listed).1

theorem explains_manageCell {self : ManagePostingsViewController} {row cell : Nat}
    (valid : Sane rules (.manage self)) (asked : past.entry.input = .cellForRowAt row cell) :
    (diagnosis rules).Explains past (ManagePostingsViewController.cellForRowAt row cell)
      (.manage self) := by
  refine explains_this.mpr fun now shown => ?_
  cases shown
  have inStep : self.table = self.manaageArray := valid.inStep
  split
  · rename_i bound
    refine explains_row (by rw [inStep]) bound fun posting found => ?_
    have links := valid.pictured posting (List.mem_of_getElem? found)
    refine ⟨⟨inStep, valid.pictured⟩, explains_link links (.manageRow asked found) fun url => ?_⟩
    refine explains_load (fun image past target valid => ?_) ⟨⟨inStep, valid.pictured⟩, trivial⟩
    exact explains_assign valid (fun _ kept => ⟨kept.inStep, kept.pictured⟩) fun _ _ => trivial
  · trivial

theorem explains_manageTap {self : ManagePostingsViewController} {row : Nat}
    (valid : Sane rules (.manage self)) :
    (diagnosis rules).Explains past (ManagePostingsViewController.didSelectRowAt row)
      (.manage self) := by
  refine explains_this.mpr fun now shown => ?_
  cases shown
  have inStep : self.table = self.manaageArray := valid.inStep
  split
  · rename_i bound
    refine explains_row (by rw [inStep]) bound fun posting found => ?_
    exact ⟨⟨inStep, valid.pictured⟩, ⟨trivial, trivial⟩, explains_updateLoad⟩
  · trivial

theorem explains_infoLoad :
    (diagnosis rules).Explains past InformationViewController.loadData screen := by
  refine ⟨fun (snapshot : Option Snapshot) target linked valid => ?_, trivial⟩
  cases snapshot with
  | none => trivial
  | some documents =>
      refine explains_assign valid (fun _ _ => ⟨rfl, fun item member => ?_⟩) fun _ _ => trivial
      obtain ⟨document, listed, rfl⟩ := List.mem_map.mp member
      exact Illustrated.links linked listed

theorem explains_infoCell {self : InformationViewController} {row cell : Nat}
    (valid : Sane rules (.info self)) (asked : past.entry.input = .cellForRowAt row cell) :
    (diagnosis rules).Explains past (InformationViewController.cellForRowAt row cell)
      (.info self) := by
  refine explains_this.mpr fun now shown => ?_
  cases shown
  have inStep : self.table = self.infoArray := valid.inStep
  split
  · rename_i bound
    refine explains_row (by rw [inStep]) bound fun item found => ?_
    have links := valid.pictured item (List.mem_of_getElem? found)
    refine ⟨⟨inStep, valid.pictured⟩, explains_link links (.infoRow asked found) fun url => ?_⟩
    refine explains_load (fun image past target valid => ?_) trivial
    refine explains_assign valid (fun _ kept => ⟨kept.inStep, kept.pictured⟩) fun _ valid => ?_
    exact explains_assign valid (fun _ kept => ⟨kept.inStep, kept.pictured⟩) fun _ _ => trivial
  · trivial

theorem explains_infoTap {self : InformationViewController} {row : Nat}
    (valid : Sane rules (.info self)) :
    (diagnosis rules).Explains past (InformationViewController.didSelectRowAt row)
      (.info self) := by
  refine explains_this.mpr fun now shown => ?_
  cases shown
  have inStep : self.table = self.infoArray := valid.inStep
  split
  · rename_i bound
    refine explains_row (by rw [inStep]) bound fun item found => ?_
    exact ⟨⟨inStep, valid.pictured⟩, ⟨trivial, trivial⟩, ⟨trivial, trivial⟩, trivial⟩
  · trivial

theorem explains_handle (valid : Sane rules screen) {input : Input}
    (began : past.entry.input = input) :
    (diagnosis rules).Explains past (screen.handle input) screen := by
  cases screen with
  | upload self =>
      cases input with
      | uploadButton currentUser => exact explains_uploadButton valid began
      | editTexts texts =>
          exact explains_assign valid (fun _ kept => ⟨trivial, kept.pictured⟩) fun _ _ => trivial
      | selectSegment index =>
          simp only [Screen.handle, UploadMarketPlaceViewController.handle]
          split
          · exact explains_assign valid (fun _ kept => ⟨trivial, kept.pictured⟩)
              fun _ _ => trivial
          · trivial
      | pick image =>
          exact explains_assign valid (fun _ _ => ⟨trivial, rfl⟩) fun _ _ => trivial
      | _ => trivial
  | market self =>
      cases input with
      | viewDidLoad => exact explains_marketLoad
      | viewWillAppear => exact explains_marketLoad
      | cellForRowAt row cell => exact explains_marketCell valid began
      | manageButton currentUser =>
          cases currentUser with
          | none => exact .unmanaged began
          | some user => trivial
      | didSelectRowAt row => exact explains_marketTap valid began
      | selectSegment index =>
          simp only [Screen.handle, MarketPlaceViewController.handle]
          split
          · refine explains_assign valid (fun now kept => ?_) fun _ _ => trivial
            exact ⟨segmentChanged_inStep kept.inStep, segmentChanged_pictured kept.pictured⟩
          · trivial
      | _ => trivial
  | manage self =>
      cases input with
      | viewDidLoad => exact explains_manageLoad
      | viewWillAppear => exact explains_manageLoad
      | cellForRowAt row cell => exact explains_manageCell valid began
      | didSelectRowAt row => exact explains_manageTap valid
      | _ => trivial
  | update self =>
      cases input with
      | updateButton => exact explains_updateButton began
      | confirmDelete => exact explains_confirmDelete began
      | editTexts texts =>
          exact explains_assign valid (fun _ _ => ⟨trivial, trivial⟩) fun _ _ => trivial
      | selectSegment index =>
          simp only [Screen.handle, UpdatePostingsViewController.handle]
          split
          · exact explains_assign valid (fun _ _ => ⟨trivial, trivial⟩) fun _ _ => trivial
          · trivial
      | pick image =>
          exact explains_assign valid (fun _ _ => ⟨trivial, trivial⟩) fun _ _ => trivial
      | _ => trivial
  | addInfo self =>
      cases input with
      | submitInfoButton => exact explains_submitInfoButton
      | editInfo titleInfo infoView =>
          exact explains_assign valid (fun _ _ => ⟨trivial, trivial⟩) fun _ _ => trivial
      | pick image =>
          exact explains_assign valid (fun _ _ => ⟨trivial, trivial⟩) fun _ _ => trivial
      | _ => trivial
  | info self =>
      cases input with
      | viewDidLoad => exact explains_infoLoad
      | cellForRowAt row cell => exact explains_infoCell valid began
      | didSelectRowAt row => exact explains_infoTap valid
      | _ => trivial
  | detail self => trivial
  | detailedInfo self => trivial

end Handlers

section Causes

variable {world : PostingsWorld rules} {events : List (Event (app rules) (firebase rules))}

/-- The backend answers as the diagnosis has it. -/
theorem reliable_of_reaches
    (reached : (system rules).Reaches (system rules).anyStep (start rules) world) :
    (diagnosis rules).Reliable world := by
  intro pending member response answered
  have responded := ((holds_of_reaches reached).pending pending member).answer response answered
  obtain ⟨self, past, request, completion, answer⟩ := pending
  cases request with
  | addDocument collection data => exact responded
  | getDocuments collection =>
      cases collection with
      | upload =>
          intro documents delivered document listed
          exact (responded documents delivered document listed).image
      | infoUpload => exact responded
      | users => trivial
  | _ => trivial

theorem root_sane (root : Root) : Sane rules root.screen := by
  cases root with
  | upload => exact ⟨trivial, rfl⟩
  | market => exact ⟨rfl, List.forall_mem_nil _, List.forall_mem_nil _⟩
  | manage currentUser => exact ⟨rfl, List.forall_mem_nil _⟩
  | addInfo => exact ⟨trivial, trivial⟩
  | info => exact ⟨rfl, List.forall_mem_nil _⟩

/-- In every run, each process that has stopped has stopped once, and one of its screens, an
input of it and the answers that followed show why: these are all the reasons. -/
theorem stopped_tabs_show_why
    (reached : (system rules).recording.Reaches (system rules).recording.anyStep
      (start rules, []) (world, events)) :
    (world.faults.map Prod.fst).Nodup ∧ ∀ process fault, (process, fault) ∈ world.faults →
      ∃ (past : Past (app rules)) (index : Nat) (screen : Screen),
        Diagnosis.Happened events world.acknowledged past ∧
        world.processOf past.entry.self = some process ∧
        world.objects[index]? = some ⟨process, screen⟩ ∧ Cause past screen fault := by
  have explained : (diagnosis rules).Explained events world := by
    refine Diagnosis.explained_of_recorded root_sane (fun past valid _ => ?_)
      reliable_of_reaches reached
    exact explains_handle valid rfl
  exact ⟨explained.once, fun process fault stopped => explained.faults (process, fault) stopped⟩

/-- A posting is submitted while nobody is signed in, and an information item without a
picture is added. -/
def stopping : List (Event (app anyText) (firebase anyText)) :=
  [.launch 0 .upload, .input 0 (.editTexts form), .input 0 (.selectSegment 0),
    .input 0 (.uploadButton none), .launch 1 .addInfo, .input 1 (.editInfo "Health" "Coverage"),
    .input 1 .submitInfoButton, .serve 0 (.name "i1"), .reply 0]

theorem stopped_tabs_show_why_twice :
    ∃ (world : PostingsWorld anyText) (events : List (Event (app anyText) (firebase anyText))),
      world.faults = [(1, .imageView), (0, .currentUser)] ∧
        ∀ process fault, (process, fault) ∈ world.faults →
          ∃ (past : Past (app anyText)) (index : Nat) (screen : Screen),
            Diagnosis.Happened events world.acknowledged past ∧
            world.processOf past.entry.self = some process ∧
            world.objects[index]? = some ⟨process, screen⟩ ∧ Cause past screen fault := by
  obtain ⟨⟨world, events⟩, reached, stopped⟩ := Machine.exists_reaches
    (m := (system anyText).recording) (system anyText).recording.anyStep (start anyText, [])
    stopping (fun state => state.1.faults == [(1, .imageView), (0, .currentUser)])
    (by decide +kernel)
  exact ⟨world, events, beq_iff_eq.mp stopped, (stopped_tabs_show_why reached).2⟩

end Causes

end Postings

end Gbc
