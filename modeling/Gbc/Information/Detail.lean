import Gbc.Callback.Slots
import Gbc.Market.Taps

/-!
# The information detail screen

A tap on the information list passes on the texts of the tapped row and the picture in
`infoImage`, which the image loads of all rows overwrite in the order in which they
complete. The detail screen therefore shows the tapped row's own picture exactly when
the load that completed last delivered it. The backend is arbitrary.
-/

namespace Gbc

open Callback Handler World

variable {rules : URLRules}

namespace Postings

variable {service : Service (remote rules)}

/-- The image load of a cell of the information list, with what it delivered. -/
def imageLoaded (past : Past (app rules)) (exchange : Exchange (remote rules)) :
    Option (URL rules × Option UIImage) :=
  match past.entry.object, past.entry.input, exchange with
  | .info _, .cellForRowAt _ _, ⟨.loadFrom url, (image : Option UIImage)⟩ => some (url, image)
  | _, _, _ => none

/-- The documents that a load of the information list delivered. -/
def documentsDelivered (past : Past (app rules)) (exchange : Exchange (remote rules)) :
    Option Snapshot :=
  match past.entry.object, past.entry.input, exchange with
  | .info _, .viewDidLoad, ⟨.getDocuments _, (some documents : Option Snapshot)⟩ =>
      some documents
  | _, _, _ => none

/-- A property of the information list, written by operations of its own. -/
abbrev infoSlot {Value : Type} (read : InformationViewController → Value)
    (writes : Past (app rules) → Exchange (remote rules) → Option Value) : Slot (app rules) where
  frame := openings
  owner screen := screen.opening = .info
  Value := Value
  holds value
    | .info self => read self = value
    | _ => True
  initial := read .opened
  writes := writes

/-- `infoImage`, written by the image loads of all cells. -/
abbrev infoImage (rules : URLRules) : Slot (app rules) :=
  infoSlot (·.infoImage) fun past exchange => (imageLoaded past exchange).map Prod.snd

/-- `infoArray`, written by the loads of the documents. -/
abbrev infoArray (rules : URLRules) : Slot (app rules) :=
  infoSlot (·.infoArray) fun past exchange =>
    (documentsDelivered past exchange).map (List.map fun document => Info.ofData document.2)

/-- A property which the handlers change in the completion handlers of the loads of
documents and images only. -/
theorem infoSlot_sound {Value : Type} {read : InformationViewController → Value}
    {writes : Past (app rules) → Exchange (remote rules) → Option Value}
    (quiet : ∀ (self : InformationViewController) cells detailInfo detailTitle,
      read { self with cells, detailInfo, detailTitle } = read self)
    (load : ∀ (past : Past (app rules)) (screen now : InformationViewController)
      (snapshot : Option Snapshot), past.entry.object = .info screen →
      past.entry.input = .viewDidLoad →
      (InformationViewController.documentsLoaded snapshot : Handler rules).Ends
        ((infoSlot read writes).holds
          ((writes past ⟨.getDocuments .infoUpload, snapshot⟩).getD (read now))) (.info now))
    (loadFrom : ∀ (past : Past (app rules)) (screen now : InformationViewController) row cell
      (url : URL rules) cells (image : Option UIImage), past.entry.object = .info screen →
      past.entry.input = .cellForRowAt row cell →
      read { now with cells, infoImage := image } =
        (writes past ⟨.loadFrom url, image⟩).getD (read now)) :
    (infoSlot read writes).Sound where
  steady input screen := Screen.steady_handle screen input
  owner kept := openings_iff (· = .info) kept
  made screen pushed owns := by
    have opened : screen.opening.pushed := pushed
    rw [owns] at opened
    exact opened
  root root owns := by
    cases root with
    | info => rfl
    | _ => trivial
  input past start owns := by
    obtain ⟨⟨serial, self, input, object⟩, trail⟩ := past
    cases object with
    | info screen =>
        cases input with
        | viewDidLoad =>
            refine ⟨fun _ held => held, fun snapshot target same => ?_, trivial⟩
            cases target with
            | info now =>
                refine ⟨?_, by cases snapshot <;> trivial⟩
                rintro _ rfl
                exact load _ screen now snapshot rfl rfl
            | _ => cases same
        | cellForRowAt row cell =>
            simp only [Code.Ends, Slot.Respects, Screen.handle, InformationViewController.handle,
              InformationViewController.cellForRowAt, this, Controller.ofScreen]
            split
            · refine ⟨fun _ held => Slot.ends_unwrap fun item _ => Slot.ends_unwrap fun url _ =>
                (quiet screen _ _ _).trans held, ?_⟩
              refine Slot.respects_unwrap fun item _ => Slot.respects_unwrap fun url _ => ?_
              refine ⟨fun image target same => ?_, trivial⟩
              cases target with
              | info now =>
                  refine ⟨?_, trivial⟩
                  rintro _ rfl
                  exact loadFrom _ screen now row cell url _ image rfl rfl
              | _ => cases same
            · exact ⟨fun _ held => held, trivial⟩
        | didSelectRowAt row =>
            simp only [Code.Ends, Slot.Respects, Screen.handle, InformationViewController.handle,
              InformationViewController.didSelectRowAt, this, Controller.ofScreen]
            split
            · exact ⟨fun _ held => Slot.ends_unwrap fun item _ => (quiet screen _ _ _).trans held,
                Slot.respects_unwrap fun item _ => trivial⟩
            · exact ⟨fun _ held => held, trivial⟩
        | _ => exact ⟨fun _ held => held, trivial⟩
    | _ => cases owns

theorem infoImage_sound : (infoImage rules).Sound := by
  refine infoSlot_sound (fun _ _ _ _ => rfl) ?_ ?_
  · rintro ⟨⟨serial, self, input, object⟩, trail⟩ screen now (_ | documents) rfl rfl <;> rfl
  · rintro ⟨⟨serial, self, input, object⟩, trail⟩ screen now row cell url cells image rfl rfl
    rfl

theorem infoArray_sound : (infoArray rules).Sound := by
  refine infoSlot_sound (fun _ _ _ _ => rfl) ?_ ?_
  · rintro ⟨⟨serial, self, input, object⟩, trail⟩ screen now (_ | documents) rfl rfl <;> rfl
  · rintro ⟨⟨serial, self, input, object⟩, trail⟩ screen now row cell url cells image rfl rfl
    rfl

section Taps

variable {server : service.State} {world : World (app rules) service} {index process row : Nat}
  {self : InformationViewController}

/-- The image loads of a screen that have completed, newest first. -/
def completedLoads (world : World (app rules) service) (index : Nat) :
    List (URL rules × Option UIImage) :=
  world.acknowledged.filterMap fun handled =>
    if handled.1.entry.self = index then imageLoaded handled.1 handled.2 else none

/-- The documents that were last delivered to a screen. -/
def lastDocuments (world : World (app rules) service) (index : Nat) : Snapshot :=
  (world.acknowledged.findSome? fun handled =>
    if handled.1.entry.self = index then documentsDelivered handled.1 handled.2
    else none).getD []

/-- A completed load of the picture of this item has delivered this image. -/
def Delivered (loads : List (URL rules × Option UIImage)) (item : Info) (image : UIImage) :
    Prop :=
  ∃ url, URL.ofString rules item.uImage = some url ∧ (url, some image) ∈ loads

/-- The picture of an item, if that has been loaded, and otherwise no picture. -/
structure OwnPicture (loads : List (URL rules × Option UIImage)) (item : Info)
    (shown : Option UIImage) : Prop where
  own : ∀ image, shown = some image → Delivered loads item image
  loaded : ∀ image, Delivered loads item image → shown.isSome = true

/-- The load that completed last delivered the picture of this item; or no load of that
picture has delivered one, and the last load has not delivered another. -/
def LastLoadFits (loads : List (URL rules × Option UIImage)) (item : Info) : Prop :=
  match loads with
  | (_, some image) :: _ => Delivered loads item image
  | _ => ∀ image, ¬ Delivered loads item image

/-- What `infoImage` holds is what the last load delivered. -/
theorem infoImage_eq
    (reached : (World.machine (app rules) service).Reaches (Machine.anyStep _)
      (.initial _ server) world)
    (placed : world.objects[index]? = some ⟨process, .info self⟩)
    (runs : world.crashed process = false) :
    self.infoImage = (completedLoads world index).head?.bind Prod.snd := by
  have slotted := slotted_of_reachable infoImage_sound reached
  have value : self.infoImage = (world.lastWrite (infoImage rules) index).getD none :=
    slotted.value index _ placed rfl runs
  rw [value, lastWrite_map (fun _ _ => rfl), completedLoads, List.head?_filterMap]
  cases world.acknowledged.findSome? _ <;> rfl

/-- The rows of the list are the documents that were last delivered. -/
theorem infoArray_eq
    (reached : (World.machine (app rules) service).Reaches (Machine.anyStep _)
      (.initial _ server) world)
    (placed : world.objects[index]? = some ⟨process, .info self⟩)
    (runs : world.crashed process = false) :
    self.infoArray = (lastDocuments world index).map fun document => Info.ofData document.2 := by
  have slotted := slotted_of_reachable infoArray_sound reached
  have value : self.infoArray = (world.lastWrite (infoArray rules) index).getD [] :=
    slotted.value index _ placed rfl runs
  rw [value, lastWrite_map (fun _ _ => rfl), lastDocuments]
  cases world.acknowledged.findSome? _ <;> rfl

/-- The detail screen that a tap on a row opens, after it has loaded. -/
theorem step_infoTap {item : Info} (placed : world.objects[index]? = some ⟨process, .info self⟩)
    (runs : world.crashed process = false) (displayed : row < self.table.length)
    (indexed : self.infoArray[row]? = some item) :
    ∃ next, world.step (.input index (.didSelectRowAt row)) = some next ∧
      next.objects[world.objects.length]? = some ⟨process, .detailedInfo
        { DetailedInfoViewController.prepared item.title item.info self.infoImage with
          detailTextView := item.title
          titleLabel := ""
          detailedImageView := self.infoImage }⟩ := by
  refine ⟨_, by simp only [World.step, placed, runs]; rfl, ?_⟩
  simp [World.exec, Screen.handle, InformationViewController.handle,
    InformationViewController.didSelectRowAt, this, assign, Controller.ofScreen, Controller.screen,
    displayed, indexed, DetailedInfoViewController.viewDidLoad, World.setObject,
    DetailedInfoViewController.prepared]

/-- A detail screen shows the texts of a document, and its picture if that has been
loaded. -/
structure ShowsItem (loads : List (URL rules × Option UIImage)) (data : Doc)
    (detail : DetailedInfoViewController) : Prop where
  description : detail.detailTextView = data.text "Description"
  title : detail.title = data.text "Title-Info"
  picture : OwnPicture loads (Info.ofData data) detail.detailedImageView

/-- The picture of the last load is the item's own exactly when that load fits. -/
theorem ownPicture_iff (loads : List (URL rules × Option UIImage)) (item : Info) :
    OwnPicture loads item (loads.head?.bind Prod.snd) ↔ LastLoadFits loads item := by
  have absent : OwnPicture loads item none ↔ ∀ image, ¬ Delivered loads item image := by
    constructor
    · intro valid image delivered
      cases valid.loaded image delivered
    · intro missing
      exact ⟨nofun, fun image delivered => absurd delivered (missing image)⟩
  cases loads with
  | nil => exact absent
  | cons last older =>
      obtain ⟨url, response⟩ := last
      cases response with
      | none => exact absent
      | some image =>
          constructor
          · intro valid
            exact valid.own image rfl
          · intro delivered
            refine ⟨fun other same => ?_, fun _ _ => rfl⟩
            cases same
            exact delivered

/-- A tap on a displayed row opens a detail screen with the texts of its document, and
with its own picture or none exactly when the last image load fits. -/
theorem detail_shows_tapped_item
    (reached : (World.machine (app rules) service).Reaches (Machine.anyStep _)
      (.initial _ server) world)
    (placed : world.objects[index]? = some ⟨process, .info self⟩)
    (runs : world.crashed process = false) (displayed : row < self.table.length) :
    ∃ next detail document,
      world.step (.input index (.didSelectRowAt row)) = some next ∧
      next.objects[world.objects.length]? = some ⟨process, .detailedInfo detail⟩ ∧
      (lastDocuments world index)[row]? = some document ∧
      detail.detailTextView = document.2.text "Description" ∧
      detail.title = document.2.text "Title-Info" ∧
      (ShowsItem (completedLoads world index) document.2 detail ↔
        LastLoadFits (completedLoads world index) (Info.ofData document.2)) := by
  have same : self.table = self.infoArray :=
    (tables_of_reaches reached).objects _ (List.mem_of_getElem? placed)
  have rows := infoArray_eq reached placed runs
  have bound : row < (lastDocuments world index).length := by
    have length := displayed
    rw [same, rows, List.length_map] at length
    exact length
  let document := (lastDocuments world index)[row]
  have indexed : self.infoArray[row]? = some (Info.ofData document.2) := by
    rw [rows, List.getElem?_map, List.getElem?_eq_getElem bound]
    rfl
  obtain ⟨next, taken, opened⟩ := step_infoTap placed runs displayed indexed
  refine ⟨next, _, document, taken, opened, List.getElem?_eq_getElem bound, rfl, rfl, ?_⟩
  rw [← ownPicture_iff, ← infoImage_eq reached placed runs]
  exact ⟨fun shows => shows.picture, fun picture => ⟨rfl, rfl, picture⟩⟩

end Taps

section Schedules

/-- The picture of the first item. -/
def health : UIImage := ⟨"health", true⟩

/-- The picture of the second item. -/
def housing : UIImage := ⟨"housing", true⟩

/-- Screen 0 publishes an item with this picture under this ID and URL. -/
def publishingItem (title : String) (image : UIImage) (document : String) (url : URL anyText) :
    List (Event (app anyText) (firebase anyText)) :=
  [.input 0 (.editInfo title title), .input 0 (.pick image), .input 0 .submitInfoButton,
    .serve 0 (.name document), .reply 0, .serve 0 (.token url), .reply 0, .serve 0 .ok, .reply 0,
    .serve 0 .ok, .reply 0]

/-- Two items are published and screen 1 lists them; the picture of row 0 is loaded
first, that of row 1 last. -/
def listingItems : List (Event (app anyText) (firebase anyText)) :=
  [.launch 0 .addInfo] ++ publishingItem "Health" health "i1" firstURL ++
    publishingItem "Housing" housing "i2" secondURL ++
    [.launch 1 .info, .input 1 .viewDidLoad, .serve 0 .ok, .reply 0,
      .input 1 (.cellForRowAt 0 0), .input 1 (.cellForRowAt 1 1),
      .serve 0 (.image health), .reply 0, .serve 0 (.image housing), .reply 0]

/-- Screen 1 is a running information list, and its last load delivered the picture of
the second item. -/
def listed (world : PostingsWorld anyText) : Bool :=
  match (world.objects[1]? : Option (Instance (app anyText))) with
  | some ⟨1, .info self⟩ =>
      !world.crashed 1 && self.table.length == 2 &&
        completedLoads world 1 == [(secondURL, some housing), (firstURL, some health)] &&
        (lastDocuments world 1)[0]?.any fun document => document.2.text "Image" == firstURL.string
  | _ => false

/-- Such a list can be reached. -/
theorem exists_listed : ∃ (world : PostingsWorld anyText) (self : InformationViewController),
    (system anyText).Reaches (Machine.anyStep _) (start anyText) world ∧
      world.objects[1]? = some ⟨1, .info self⟩ ∧ world.crashed 1 = false ∧
      self.table.length = 2 ∧
      completedLoads world 1 = [(secondURL, some housing), (firstURL, some health)] ∧
      ∀ document, (lastDocuments world 1)[0]? = some document →
        document.2.text "Image" = firstURL.string := by
  obtain ⟨world, reached, shown⟩ := Machine.exists_reaches (m := system anyText)
    (Machine.anyStep _) (start anyText) listingItems listed (by decide +kernel)
  unfold listed at shown
  split at shown
  · rename_i self placed
    simp only [Bool.and_eq_true, Bool.not_eq_true', beq_iff_eq] at shown
    obtain ⟨⟨⟨runs, rows⟩, loads⟩, first⟩ := shown
    refine ⟨world, self, reached, placed, runs, rows, loads, fun document found => ?_⟩
    rw [found] at first
    exact beq_iff_eq.mp first
  · cases shown

/-- The second row, whose picture was loaded last, is tapped. -/
theorem detail_shows_tapped_item_last :
    ∃ (world : PostingsWorld anyText) (self : InformationViewController),
      world.objects[1]? = some ⟨1, .info self⟩ ∧
      ∃ next detail document,
        world.step (.input 1 (.didSelectRowAt 1)) = some next ∧
        next.objects[world.objects.length]? = some ⟨1, .detailedInfo detail⟩ ∧
        (lastDocuments world 1)[1]? = some document ∧
        detail.detailTextView = document.2.text "Description" ∧
        detail.title = document.2.text "Title-Info" ∧
        (ShowsItem (completedLoads world 1) document.2 detail ↔
          LastLoadFits (completedLoads world 1) (Info.ofData document.2)) := by
  obtain ⟨world, self, reached, placed, runs, rows, _⟩ := exists_listed
  exact ⟨world, self, placed, detail_shows_tapped_item reached placed runs (by omega)⟩

/-- The first row is tapped after the picture of the second one was loaded. -/
theorem detail_shows_other_picture :
    ¬ ∀ (rules : URLRules) (service : Service (remote rules)) (server : service.State)
        (world : World (app rules) service) (index process row : Nat)
        (self : InformationViewController),
      (World.machine (app rules) service).Reaches (Machine.anyStep _) (.initial _ server) world →
      world.objects[index]? = some ⟨process, .info self⟩ → world.crashed process = false →
      row < self.table.length →
      ∃ next detail document,
        world.step (.input index (.didSelectRowAt row)) = some next ∧
        next.objects[world.objects.length]? = some ⟨process, .detailedInfo detail⟩ ∧
        (lastDocuments world index)[row]? = some document ∧
        ShowsItem (completedLoads world index) document.2 detail := by
  intro shows
  obtain ⟨world, self, reached, placed, runs, rows, loads, first⟩ := exists_listed
  obtain ⟨next, detail, document, taken, opened, found, valid⟩ :=
    shows _ _ _ world 1 1 0 self reached placed runs (by omega)
  have image : self.infoImage = some housing := by
    rw [infoImage_eq reached placed runs, loads]
    rfl
  have same : self.table = self.infoArray :=
    (tables_of_reaches reached).objects _ (List.mem_of_getElem? placed)
  obtain ⟨item, indexed⟩ : ∃ item, self.infoArray[0]? = some item := by
    rw [same] at rows
    exact ⟨_, List.getElem?_eq_getElem (by omega)⟩
  obtain ⟨next', taken', opened'⟩ := step_infoTap placed runs (by omega) indexed
  obtain rfl := Option.some.inj (taken.symm.trans taken')
  cases opened.symm.trans opened'
  obtain ⟨url, parsed, member⟩ := valid.picture.own housing image
  have own : url = firstURL := by
    have decoded : (Info.ofData document.2).uImage = firstURL.string := first document found
    rw [decoded, URL.ofString_string] at parsed
    exact (Option.some.inj parsed).symm
  rw [loads, own] at member
  revert member
  decide

end Schedules

end Postings

end Gbc
