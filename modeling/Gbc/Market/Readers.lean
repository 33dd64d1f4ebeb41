import Gbc.Market.Writers

/-!
# The reading screens

Handlers of `MarketPlaceViewController`, `DetailViewController`,
`ManagePostingsViewController`, `InformationViewController` and
`DetailedInfoViewController`. A table view asks for cells and reports taps only
for rows it was told to display.
-/

namespace Gbc

open Callback Handler

variable {rules : URLRules}

/-- Change one cell of a table, which UIKit may have created for this purpose. -/
def modifyCell {Cell : Type} (cells : List Cell) (blank : Cell) (index : Nat)
    (change : Cell → Cell) : List Cell :=
  (cells ++ List.replicate (index + 1 - cells.length) blank).modify index change

namespace DetailViewController

/-- The screen as `prepare(for:sender:)` of the market place hands it over. -/
def prepared (array : List Upload) (index : Nat) : DetailViewController where
  array := array
  index := index
  imageDisplay := none
  titleDisplay := ""
  posterName := ""
  location := ""
  amount := ""
  contactNumber := ""
  detailsDesc := ""
  loaded := false

def viewDidLoad : Handler rules :=
  this fun self : DetailViewController =>
  .unwrap self.array[self.index]? .index fun posting =>
  .unwrap (URL.ofString rules posting.uimage) .image fun url =>
  .call (.loadFrom url)
    (fun (imageToDisplay : Option UIImage) =>
      assign (fun screen : DetailViewController =>
        { screen with imageDisplay := imageToDisplay }) .done) <|
  assign (fun screen : DetailViewController =>
    { screen with
      titleDisplay := posting.title
      posterName := posting.pName
      location := posting.loc
      amount := posting.amount
      detailsDesc := posting.desc
      contactNumber := posting.mNumber
      loaded := true }) .done

end DetailViewController

namespace MarketPlaceViewController

/-- The screen as the storyboard opens it: no segment is selected. -/
def opened : MarketPlaceViewController where
  filterSegment := -1
  postingArray := []
  uploadArray := []
  i := 0
  table := []
  cells := []
  loaded := none

/-- `filterArray(name:)` over `uploadArray`. -/
def filterArray (uploadArray : List Upload) (name : String) : List Upload :=
  uploadArray.filter fun a => a.title == name

/-- The completion handler of `loadFireBaseData`. -/
def documentsLoaded (snapshot : Option Snapshot) : Handler rules :=
  match snapshot with
  | none => .done
  | some documents =>
      assign (fun screen : MarketPlaceViewController =>
        { screen with
          uploadArray := documents.map fun document => Upload.ofData document.2
          postingArray := documents.map fun document => Upload.ofData document.2
          table := documents.map fun document => Upload.ofData document.2
          loaded := some documents }) .done

def loadFireBaseData : Handler rules :=
  .call (.getDocuments .upload) documentsLoaded .done

def viewDidLoad : Handler rules := loadFireBaseData

def viewWillAppear : Handler rules := loadFireBaseData

/-- Show another list of postings and reload the table. -/
def display (self : MarketPlaceViewController) (postingArray : List Upload) :
    MarketPlaceViewController :=
  { self with postingArray := postingArray, table := postingArray }

def segmentChanged (self : MarketPlaceViewController) : MarketPlaceViewController :=
  if self.filterSegment = 2 then self.display self.uploadArray
  else if self.filterSegment = 0 then self.display (filterArray self.uploadArray "Job")
  else if self.filterSegment = 1 then self.display (filterArray self.uploadArray "Rental")
  else self

/-- Change one cell of the table. -/
def assignCell (cell : Nat) (change : TableViewCell → TableViewCell) (next : Handler rules) :
    Handler rules :=
  assign (fun screen : MarketPlaceViewController =>
    { screen with cells := modifyCell screen.cells ⟨"", "", "", none⟩ cell change }) next

def cellForRowAt (row cell : Nat) : Handler rules :=
  this fun self : MarketPlaceViewController =>
    if row < self.table.length then
      .unwrap self.postingArray[row]? .index fun posting =>
      assignCell cell (fun shown => { shown with jobTitle := posting.title }) <|
      .unwrap (URL.ofString rules posting.uimage) .image fun url =>
      .call (.loadFrom url)
        (fun (i : Option UIImage) =>
          assignCell cell (fun shown => { shown with imagePosting := i }) .done) <|
      assignCell cell (fun shown =>
        { shown with
          salary :=
            if posting.title = "Job" then posting.amount ++ " $/Hour"
            else posting.amount ++ " $/Month"
          location := "Location : " ++ posting.loc }) .done
    else .done

def didSelectRowAt (row : Nat) : Handler rules :=
  this fun self : MarketPlaceViewController =>
    if row < self.table.length then
      assign (fun screen : MarketPlaceViewController => { screen with i := row }) <|
      .present (.detail (.prepared self.postingArray row)) DetailViewController.viewDidLoad
    else .done

/-- The segue to the Manage screen, a property of which starts as `Auth.auth().currentUser!`.
Where somebody is signed in, `Root.manage` opens the screen. -/
def manageButton (currentUser : Option User) : Handler rules :=
  .unwrap currentUser .currentUser fun _ => .done

end MarketPlaceViewController

namespace ManagePostingsViewController

/-- The screen as it opens for the user then signed in. -/
def opened (currentUser : User) : ManagePostingsViewController where
  currentUser := currentUser
  manaageArray := []
  documentID := ""
  shown := []
  table := []
  cells := []

/-- The documents of a snapshot that `loadFireBaseData` keeps. -/
def owned (self : ManagePostingsViewController) (documents : Snapshot) : Snapshot :=
  documents.filter fun document => self.currentUser.uid == document.2.text "User"

/-- The completion handler of `loadFireBaseData`. -/
def documentsLoaded (snapshot : Option Snapshot) : Handler rules :=
  match snapshot with
  | none => .done
  | some documents =>
      assign (fun screen : ManagePostingsViewController =>
        { screen with
          manaageArray := (screen.owned documents).map fun document => Upload.ofData document.2
          shown := screen.owned documents
          table := (screen.owned documents).map fun document => Upload.ofData document.2 }) .done

def loadFireBaseData : Handler rules :=
  .call (.getDocuments .upload) documentsLoaded .done

def viewDidLoad : Handler rules := loadFireBaseData

def viewWillAppear : Handler rules := loadFireBaseData

/-- Change one cell of the table. -/
def assignCell (cell : Nat) (change : ManageTableViewCell → ManageTableViewCell)
    (next : Handler rules) : Handler rules :=
  assign (fun screen : ManagePostingsViewController =>
    { screen with cells := modifyCell screen.cells ⟨"", "", "", none⟩ cell change }) next

def cellForRowAt (row cell : Nat) : Handler rules :=
  this fun self : ManagePostingsViewController =>
    if row < self.table.length then
      .unwrap self.manaageArray[row]? .index fun posting =>
      assignCell cell (fun shown => { shown with manageTitle := posting.title }) <|
      .unwrap (URL.ofString rules posting.uimage) .image fun url =>
      .call (.loadFrom url)
        (fun (i : Option UIImage) =>
          assignCell cell (fun shown => { shown with manageImageView := i }) .done) <|
      assignCell cell (fun shown =>
        { shown with
          manageSalary :=
            if posting.title = "Job" then "Salary : " ++ posting.amount ++ " $/hr"
            else "Salary : " ++ posting.amount ++ " $/month"
          manageLocation := "Location : " ++ posting.loc }) .done
    else .done

/-- `didSelectRowAt` with the segue it performs. The history variable `opened`
names the document behind the tapped row. -/
def didSelectRowAt (row : Nat) : Handler rules :=
  this fun self : ManagePostingsViewController =>
    if row < self.table.length then
      .unwrap self.manaageArray[row]? .index fun posting =>
      assign (fun screen : ManagePostingsViewController =>
        { screen with documentID := posting.refNo }) <|
      .present
        (.update (.prepared posting.refNo self.currentUser
          ((self.shown[row]?.map (·.1)).getD "")))
        UpdatePostingsViewController.viewDidLoad
    else .done

end ManagePostingsViewController

namespace DetailedInfoViewController

/-- The screen as `prepare(for:sender:)` of the information tab hands it over:
`detail` keeps its default. -/
def prepared (info title : String) (selectedImage : Option UIImage) :
    DetailedInfoViewController where
  info := info
  title := title
  detail := ""
  selectedImage := selectedImage
  detailTextView := ""
  titleLabel := ""
  detailedImageView := none

def viewDidLoad : Handler rules :=
  assign (fun self : DetailedInfoViewController =>
    { self with
      detailTextView := self.info
      titleLabel := self.detail
      detailedImageView := self.selectedImage }) .done

end DetailedInfoViewController

namespace InformationViewController

/-- The screen as the storyboard opens it. -/
def opened : InformationViewController where
  infoImage := none
  detailInfo := ""
  detailTitle := ""
  infoArray := []
  table := []
  cells := []

/-- The completion handler of `loadData`. -/
def documentsLoaded (snapshot : Option Snapshot) : Handler rules :=
  match snapshot with
  | none => .done
  | some documents =>
      assign (fun screen : InformationViewController =>
        { screen with
          infoArray := documents.map fun document => Info.ofData document.2
          table := documents.map fun document => Info.ofData document.2 }) .done

def loadData : Handler rules :=
  .call (.getDocuments .infoUpload) documentsLoaded .done

def viewDidLoad : Handler rules := loadData

/-- Change one cell of the table. -/
def assignCell (cell : Nat) (change : InfoTableViewCell → InfoTableViewCell)
    (next : Handler rules) : Handler rules :=
  assign (fun screen : InformationViewController =>
    { screen with cells := modifyCell screen.cells ⟨"", "", none⟩ cell change }) next

def cellForRowAt (row cell : Nat) : Handler rules :=
  this fun self : InformationViewController =>
    if row < self.table.length then
      .unwrap self.infoArray[row]? .index fun item =>
      assignCell cell (fun shown =>
        { shown with infoTextView := item.title, titleTextField := item.info }) <|
      .unwrap (URL.ofString rules item.uImage) .image fun url =>
      .call (.loadFrom url)
        (fun (i : Option UIImage) =>
          assignCell cell (fun shown => { shown with infoImageView := i }) <|
          assign (fun screen : InformationViewController =>
            { screen with infoImage := i }) .done) .done
    else .done

def didSelectRowAt (row : Nat) : Handler rules :=
  this fun self : InformationViewController =>
    if row < self.table.length then
      .unwrap self.infoArray[row]? .index fun item =>
      assign (fun screen : InformationViewController =>
        { screen with detailInfo := item.info, detailTitle := item.title }) <|
      .present (.detailedInfo (.prepared item.title item.info self.infoImage))
        DetailedInfoViewController.viewDidLoad
    else .done

end InformationViewController

end Gbc
