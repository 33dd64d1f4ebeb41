import Gbc.Platform.Controller

/-!
# Screens of the market place and information tabs

The view controllers, by the state their handlers read and write: outlets by
what they show, stored properties by their values. `table` is the list of rows a
table view was last told to display, `cells` are its reusable cells.
-/

namespace Gbc

/-- A posting as the readers decode it. -/
structure Upload where
  amount : String
  loc : String
  title : String
  pName : String
  desc : String
  uimage : String
  mNumber : String
  user : String
  refNo : String
  deriving DecidableEq

/-- The decoder of `MarketPlaceViewController.loadFireBaseData` and of
`ManagePostingsViewController.loadFireBaseData`. -/
def Upload.ofData (data : Doc) : Upload where
  pName := data.text "Poster-Name"
  amount := data.text "Amount"
  loc := data.text "Location"
  title := data.text "Title"
  desc := data.text "Description"
  uimage := data.text "Image"
  mNumber := data.text "Mobile-Number"
  user := data.text "User"
  refNo := data.text "Ref"

/-- An information item as `InformationViewController.loadData` decodes it. -/
structure Info where
  info : String
  title : String
  uImage : String
  deriving DecidableEq

/-- The decoder of `InformationViewController.loadData`. -/
def Info.ofData (data : Doc) : Info where
  info := data.text "Title-Info"
  title := data.text "Description"
  uImage := data.text "Image"

/-- The text fields of the two posting forms. -/
structure PostingTexts where
  posterName : String
  location : String
  amount : String
  mobileNumber : String
  uploadDesc : String
  deriving DecidableEq

/-- The form texts of a document, as `UpdatePostingsViewController` fills them in. -/
def PostingTexts.ofData (data : Doc) : PostingTexts where
  posterName := data.text "Poster-Name"
  amount := data.text "Amount"
  uploadDesc := data.text "Description"
  location := data.text "Location"
  mobileNumber := data.text "Mobile-Number"

/-- The check both posting forms make before they write. -/
def PostingTexts.incomplete (texts : PostingTexts) (segment : Int) : Bool :=
  segment == -1 || texts.posterName == "" || texts.location == "" || texts.amount == "" ||
    texts.uploadDesc == "" || texts.mobileNumber == ""

/-- `UploadMarketPlaceViewController`. -/
structure UploadMarketPlaceViewController where
  imageView : Option UIImage
  segment : Int
  texts : PostingTexts
  uploadTitle : String

/-- A cell of the market place table. -/
structure TableViewCell where
  jobTitle : String
  salary : String
  location : String
  imagePosting : Option UIImage

/-- `MarketPlaceViewController`. `loaded` is a history variable: the last snapshot
that was delivered to it. -/
structure MarketPlaceViewController where
  filterSegment : Int
  postingArray : List Upload
  uploadArray : List Upload
  i : Nat
  table : List Upload
  cells : List TableViewCell
  loaded : Option Snapshot

/-- `DetailViewController`. `loaded` is a history variable: `viewDidLoad` has set the
labels. -/
structure DetailViewController where
  array : List Upload
  index : Nat
  imageDisplay : Option UIImage
  titleDisplay : String
  posterName : String
  location : String
  amount : String
  contactNumber : String
  detailsDesc : String
  loaded : Bool

/-- A cell of the manage table. -/
structure ManageTableViewCell where
  manageTitle : String
  manageSalary : String
  manageLocation : String
  manageImageView : Option UIImage

/-- `ManagePostingsViewController`. `shown` is a history variable: the documents
that the entries of `manaageArray` were decoded from. -/
structure ManagePostingsViewController where
  currentUser : User
  manaageArray : List Upload
  documentID : String
  shown : Snapshot
  table : List Upload
  cells : List ManageTableViewCell

/-- `UpdatePostingsViewController`. History variables: `user` is the user of the
Manage screen it was opened from, `opened` the ID of the document behind the
tapped row, `source` the document whose fields the form shows, if any, `picked` the
last photo picked, and `presses` that photo at each press of Update, newest first. -/
structure UpdatePostingsViewController where
  docPath : String
  imageView : Option UIImage
  segmentControl : Int
  texts : PostingTexts
  titleUpdate : String
  user : User
  opened : String
  source : Option (String × Doc)
  picked : Option UIImage
  presses : List (Option UIImage)

/-- `AddInfoViewController`. -/
structure AddInfoViewController where
  image : Option UIImage
  titleInfo : String
  infoView : String

/-- A cell of the information table. -/
structure InfoTableViewCell where
  infoTextView : String
  titleTextField : String
  infoImageView : Option UIImage

/-- `InformationViewController`, without its constant table of web links. -/
structure InformationViewController where
  infoImage : Option UIImage
  detailInfo : String
  detailTitle : String
  infoArray : List Info
  table : List Info
  cells : List InfoTableViewCell

/-- `DetailedInfoViewController`; `title` is the title of the navigation bar. -/
structure DetailedInfoViewController where
  info : String
  title : String
  detail : String
  selectedImage : Option UIImage
  detailTextView : String
  titleLabel : String
  detailedImageView : Option UIImage

/-- A screen of the market place or information tab. -/
inductive Screen where
  | upload (screen : UploadMarketPlaceViewController)
  | market (screen : MarketPlaceViewController)
  | detail (screen : DetailViewController)
  | manage (screen : ManagePostingsViewController)
  | update (screen : UpdatePostingsViewController)
  | addInfo (screen : AddInfoViewController)
  | info (screen : InformationViewController)
  | detailedInfo (screen : DetailedInfoViewController)

/-- The screens that open by themselves, or by a segue that hands nothing over. -/
inductive Root where
  | upload
  | market
  | manage (currentUser : User)
  | addInfo
  | info

/-- What a user or the system does to a screen. -/
inductive Input where
  | viewDidLoad
  | viewWillAppear
  | editTexts (texts : PostingTexts)
  | editInfo (titleInfo infoView : String)
  | selectSegment (index : Int)
  | pick (image : UIImage)
  | uploadButton (currentUser : Option User)
  | updateButton
  | deleteButton
  | confirmDelete
  | submitInfoButton
  | cellForRowAt (row cell : Nat)
  | didSelectRowAt (row : Nat)
  | manageButton (currentUser : Option User)

/-- The body of a handler of one of these screens. -/
abbrev Handler (rules : URLRules) := Handling rules Screen

instance : Controller Screen UploadMarketPlaceViewController where
  screen := .upload
  ofScreen | .upload self => some self | _ => none
  ofScreen_screen _ := rfl

instance : LawfulController Screen UploadMarketPlaceViewController where
  eq_screen {screen _} same := by cases screen <;> cases same; rfl

instance : Controller Screen MarketPlaceViewController where
  screen := .market
  ofScreen | .market self => some self | _ => none
  ofScreen_screen _ := rfl

instance : LawfulController Screen MarketPlaceViewController where
  eq_screen {screen _} same := by cases screen <;> cases same; rfl

instance : Controller Screen DetailViewController where
  screen := .detail
  ofScreen | .detail self => some self | _ => none
  ofScreen_screen _ := rfl

instance : LawfulController Screen DetailViewController where
  eq_screen {screen _} same := by cases screen <;> cases same; rfl

instance : Controller Screen ManagePostingsViewController where
  screen := .manage
  ofScreen | .manage self => some self | _ => none
  ofScreen_screen _ := rfl

instance : LawfulController Screen ManagePostingsViewController where
  eq_screen {screen _} same := by cases screen <;> cases same; rfl

instance : Controller Screen UpdatePostingsViewController where
  screen := .update
  ofScreen | .update self => some self | _ => none
  ofScreen_screen _ := rfl

instance : LawfulController Screen UpdatePostingsViewController where
  eq_screen {screen _} same := by cases screen <;> cases same; rfl

instance : Controller Screen AddInfoViewController where
  screen := .addInfo
  ofScreen | .addInfo self => some self | _ => none
  ofScreen_screen _ := rfl

instance : LawfulController Screen AddInfoViewController where
  eq_screen {screen _} same := by cases screen <;> cases same; rfl

instance : Controller Screen InformationViewController where
  screen := .info
  ofScreen | .info self => some self | _ => none
  ofScreen_screen _ := rfl

instance : LawfulController Screen InformationViewController where
  eq_screen {screen _} same := by cases screen <;> cases same; rfl

instance : Controller Screen DetailedInfoViewController where
  screen := .detailedInfo
  ofScreen | .detailedInfo self => some self | _ => none
  ofScreen_screen _ := rfl

instance : LawfulController Screen DetailedInfoViewController where
  eq_screen {screen _} same := by cases screen <;> cases same; rfl

end Gbc
