import Gbc.Market.Screens

/-!
# The writing screens

Handlers of `UploadMarketPlaceViewController`, `AddInfoViewController` and
`UpdatePostingsViewController`. Each writes a document first and its picture
later, in completion handlers that address the document by its ID.
-/

namespace Gbc

open Callback Handler

variable {rules : URLRules}

/-- The completion handler of `downloadURL` in the three `uploadImage` methods. They
differ in the collection of the document and in the title of the closing alert. -/
def pictureLocated (collection : CollectionName) (title refId : String)
    (url : Option (URL rules)) : Handler rules :=
  document refId <|
  .unwrap url .downloadURL fun url =>
  .fire (.setData collection refId [("Image", url.string)] true) <|
  .alert title .done

/-- The completion handler of `putData` in the three `uploadImage` methods. -/
def pictureUploaded (collection : CollectionName) (title refId : String) (uploaded : Bool) :
    Handler rules :=
  if uploaded then
    .call (.downloadURL ("Uploads/" ++ refId)) (pictureLocated collection title refId) .done
  else .done

/-- The common body of the three `uploadImage` methods. -/
def uploadPicture (collection : CollectionName) (title : String) (image : UIImage)
    (refId : String) (next : Handler rules) : Handler rules :=
  match image.jpegData with
  | none => next
  | some imageData =>
      .call (.putData ("Uploads/" ++ refId) imageData) (pictureUploaded collection title refId)
        next

namespace UploadMarketPlaceViewController

def uploadImage (image : UIImage) (refId : String) (next : Handler rules) : Handler rules :=
  uploadPicture .upload "Upload Sucessfull" image refId next

/-- The title a press of `uploadButton` leaves in `uploadTitle`. -/
def chosenTitle (self : UploadMarketPlaceViewController) : String :=
  if self.segment = 0 then "Job"
  else if self.segment = 1 then "Rental"
  else self.uploadTitle

/-- The document literal of `uploadButton`. -/
def posting (self : UploadMarketPlaceViewController) (user : User) : Fields :=
  [("Poster-Name", self.texts.posterName),
   ("Title", self.chosenTitle),
   ("Location", self.texts.location),
   ("Amount", self.texts.amount),
   ("Description", self.texts.uploadDesc),
   ("Mobile-Number", self.texts.mobileNumber),
   ("User", user.uid)]

/-- The completion handler of `addDocument` in `uploadButton`. -/
def documentAdded (ref : Option String) : Handler rules :=
  match ref with
  | none => .done
  | some documentID =>
      this fun self : UploadMarketPlaceViewController =>
      .unwrap self.imageView .imageView fun image =>
      uploadImage image documentID <|
      document documentID <|
      .fire (.setData .upload documentID [("Ref", documentID)] true) .done

def uploadButton (currentUser : Option User) : Handler rules :=
  this fun self : UploadMarketPlaceViewController =>
    if self.texts.incomplete self.segment then .alert "Invalid Details" .done
    else
      assign (fun screen : UploadMarketPlaceViewController =>
        { screen with uploadTitle := self.chosenTitle }) <|
      .unwrap currentUser .currentUser fun user =>
      .call (.addDocument .upload (self.posting user)) documentAdded .done

end UploadMarketPlaceViewController

namespace AddInfoViewController

def uploadImage (image : UIImage) (refId : String) (next : Handler rules) : Handler rules :=
  uploadPicture .infoUpload "Upload Sucessfull" image refId next

/-- The document literal of `submitInfoButton`. -/
def item (self : AddInfoViewController) : Fields :=
  [("Title-Info", self.titleInfo), ("Description", self.infoView)]

/-- The completion handler of `addDocument` in `submitInfoButton`. -/
def documentAdded (ref : Option String) : Handler rules :=
  match ref with
  | none => .done
  | some documentID =>
      this fun self : AddInfoViewController =>
      .unwrap self.image .imageView fun image =>
      uploadImage image documentID .done

def submitInfoButton : Handler rules :=
  this fun self : AddInfoViewController =>
    if self.titleInfo != "" && self.infoView != "" then
      .call (.addDocument .infoUpload self.item) documentAdded .done
    else .alert "Invalid Details" .done

end AddInfoViewController

namespace UpdatePostingsViewController

/-- The picture the storyboard puts into the image view. -/
def placeholder : UIImage := ⟨"tray.and.arrow.up", true⟩

/-- The screen as `prepare(for:sender:)` of the Manage screen hands it over. -/
def prepared (docPath : String) (user : User) (opened : String) :
    UpdatePostingsViewController where
  docPath := docPath
  imageView := some placeholder
  segmentControl := -1
  texts := ⟨"", "", "", "", ""⟩
  titleUpdate := ""
  user := user
  opened := opened
  source := none
  picked := none
  presses := []

def uploadImage (image : UIImage) (refId : String) (next : Handler rules) : Handler rules :=
  uploadPicture .upload "Update Sucessful" image refId next

/-- The title a press of `updateButton` leaves in `titleUpdate`. -/
def chosenTitle (self : UpdatePostingsViewController) : String :=
  if self.segmentControl = 0 then "Job"
  else if self.segmentControl = 1 then "Rental"
  else self.titleUpdate

/-- The document literal of `updateButton`. -/
def changes (self : UpdatePostingsViewController) : Fields :=
  [("Poster-Name", self.texts.posterName),
   ("Title", self.chosenTitle),
   ("Location", self.texts.location),
   ("Amount", self.texts.amount),
   ("Description", self.texts.uploadDesc),
   ("Mobile-Number", self.texts.mobileNumber)]

def updateButton : Handler rules :=
  this fun self : UpdatePostingsViewController =>
    if self.texts.incomplete self.segmentControl then .alert "Invalid Details" .done
    else
      assign (fun screen : UpdatePostingsViewController =>
        { screen with
          titleUpdate := self.chosenTitle
          presses := self.picked :: self.presses }) <|
      document self.docPath <|
      .fire (.setData .upload self.docPath self.changes true) <|
      .unwrap self.imageView .imageView fun image =>
      uploadImage image self.docPath .done

/-- The press of `deleteButton`, which asks for confirmation. -/
def deleteButton : Handler rules := .alert "Delete?" .done

/-- The Delete action of the alert that `deleteButton` presents. -/
def confirmDelete : Handler rules :=
  this fun self : UpdatePostingsViewController =>
    document self.docPath <|
    .fire (.delete .upload self.docPath) <|
    .alert "Delete Sucessfull" .done

/-- The segment that shows the title of a document. -/
def segmentOf (data : Doc) : Int :=
  if data.text "Title" = "Job" then 0 else 1

/-- The loop of `loadFireBaseData` over the documents of a snapshot. -/
def fill : Snapshot → Handler rules
  | [] => .done
  | (documentID, data) :: documents =>
      this fun self : UpdatePostingsViewController =>
        if data.text "Ref" = self.docPath then
          .unwrap data["Image"]? .image fun image =>
          .unwrap (URL.ofString rules image) .image fun url =>
          .call (.loadFrom url)
            (fun (image : Option UIImage) =>
              assign (fun screen : UpdatePostingsViewController =>
                { screen with imageView := image }) .done) <|
          assign (fun screen : UpdatePostingsViewController =>
            { screen with
              texts := PostingTexts.ofData data
              segmentControl := segmentOf data
              source := some (documentID, data) }) <|
          fill documents
        else fill documents

/-- The completion handler of `loadFireBaseData`. -/
def documentsLoaded (snapshot : Option Snapshot) : Handler rules :=
  match snapshot with
  | none => .done
  | some documents => fill documents

def loadFireBaseData : Handler rules :=
  .call (.getDocuments .upload) documentsLoaded .done

def viewDidLoad : Handler rules := loadFireBaseData

end UpdatePostingsViewController

end Gbc
