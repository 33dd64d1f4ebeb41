import Gbc.Market.App

/-!
# Provenance of postings

A posting names itself in its `Ref` field and its poster in its `User` field, and
its `Image` field is the text of a download URL. `Postings.contract` states this
for the documents of the collection, the snapshots taken of it, the rows decoded
from these and the writes of every screen. `Demands` adds what a condition on the
delivered snapshots may demand on top: that the documents a screen reads already
have their `Image`, or those a Manage screen lists their `Ref`.
-/

namespace Gbc

open Callback Handler

variable {rules : URLRules}

/-- The documents of a snapshot whose fields a screen goes on to use. -/
def Screen.reads (screen : Screen) (documents : Snapshot) : Snapshot :=
  match screen with
  | .market _ => documents
  | .manage self => self.owned documents
  | .update self => documents.filter fun document => document.2.text "Ref" == self.docPath
  | .info _ => documents
  | _ => []

/-- The screen is a Manage list. -/
def Screen.isManage : Screen → Bool
  | .manage _ => true
  | _ => false

namespace Postings

/-- What a condition on the delivered snapshots demands of them. -/
structure Demands where
  images : Prop
  refs : Prop

/-- `document` was added in a posting flow of the user `uid`. -/
def CreatedBy (server : Server rules) (document uid : String) : Prop :=
  ∃ (form : UploadMarketPlaceViewController) (user : User), user.uid = uid ∧
    (CollectionName.upload, Write.add document (form.posting user)) ∈ server.journal

/-- Where the fields of a document of the `Upload` collection come from. -/
structure DocumentOk (server : Server rules) (document : String × Doc) : Prop where
  named : document.1 ≠ ""
  ref : ∀ ref, document.2["Ref"]? = some ref → ref = document.1
  user : ∀ uid, document.2["User"]? = some uid → CreatedBy server document.1 uid
  image : ∀ image, document.2["Image"]? = some image → rules.accepts image = true

structure ServerOk (server : Server rules) : Prop where
  upload : ∀ (document : String) (data : Doc),
    (server.documents .upload)[document]? = some data → DocumentOk server (document, data)
  info : ∀ (document : String) (data : Doc) (image : String),
    (server.documents .infoUpload)[document]? = some data →
    data["Image"]? = some image → rules.accepts image = true

structure ManageOk (demands : Demands) (server : Server rules)
    (screen : ManagePostingsViewController) : Prop where
  rows : screen.manaageArray = screen.shown.map fun document => Upload.ofData document.2
  documents : ∀ document ∈ screen.shown, DocumentOk server document
  owned : ∀ document ∈ screen.shown, document.2.text "User" = screen.currentUser.uid
  images : demands.images → ∀ document ∈ screen.shown, "Image" ∈ document.2
  refs : demands.refs → ∀ document ∈ screen.shown, "Ref" ∈ document.2

structure UpdateOk (demands : Demands) (server : Server rules)
    (screen : UpdatePostingsViewController) : Prop where
  owner : screen.docPath ≠ "" → CreatedBy server screen.docPath screen.user.uid
  aimed : demands.refs → screen.docPath = screen.opened ∧ screen.docPath ≠ ""
  source : demands.refs → ∀ document, screen.source = some document →
    document.1 = screen.opened ∧ screen.texts = PostingTexts.ofData document.2 ∧
      screen.segmentControl = UpdatePostingsViewController.segmentOf document.2

def ScreenOk (demands : Demands) (server : Server rules) : Screen → Prop
  | .market self => demands.images →
      (∀ posting ∈ self.postingArray, rules.accepts posting.uimage = true) ∧
      ∀ posting ∈ self.uploadArray, rules.accepts posting.uimage = true
  | .detail self => demands.images → ∀ posting ∈ self.array, rules.accepts posting.uimage = true
  | .manage self => ManageOk demands server self
  | .update self => UpdateOk demands server self
  | .info self => demands.images → ∀ item ∈ self.infoArray, rules.accepts item.uImage = true
  | .upload _ | .addInfo _ | .detailedInfo _ => True

/-- A write that began on an update screen is addressed to the path of that
screen, a document of its user, and to the document it was opened for. -/
structure Addressed (demands : Demands) (server : Server rules)
    (screen : UpdatePostingsViewController) (document : String) : Prop where
  path : document = screen.docPath
  owner : CreatedBy server document screen.user.uid
  opened : demands.refs → document = screen.opened

/-- `Addressed`, for the writes of all handlers that began on an update screen. -/
def AddressedFrom (demands : Demands) (server : Server rules) (past : Past (app rules))
    (document : String) : Prop :=
  ∀ screen, past.entry.object = .update screen → Addressed demands server screen document

def RequestOk (demands : Demands) (server : Server rules) (past : Past (app rules)) :
    Request rules → Prop
  | .addDocument .upload data =>
      ∃ (form : UploadMarketPlaceViewController) (user : User), data = form.posting user
  | .addDocument .infoUpload data => Fields.value "Image" data = none
  | .setData .upload document data merge =>
      merge = true ∧ document ≠ "" ∧ Fields.value "User" data = none ∧
      (∀ ref, Fields.value "Ref" data = some ref → ref = document) ∧
      (∀ image, Fields.value "Image" data = some image → rules.accepts image = true) ∧
      AddressedFrom demands server past document
  | .setData .infoUpload _ data merge =>
      merge = true ∧
      ∀ image, Fields.value "Image" data = some image → rules.accepts image = true
  | .delete .upload document => document ≠ "" ∧ AddressedFrom demands server past document
  | .addDocument .users _ | .setData .users _ _ _ | .delete .infoUpload _ | .delete .users _
  | .query _ _ _ | .createUser _ _ => False
  | .getDocuments _ | .putData _ _ | .downloadURL _ | .loadFrom _ | .dataTask _ => True

def ResponseOk (server : Server rules) : (request : Request rules) → request.Response → Prop
  | .addDocument _ _, (ref : Option String) => ∀ document, ref = some document → document ≠ ""
  | .getDocuments .upload, (snapshot : Option Snapshot) => ∀ documents, snapshot = some documents →
      ∀ document ∈ documents, DocumentOk server document
  | .getDocuments .infoUpload, (snapshot : Option Snapshot) => ∀ documents,
      snapshot = some documents → ∀ document ∈ documents, ∀ image,
        document.2["Image"]? = some image → rules.accepts image = true
  | _, _ => True

/-- The condition on the snapshots delivered to a screen. -/
def Delivers (demands : Demands) (screen : Screen) :
    (request : Request rules) → request.Response → Prop
  | .getDocuments _, (snapshot : Option Snapshot) => ∀ documents, snapshot = some documents →
      ∀ document ∈ screen.reads documents,
        (demands.images → "Image" ∈ document.2) ∧
        (demands.refs → screen.isManage = true → "Ref" ∈ document.2)
  | _, _ => True

/-- What holds of every part of the two tabs. -/
def contract (rules : URLRules) (demands : Demands) : Contract (app rules) (firebase rules) where
  Evolves server later := server.journal <:+ later.journal
  Server := ServerOk
  Object := ScreenOk demands
  Request := RequestOk demands
  Response server _ request response := ResponseOk server request response
  Fault fault := demands.images → fault ≠ .image
  InputGuard _ _ := True
  ServeGuard _ _ _ _ := True
  ReplyGuard screen _ request response := Delivers demands screen request response

section Evolution

variable {server later : Server rules} (evolves : server.journal <:+ later.journal)

include evolves

theorem CreatedBy.evolve {document uid : String} (created : CreatedBy server document uid) :
    CreatedBy later document uid :=
  let ⟨form, user, poster, added⟩ := created
  ⟨form, user, poster, evolves.mem added⟩

theorem DocumentOk.evolve {document : String × Doc} (valid : DocumentOk server document) :
    DocumentOk later document :=
  { valid with user := fun uid found => (valid.user uid found).evolve evolves }

theorem AddressedFrom.evolve {demands : Demands} {past : Past (app rules)} {document : String}
    (addressed : AddressedFrom demands server past document) :
    AddressedFrom demands later past document :=
  fun screen began => { addressed screen began with
    owner := (addressed screen began).owner.evolve evolves }

theorem ScreenOk.evolve {demands : Demands} {screen : Screen}
    (valid : ScreenOk demands server screen) : ScreenOk demands later screen := by
  cases screen with
  | manage self =>
      have manage : ManageOk demands server self := valid
      exact { manage with
        documents := fun document shown => (manage.documents document shown).evolve evolves }
  | update self =>
      have update : UpdateOk demands server self := valid
      exact { update with owner := fun nonempty => (update.owner nonempty).evolve evolves }
  | _ => exact valid

theorem RequestOk.evolve {demands : Demands} {past : Past (app rules)}
    {request : Request rules} (valid : RequestOk demands server past request) :
    RequestOk demands later past request := by
  cases request with
  | setData collection document data merge =>
      cases collection with
      | upload =>
          obtain ⟨merges, nonempty, user, ref, image, addressed⟩ := valid
          exact ⟨merges, nonempty, user, ref, image, addressed.evolve evolves⟩
      | _ => exact valid
  | delete collection document =>
      cases collection with
      | upload => exact ⟨valid.1, valid.2.evolve evolves⟩
      | _ => exact valid
  | addDocument collection data => cases collection <;> exact valid
  | _ => exact valid

theorem ResponseOk.evolve {request : Request rules} {response : request.Response}
    (valid : ResponseOk server request response) : ResponseOk later request response := by
  cases request with
  | getDocuments collection =>
      cases collection with
      | upload =>
          intro documents delivered document member
          exact (valid documents delivered document member).evolve evolves
      | _ => exact valid
  | _ => exact valid

end Evolution

end Postings

end Gbc
