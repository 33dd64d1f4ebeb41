import Gbc.Market.App
import Gbc.Platform.Reports

/-!
# Success alerts of the posting flows

The flows of the Market Place and Information tabs end by writing the URL of the
picture, or by deleting the document, and present their success alert in the same handler.
-/

namespace Gbc

open Callback Handler World Reporter

variable {rules : URLRules}

namespace Postings

/-- The write that completes what a press asks for: the merge of the picture's URL, or
the delete. -/
def completes : Input → Request rules → Bool
  | .uploadButton _, .setData .upload _ [("Image", _)] true => true
  | .updateButton, .setData .upload _ [("Image", _)] true => true
  | .submitInfoButton, .setData .infoUpload _ [("Image", _)] true => true
  | .confirmDelete, .delete .upload _ => true
  | _, _ => false

/-- A lookup that delivers the URL of the picture of a document. -/
def locates : (request : Request rules) → request.Response → Bool
  | .downloadURL path, (some _ : Option (URL rules)) => path != "Uploads/"
  | _, _ => false

/-- The handlers that merge the URL of a picture report when it is delivered. -/
def uploads : Reporter rules Screen where
  reports := locates
  effect code screen := ∃ write ∈ code.requests screen, write.isWrite = true

theorem pictureLocated_reporting {collection : CollectionName} {title refId : String}
    (success : title ∈ successTitles) :
    uploads.Reporting (.downloadURL ("Uploads/" ++ refId))
      (pictureLocated collection title refId : Option (URL rules) → Handler rules) := by
  intro url screen
  by_cases empty : refId = ""
  · subst empty
    refine ⟨fun _ => ?_, fun located => ?_⟩
    · simp [pictureLocated, Handler.document, Code.titles]
    · cases url with
      | none => cases located
      | some url => simp [uploads, locates] at located
  · cases url with
    | none =>
        refine ⟨fun _ => ?_, fun located => absurd located (by simp [uploads, locates])⟩
        simp [pictureLocated, Handler.document, empty, Code.unwrap, Code.titles]
    | some url =>
        have named : "Uploads/" ++ refId ≠ "Uploads/" := by simpa using empty
        refine ⟨fun silent => ?_, fun _ => ⟨⟨title, ?_, success⟩,
          .setData collection refId [("Image", url.string)] true, ?_, rfl⟩⟩
        · simp [uploads, locates, named] at silent
        · simp [pictureLocated, Handler.document, empty, Code.fire, Code.titles]
        · simp [pictureLocated, Handler.document, empty, Code.fire, Code.requests]

section Handlers

variable {next : Handler rules}

/-- A chain that uploads a picture reports when its URL is delivered. -/
theorem quiet_uploadPicture {collection : CollectionName} {title refId : String}
    {image : UIImage} (success : title ∈ successTitles) (rest : uploads.Quiet next) :
    uploads.Quiet (uploadPicture collection title image refId next) := by
  have located : ∀ url screen, (pictureLocated collection title refId url : Handler rules).Calls
      uploads.Reporting screen := fun url screen => by
    refine calls_document (Code.calls_unwrap fun url _ => ⟨?_, fun _ _ => trivial, trivial⟩)
    exact reporting_of_avoids (fun _ => rfl) fun _ => Code.avoids_done
  unfold uploadPicture
  split
  · exact rest
  · refine quiet_call (fun _ => rfl) (fun (uploaded : Bool) => ?_) rest
    cases uploaded with
    | false => exact quiet_done
    | true =>
        exact ⟨fun _ => ⟨pictureLocated_reporting success, located, trivial⟩, fun _ _ => nofun⟩

/-- A load of the documents of a collection. -/
theorem quiet_getDocuments {collection : CollectionName}
    {completion : Option Snapshot → Handler rules}
    (later : ∀ documents, uploads.Quiet (completion documents)) :
    uploads.Quiet (.call (.getDocuments collection) completion .done) :=
  quiet_call (fun _ => rfl) later quiet_done

/-- A load that fills a list: its documents are taken over by one assignment. -/
theorem quiet_listLoad {Self : Type} [Controller Screen Self] {collection : CollectionName}
    {completion : Option Snapshot → Handler rules} {change : Snapshot → Self → Self}
    (refused : completion none = .done)
    (taken : ∀ documents, completion (some documents) = assign (change documents) .done) :
    uploads.Quiet (.call (.getDocuments collection) completion .done) := by
  refine quiet_getDocuments ?_
  rintro (_ | documents)
  · rw [refused]
    exact quiet_done
  · rw [taken]
    exact quiet_assign quiet_done

/-- A load of a picture. -/
theorem quiet_loadFrom {url : URL rules} {completion : Option UIImage → Handler rules}
    (later : ∀ image, uploads.Quiet (completion image)) (rest : uploads.Quiet next) :
    uploads.Quiet (.call (.loadFrom url) completion next) :=
  quiet_call (fun _ => rfl) later rest

theorem quiet_uploadButton {currentUser : Option User} :
    uploads.Quiet (UploadMarketPlaceViewController.uploadButton currentUser : Handler rules) := by
  refine quiet_this fun self => ?_
  split
  · exact quiet_alert (by decide) quiet_done
  · refine quiet_assign (quiet_unwrap fun user => quiet_call (fun _ => rfl) ?_ quiet_done)
    rintro (_ | documentID)
    · exact quiet_done
    · refine quiet_this fun now => quiet_unwrap fun image => ?_
      refine quiet_uploadPicture (by decide) (quiet_document ?_)
      exact quiet_call (fun _ => rfl) (fun _ => quiet_done) quiet_done

theorem quiet_submitInfoButton :
    uploads.Quiet (AddInfoViewController.submitInfoButton : Handler rules) := by
  refine quiet_this fun self => ?_
  split
  · refine quiet_call (fun _ => rfl) ?_ quiet_done
    rintro (_ | documentID)
    · exact quiet_done
    · exact quiet_this fun now => quiet_unwrap fun image =>
        quiet_uploadPicture (by decide) quiet_done
  · exact quiet_alert (by decide) quiet_done

theorem quiet_updateButton :
    uploads.Quiet (UpdatePostingsViewController.updateButton : Handler rules) := by
  refine quiet_this fun self => ?_
  split
  · exact quiet_alert (by decide) quiet_done
  · refine quiet_assign (quiet_document (quiet_call (fun _ => rfl) (fun _ => quiet_done) ?_))
    exact quiet_unwrap fun image => quiet_uploadPicture (by decide) quiet_done

theorem calls_confirmDelete (screen : Screen) :
    (UpdatePostingsViewController.confirmDelete : Handler rules).Calls uploads.Reporting screen :=
  calls_this fun _ _ => calls_document
    ⟨reporting_of_avoids (fun _ => rfl) fun _ => Code.avoids_done, fun _ _ => trivial, trivial⟩

theorem quiet_fill (documents : Snapshot) :
    uploads.Quiet (UpdatePostingsViewController.fill documents : Handler rules) := by
  induction documents with
  | nil => exact quiet_done
  | cons document documents inductionHypothesis =>
      refine quiet_this fun self => ?_
      split
      · refine quiet_unwrap fun image => quiet_unwrap fun url => quiet_loadFrom ?_ ?_
        · exact fun image => quiet_assign quiet_done
        · exact quiet_assign inductionHypothesis
      · exact inductionHypothesis

theorem quiet_updateLoad :
    uploads.Quiet (UpdatePostingsViewController.viewDidLoad : Handler rules) := by
  refine quiet_getDocuments ?_
  rintro (_ | documents)
  · exact quiet_done
  · exact quiet_fill documents

theorem quiet_marketCell {row cell : Nat} :
    uploads.Quiet (MarketPlaceViewController.cellForRowAt row cell : Handler rules) := by
  refine quiet_this fun self => ?_
  split
  · refine quiet_unwrap fun posting => quiet_assign (quiet_unwrap fun url => quiet_loadFrom ?_ ?_)
    · exact fun image => quiet_assign quiet_done
    · exact quiet_assign quiet_done
  · exact quiet_done

theorem quiet_marketTap {row : Nat} :
    uploads.Quiet (MarketPlaceViewController.didSelectRowAt row : Handler rules) := by
  refine quiet_this fun self => ?_
  split
  · refine quiet_assign (quiet_present (quiet_this fun detail => quiet_unwrap fun posting =>
      quiet_unwrap fun url => quiet_loadFrom ?_ ?_))
    · exact fun image => quiet_assign quiet_done
    · exact quiet_assign quiet_done
  · exact quiet_done

theorem quiet_manageCell {row cell : Nat} :
    uploads.Quiet (ManagePostingsViewController.cellForRowAt row cell : Handler rules) := by
  refine quiet_this fun self => ?_
  split
  · refine quiet_unwrap fun posting => quiet_assign (quiet_unwrap fun url => quiet_loadFrom ?_ ?_)
    · exact fun image => quiet_assign quiet_done
    · exact quiet_assign quiet_done
  · exact quiet_done

theorem quiet_manageTap {row : Nat} :
    uploads.Quiet (ManagePostingsViewController.didSelectRowAt row : Handler rules) := by
  refine quiet_this fun self => ?_
  split
  · exact quiet_unwrap fun posting => quiet_assign (quiet_present quiet_updateLoad)
  · exact quiet_done

theorem quiet_infoCell {row cell : Nat} :
    uploads.Quiet (InformationViewController.cellForRowAt row cell : Handler rules) := by
  refine quiet_this fun self => ?_
  split
  · refine quiet_unwrap fun item => quiet_assign (quiet_unwrap fun url => quiet_loadFrom ?_ ?_)
    · exact fun image => quiet_assign (quiet_assign quiet_done)
    · exact quiet_done
  · exact quiet_done

theorem quiet_infoTap {row : Nat} :
    uploads.Quiet (InformationViewController.didSelectRowAt row : Handler rules) := by
  refine quiet_this fun self => ?_
  split
  · exact quiet_unwrap fun item => quiet_assign (quiet_present (quiet_assign quiet_done))
  · exact quiet_done

/-- Every handler but the confirmation of a delete is quiet. -/
theorem quiet_handle {screen : Screen} {input : Input}
    (other : ∀ self, screen = .update self → input ≠ .confirmDelete) :
    uploads.Quiet (screen.handle input : Handler rules) := by
  cases screen with
  | upload self =>
      cases input with
      | uploadButton currentUser => exact quiet_uploadButton
      | editTexts texts => exact quiet_assign quiet_done
      | pick image => exact quiet_assign quiet_done
      | selectSegment index =>
          simp only [Screen.handle, UploadMarketPlaceViewController.handle]
          split
          · exact quiet_assign quiet_done
          · exact quiet_done
      | _ => exact quiet_done
  | market self =>
      cases input with
      | viewDidLoad => exact quiet_listLoad rfl fun _ => rfl
      | viewWillAppear => exact quiet_listLoad rfl fun _ => rfl
      | cellForRowAt row cell => exact quiet_marketCell
      | manageButton currentUser => exact quiet_unwrap fun user => quiet_done
      | didSelectRowAt row => exact quiet_marketTap
      | selectSegment index =>
          simp only [Screen.handle, MarketPlaceViewController.handle]
          split
          · exact quiet_assign quiet_done
          · exact quiet_done
      | _ => exact quiet_done
  | manage self =>
      cases input with
      | viewDidLoad => exact quiet_listLoad rfl fun _ => rfl
      | viewWillAppear => exact quiet_listLoad rfl fun _ => rfl
      | cellForRowAt row cell => exact quiet_manageCell
      | didSelectRowAt row => exact quiet_manageTap
      | _ => exact quiet_done
  | update self =>
      cases input with
      | updateButton => exact quiet_updateButton
      | deleteButton => exact quiet_alert (by decide) quiet_done
      | confirmDelete => exact absurd rfl (other self rfl)
      | editTexts texts => exact quiet_assign quiet_done
      | pick image => exact quiet_assign quiet_done
      | selectSegment index =>
          simp only [Screen.handle, UpdatePostingsViewController.handle]
          split
          · exact quiet_assign quiet_done
          · exact quiet_done
      | _ => exact quiet_done
  | addInfo self =>
      cases input with
      | submitInfoButton => exact quiet_submitInfoButton
      | editInfo titleInfo infoView => exact quiet_assign quiet_done
      | pick image => exact quiet_assign quiet_done
      | _ => exact quiet_done
  | info self =>
      cases input with
      | viewDidLoad => exact quiet_listLoad rfl fun _ => rfl
      | cellForRowAt row cell => exact quiet_infoCell
      | didSelectRowAt row => exact quiet_infoTap
      | _ => exact quiet_done
  | detail self => exact quiet_done
  | detailedInfo self => exact quiet_done

/-- Every handler reports when it delivers the URL of a picture. -/
theorem calls_handle (input : Input) (screen : Screen) :
    ((app rules).handler input).Calls uploads.Reporting screen := by
  by_cases other : ∀ self, screen = .update self → input ≠ .confirmDelete
  · exact (quiet_handle other).calls screen
  · push Not at other
    obtain ⟨self, rfl, rfl⟩ := other
    exact calls_confirmDelete (.update self)

end Handlers

section Steps

variable {service : Service (remote rules)} {server : service.State}
  {world next : World (app rules) service} {event : Event (app rules) service}

/-- The step presents a success alert: it delivers the URL of the picture of a document, or
confirms a delete. -/
def announces (world : World (app rules) service) : Event (app rules) service → Bool
  | .reply index =>
      match world.pending[index]? with
      | some ⟨_, _, request, _, some response⟩ => locates request response
      | _ => false
  | .input index .confirmDelete =>
      match world.objects[index]? with
      | some ⟨_, .update self⟩ => self.docPath != ""
      | _ => false
  | _ => false

/-- The confirmation of a delete starts the delete and reports it done. -/
theorem confirmDelete_reports (rules : URLRules) (self : UpdatePostingsViewController) :
    (self.docPath = "" → ((app rules).handler .confirmDelete).titles (.update self) = []) ∧
    (self.docPath ≠ "" →
      "Delete Sucessfull" ∈ ((app rules).handler .confirmDelete).titles (.update self) ∧
      .delete .upload self.docPath ∈
        ((app rules).handler .confirmDelete).requests (.update self)) := by
  constructor
  · intro empty
    simp [Code.titles, Screen.handle, UpdatePostingsViewController.handle,
      UpdatePostingsViewController.confirmDelete, this, Controller.ofScreen, Handler.document,
      empty]
  · intro named
    simp [Code.titles, Code.requests, Screen.handle, UpdatePostingsViewController.handle,
      UpdatePostingsViewController.confirmDelete, this, Controller.ofScreen, Handler.document,
      named, Code.fire]

/-- The success alerts of a step are true exactly when it presents none. -/
theorem reportsTruly_iff
    (reached : (World.machine (app rules) service).Reaches (Machine.anyStep _)
      (.initial _ server) world)
    (taken : world.step event = some next) :
    ReportsTruly completes world next ↔ announces world event = false := by
  cases stepped_of_step taken with
  | launched =>
      refine ⟨fun _ => rfl, fun _ alert member => ?_⟩
      simp [newAlerts] at member
  | served found =>
      refine ⟨fun _ => rfl, fun _ alert member => ?_⟩
      simp [newAlerts] at member
  | @began self input target placed =>
      obtain ⟨process, screen⟩ := target
      by_cases other : ∀ update, screen = .update update → input ≠ .confirmDelete
      · refine ⟨fun _ => ?_, fun _ => ?_⟩
        · cases input with
          | confirmDelete =>
              simp only [announces, placed]
              split
              · rename_i update shown
                cases shown
                exact absurd rfl (other update rfl)
              · rfl
          | _ => rfl
        · exact reportsTruly_of_quiet exec_alerts ((quiet_handle other).avoids screen)
      · push Not at other
        obtain ⟨update, rfl, rfl⟩ := other
        obtain ⟨silent, loud⟩ := confirmDelete_reports rules update
        by_cases named : update.docPath = ""
        · refine ⟨fun _ => by simp [announces, placed, named], fun _ => ?_⟩
          refine reportsTruly_of_quiet exec_alerts fun title shown => ?_
          rw [silent named] at shown
          cases shown
        · obtain ⟨shown, started⟩ := loud named
          refine ⟨fun reports => ?_, fun none => ?_⟩
          · exact (not_reportsTruly_of_write reports rfl shown (by decide) started rfl).elim
          · simp [announces, placed, named] at none
  | @completed index self past request completion response target found placed =>
      have calls := callsPending_of_reachable (fun _ _ => calls_handle _ _) reached
      have reporting := (calls _ (List.mem_of_getElem? found)).1 response target.object
      cases located : locates request response with
      | false =>
          refine ⟨fun _ => by simp [announces, found, located], fun _ => ?_⟩
          exact reportsTruly_of_quiet exec_alerts (reporting.1 located)
      | true =>
          obtain ⟨⟨title, shown, success⟩, write, started, writes⟩ := reporting.2 located
          refine ⟨fun reports => ?_, fun none => ?_⟩
          · exact (not_reportsTruly_of_write reports rfl shown success started writes).elim
          · simp [announces, found, located] at none

end Steps

end Postings

end Gbc
