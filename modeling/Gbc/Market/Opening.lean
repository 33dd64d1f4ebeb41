import Gbc.Market.App

/-!
# What screens are opened with

A screen is handed some of its properties before it loads and never changes them:
the posting a detail screen shows, the item and picture of the information detail,
the document path of an update screen.
-/

namespace Gbc

open Callback Handler

variable {rules : URLRules}

/-- The class of a screen with the properties it is opened with. -/
inductive Opening where
  | upload
  | market
  | detail (array : List Upload) (index : Nat)
  | manage (currentUser : User)
  | update (docPath : String) (user : User) (opened : String)
  | addInfo
  | info
  | detailedInfo (info title detail : String) (selectedImage : Option UIImage)

/-- The screens that are opened from another screen, by a tap on one of its rows. -/
def Opening.pushed : Opening → Prop
  | .detail _ _ | .update _ _ _ | .detailedInfo _ _ _ _ => True
  | _ => False

/-- What a screen was opened with. -/
def Screen.opening : Screen → Opening
  | .upload _ => .upload
  | .market _ => .market
  | .detail self => .detail self.array self.index
  | .manage self => .manage self.currentUser
  | .update self => .update self.docPath self.user self.opened
  | .addInfo _ => .addInfo
  | .info _ => .info
  | .detailedInfo self => .detailedInfo self.info self.title self.detail self.selectedImage

/-- Screens keep what they were opened with, and only pushed screens are created. -/
abbrev openings : Frame Screen := .ofView Screen.opening Opening.pushed

/-- What is true of the opening of a screen stays true. -/
theorem openings_iff (holds : Opening → Prop) {before after : Screen}
    (kept : openings.keeps before after) : holds after.opening ↔ holds before.opening := by
  have same : after.opening = before.opening := kept
  rw [same]

/-- The three `uploadImage` methods change no screen. -/
theorem steady_uploadPicture {frame : Frame Screen} {collection : CollectionName}
    {title refId : String} {image : UIImage} {next : Handler rules}
    (rest : next.Steady frame) :
    (uploadPicture collection title image refId next).Steady frame := by
  unfold uploadPicture
  split
  · exact rest
  · refine ⟨fun (uploaded : Bool) => ?_, rest⟩
    cases uploaded with
    | false => trivial
    | true =>
        refine ⟨fun (url : Option (URL rules)) => ?_, trivial⟩
        exact steady_document (Code.steady_unwrap fun _ => ⟨fun _ => trivial, trivial⟩)

namespace UploadMarketPlaceViewController

theorem steady_uploadButton {currentUser : Option User} :
    (uploadButton currentUser : Handler rules).Steady openings := by
  refine steady_this fun self => ?_
  split
  · trivial
  · refine steady_assign (fun _ => rfl) (Code.steady_unwrap fun user => ⟨?_, trivial⟩)
    rintro (_ | documentID)
    · trivial
    · refine steady_this fun now => Code.steady_unwrap fun image => ?_
      exact steady_uploadPicture (steady_document ⟨fun _ => trivial, trivial⟩)

end UploadMarketPlaceViewController

namespace AddInfoViewController

theorem steady_submitInfoButton :
    (submitInfoButton : Handler rules).Steady openings := by
  refine steady_this fun self => ?_
  split
  · refine ⟨?_, trivial⟩
    rintro (_ | documentID)
    · trivial
    · exact steady_this fun now => Code.steady_unwrap fun image => steady_uploadPicture trivial
  · trivial

end AddInfoViewController

namespace UpdatePostingsViewController

theorem steady_updateButton :
    (updateButton : Handler rules).Steady openings := by
  refine steady_this fun self => ?_
  split
  · trivial
  · refine steady_assign (fun _ => rfl) (steady_document ⟨fun _ => trivial, ?_⟩)
    exact Code.steady_unwrap fun image => steady_uploadPicture trivial

theorem steady_confirmDelete :
    (confirmDelete : Handler rules).Steady openings :=
  steady_this fun _ => steady_document ⟨fun _ => trivial, trivial⟩

theorem steady_fill (documents : Snapshot) :
    (fill documents : Handler rules).Steady openings := by
  induction documents with
  | nil => trivial
  | cons document documents inductionHypothesis =>
      refine steady_this fun self => ?_
      split
      · refine Code.steady_unwrap fun image => Code.steady_unwrap fun url =>
          ⟨fun picture => ?_, ?_⟩
        · exact steady_assign (fun _ => rfl) trivial
        · exact steady_assign (fun _ => rfl) inductionHypothesis
      · exact inductionHypothesis

theorem steady_viewDidLoad : (viewDidLoad : Handler rules).Steady openings := by
  refine ⟨?_, trivial⟩
  rintro (_ | documents)
  · trivial
  · exact steady_fill documents

end UpdatePostingsViewController

namespace MarketPlaceViewController

theorem steady_loadFireBaseData :
    (loadFireBaseData : Handler rules).Steady openings := by
  refine ⟨?_, trivial⟩
  rintro (_ | documents)
  · trivial
  · exact steady_assign (fun _ => rfl) trivial

theorem steady_cellForRowAt {row cell : Nat} :
    (cellForRowAt row cell : Handler rules).Steady openings := by
  refine steady_this fun self => ?_
  split
  · refine Code.steady_unwrap fun posting => steady_assign (fun _ => rfl) ?_
    refine Code.steady_unwrap fun url => ⟨fun image => ?_, steady_assign (fun _ => rfl) trivial⟩
    exact steady_assign (fun _ => rfl) trivial
  · trivial

theorem steady_didSelectRowAt {row : Nat} :
    (didSelectRowAt row : Handler rules).Steady openings := by
  refine steady_this fun self => ?_
  split
  · refine steady_assign (fun _ => rfl) ⟨trivial, steady_this fun detail => ?_⟩
    refine Code.steady_unwrap fun posting => Code.steady_unwrap fun url => ⟨fun image => ?_, ?_⟩
    · exact steady_assign (fun _ => rfl) trivial
    · exact steady_assign (fun _ => rfl) trivial
  · trivial

end MarketPlaceViewController

namespace ManagePostingsViewController

theorem steady_loadFireBaseData :
    (loadFireBaseData : Handler rules).Steady openings := by
  refine ⟨?_, trivial⟩
  rintro (_ | documents)
  · trivial
  · exact steady_assign (fun _ => rfl) trivial

theorem steady_cellForRowAt {row cell : Nat} :
    (cellForRowAt row cell : Handler rules).Steady openings := by
  refine steady_this fun self => ?_
  split
  · refine Code.steady_unwrap fun posting => steady_assign (fun _ => rfl) ?_
    refine Code.steady_unwrap fun url => ⟨fun image => ?_, steady_assign (fun _ => rfl) trivial⟩
    exact steady_assign (fun _ => rfl) trivial
  · trivial

theorem steady_didSelectRowAt {row : Nat} :
    (didSelectRowAt row : Handler rules).Steady openings := by
  refine steady_this fun self => ?_
  split
  · refine Code.steady_unwrap fun posting => steady_assign (fun _ => rfl) ?_
    exact ⟨trivial, UpdatePostingsViewController.steady_viewDidLoad⟩
  · trivial

end ManagePostingsViewController

namespace InformationViewController

theorem steady_loadData : (loadData : Handler rules).Steady openings := by
  refine ⟨?_, trivial⟩
  rintro (_ | documents)
  · trivial
  · exact steady_assign (fun _ => rfl) trivial

theorem steady_cellForRowAt {row cell : Nat} :
    (cellForRowAt row cell : Handler rules).Steady openings := by
  refine steady_this fun self => ?_
  split
  · refine Code.steady_unwrap fun item => steady_assign (fun _ => rfl) ?_
    refine Code.steady_unwrap fun url => ⟨fun image => ?_, trivial⟩
    exact steady_assign (fun _ => rfl) (steady_assign (fun _ => rfl) trivial)
  · trivial

theorem steady_didSelectRowAt {row : Nat} :
    (didSelectRowAt row : Handler rules).Steady openings := by
  refine steady_this fun self => ?_
  split
  · refine Code.steady_unwrap fun item => steady_assign (fun _ => rfl) ⟨trivial, ?_⟩
    exact steady_assign (fun _ => rfl) trivial
  · trivial

end InformationViewController

/-- No handler changes what a screen was opened with. -/
theorem Screen.steady_handle (screen : Screen) (input : Input) :
    (screen.handle input : Handler rules).Steady openings := by
  cases screen with
  | upload self =>
      cases input with
      | uploadButton currentUser => exact UploadMarketPlaceViewController.steady_uploadButton
      | editTexts texts => exact steady_assign (fun _ => rfl) trivial
      | pick image => exact steady_assign (fun _ => rfl) trivial
      | selectSegment index =>
          simp only [handle, UploadMarketPlaceViewController.handle]
          split
          · exact steady_assign (fun _ => rfl) trivial
          · trivial
      | _ => trivial
  | market self =>
      cases input with
      | viewDidLoad => exact MarketPlaceViewController.steady_loadFireBaseData
      | viewWillAppear => exact MarketPlaceViewController.steady_loadFireBaseData
      | cellForRowAt row cell => exact MarketPlaceViewController.steady_cellForRowAt
      | manageButton currentUser => cases currentUser <;> trivial
      | didSelectRowAt row => exact MarketPlaceViewController.steady_didSelectRowAt
      | selectSegment index =>
          simp only [handle, MarketPlaceViewController.handle]
          split
          · exact steady_assign (fun _ => rfl) trivial
          · trivial
      | _ => trivial
  | manage self =>
      cases input with
      | viewDidLoad => exact ManagePostingsViewController.steady_loadFireBaseData
      | viewWillAppear => exact ManagePostingsViewController.steady_loadFireBaseData
      | cellForRowAt row cell => exact ManagePostingsViewController.steady_cellForRowAt
      | didSelectRowAt row => exact ManagePostingsViewController.steady_didSelectRowAt
      | _ => trivial
  | update self =>
      cases input with
      | updateButton => exact UpdatePostingsViewController.steady_updateButton
      | confirmDelete => exact UpdatePostingsViewController.steady_confirmDelete
      | editTexts texts => exact steady_assign (fun _ => rfl) trivial
      | pick image => exact steady_assign (fun _ => rfl) trivial
      | selectSegment index =>
          simp only [handle, UpdatePostingsViewController.handle]
          split
          · exact steady_assign (fun _ => rfl) trivial
          · trivial
      | _ => trivial
  | addInfo self =>
      cases input with
      | submitInfoButton => exact AddInfoViewController.steady_submitInfoButton
      | editInfo titleInfo infoView => exact steady_assign (fun _ => rfl) trivial
      | pick image => exact steady_assign (fun _ => rfl) trivial
      | _ => trivial
  | info self =>
      cases input with
      | viewDidLoad => exact InformationViewController.steady_loadData
      | cellForRowAt row cell => exact InformationViewController.steady_cellForRowAt
      | didSelectRowAt row => exact InformationViewController.steady_didSelectRowAt
      | _ => trivial
  | detail self => trivial
  | detailedInfo self => trivial

namespace Postings

/-- In every run, screens keep what they were opened with. -/
theorem opening_of_reachable {service : Service (remote rules)}
    {guard : (World.machine (app rules) service).Guard} {server : service.State}
    {start world : World (app rules) service}
    (began : Machine.Reachable guard (World.initial (app rules) server) start)
    (reached : Machine.Reachable guard start world) :
    World.Retains openings start world := by
  have handlers : ∀ input, ((app rules).handler input).Steady openings :=
    fun input screen => Screen.steady_handle screen input
  have older := (World.steady_of_reachable handlers World.steadyPending_initial began).pending
  exact (World.steady_of_reachable handlers older reached).retains

end Postings

end Gbc
