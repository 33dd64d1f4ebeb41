import Gbc.Callback.Contract
import Gbc.Market.Readers

/-!
# The market place and information tabs as a callback program

`Postings.app` dispatches the inputs of each screen to its handlers. Its worlds
over `firebase` hold any number of processes, each with any number of screens.
-/

namespace Gbc

open Callback Handler

variable {rules : URLRules}

/-- What the storyboard puts into the text view of the information form. -/
def AddInfoViewController.filler : String :=
  "Lorem ipsum dolor sit er elit lamet, consectetaur cillium adipisicing pecu, sed do " ++
  "eiusmod tempor incididunt ut labore et dolore magna aliqua. Ut enim ad minim veniam, " ++
  "quis nostrud exercitation ullamco laboris nisi ut aliquip ex ea commodo consequat. " ++
  "Duis aute irure dolor in reprehenderit in voluptate velit esse cillum dolore eu " ++
  "fugiat nulla pariatur. Excepteur sint occaecat cupidatat non proident, sunt in culpa " ++
  "qui officia deserunt mollit anim id est laborum. Nam liber te conscient to factor " ++
  "tum poen legum odioque civiuda."

/-- A screen as it opens. -/
def Root.screen : Root → Screen
  | .upload => .upload
      { imageView := some UpdatePostingsViewController.placeholder
        segment := -1
        texts := ⟨"", "", "", "", ""⟩
        uploadTitle := "" }
  | .market => .market .opened
  | .manage currentUser => .manage (.opened currentUser)
  | .addInfo => .addInfo
      { image := none, titleInfo := "", infoView := AddInfoViewController.filler }
  | .info => .info .opened

namespace UploadMarketPlaceViewController

/-- Edits, picks and presses on the posting form; it has two segments. -/
def handle : Input → Handler rules
  | .editTexts texts =>
      assign (fun self : UploadMarketPlaceViewController => { self with texts := texts }) .done
  | .selectSegment index =>
      if index = 0 ∨ index = 1 then
        assign (fun self : UploadMarketPlaceViewController =>
          { self with segment := index }) .done
      else .done
  | .pick image =>
      assign (fun self : UploadMarketPlaceViewController =>
        { self with imageView := some image }) .done
  | .uploadButton currentUser => uploadButton currentUser
  | _ => .done

end UploadMarketPlaceViewController

namespace AddInfoViewController

/-- Edits, picks and presses on the information form. -/
def handle : Input → Handler rules
  | .editInfo titleInfo infoView =>
      assign (fun self : AddInfoViewController =>
        { self with titleInfo := titleInfo, infoView := infoView }) .done
  | .pick image =>
      assign (fun self : AddInfoViewController => { self with image := some image }) .done
  | .submitInfoButton => submitInfoButton
  | _ => .done

end AddInfoViewController

namespace UpdatePostingsViewController

/-- Edits, picks and presses on the update form; it has two segments. After an
edit the form no longer shows the document it was filled from. -/
def handle : Input → Handler rules
  | .editTexts texts =>
      assign (fun self : UpdatePostingsViewController =>
        { self with texts := texts, source := none }) .done
  | .selectSegment index =>
      if index = 0 ∨ index = 1 then
        assign (fun self : UpdatePostingsViewController =>
          { self with segmentControl := index, source := none }) .done
      else .done
  | .pick image =>
      assign (fun self : UpdatePostingsViewController =>
        { self with imageView := some image, picked := some image }) .done
  | .updateButton => updateButton
  | .deleteButton => deleteButton
  | .confirmDelete => confirmDelete
  | _ => .done

end UpdatePostingsViewController

namespace MarketPlaceViewController

/-- Appearances, segment changes and table callbacks; there are three segments. -/
def handle : Input → Handler rules
  | .viewDidLoad => viewDidLoad
  | .viewWillAppear => viewWillAppear
  | .selectSegment index =>
      if index = 0 ∨ index = 1 ∨ index = 2 then
        assign (fun self : MarketPlaceViewController =>
          { self with filterSegment := index }.segmentChanged) .done
      else .done
  | .cellForRowAt row cell => cellForRowAt row cell
  | .didSelectRowAt row => didSelectRowAt row
  | .manageButton currentUser => manageButton currentUser
  | _ => .done

end MarketPlaceViewController

namespace ManagePostingsViewController

/-- Appearances and table callbacks. -/
def handle : Input → Handler rules
  | .viewDidLoad => viewDidLoad
  | .viewWillAppear => viewWillAppear
  | .cellForRowAt row cell => cellForRowAt row cell
  | .didSelectRowAt row => didSelectRowAt row
  | _ => .done

end ManagePostingsViewController

namespace InformationViewController

/-- The load and the table callbacks. -/
def handle : Input → Handler rules
  | .viewDidLoad => viewDidLoad
  | .cellForRowAt row cell => cellForRowAt row cell
  | .didSelectRowAt row => didSelectRowAt row
  | _ => .done

end InformationViewController

/-- The handler of an input, by the class of the screen it reaches. -/
def Screen.handle (screen : Screen) (input : Input) : Handler rules :=
  match screen with
  | .upload _ => UploadMarketPlaceViewController.handle input
  | .market _ => MarketPlaceViewController.handle input
  | .manage _ => ManagePostingsViewController.handle input
  | .update _ => UpdatePostingsViewController.handle input
  | .addInfo _ => AddInfoViewController.handle input
  | .info _ => InformationViewController.handle input
  | .detail _ => .done
  | .detailedInfo _ => .done

namespace Postings

/-- The two tabs as a program. -/
abbrev app (rules : URLRules) : App (remote rules) where
  Object := Screen
  Root := Root
  Input := Input
  Fault := Fault
  root := Root.screen
  handler input := .look fun screen => screen.handle input

/-- The two tabs over the backend. -/
abbrev PostingsWorld (rules : URLRules) := World (app rules) (firebase rules)

/-- The two tabs over the backend, as a machine. -/
abbrev system (rules : URLRules) : Machine := World.machine (app rules) (firebase rules)

/-- No process has started and nothing is stored. -/
def start (rules : URLRules) : PostingsWorld rules := World.initial (app rules) (.empty rules)

section Schedules

/-- A user of the schedules. -/
def alice : User := ⟨"alice", by decide⟩

/-- A complete posting form. -/
def form : PostingTexts := ⟨"Alice", "Halifax", "15", "902555", "Sweeping"⟩

/-- The download URL of the first version of a picture. -/
def firstURL : URL anyText := ⟨"https://d1/1", by decide⟩

/-- The download URL of its second version. -/
def secondURL : URL anyText := ⟨"https://d1/2", by decide⟩

/-- Screen 0 is a posting form and is submitted: `addDocument` is outstanding. -/
def submitting : List (Event (app anyText) (firebase anyText)) :=
  [.launch 0 .upload, .input 0 (.editTexts form), .input 0 (.selectSegment 0),
    .input 0 (.uploadButton (some alice))]

/-- As `submitting`, then every operation of the posting succeeds. -/
def publishing : List (Event (app anyText) (firebase anyText)) :=
  submitting ++ [.serve 0 (.name "d1"), .reply 0, .serve 0 (.token firstURL), .reply 0,
    .serve 0 .ok, .reply 0, .serve 0 .ok, .reply 0, .serve 0 .ok, .reply 0]

/-- Screen 1 is the Manage list of `alice`, screen 2 the update screen of its first
row, which has filled in its form. -/
def managing : List (Event (app anyText) (firebase anyText)) :=
  [.launch 1 (.manage alice), .input 1 .viewDidLoad, .serve 0 .ok, .reply 0,
    .input 1 (.didSelectRowAt 0), .serve 0 .ok, .reply 0]

end Schedules

end Postings

end Gbc
