import Gbc.Callback.History
import Gbc.Market.App

/-!
# The picture of an updated posting

One update screen, over any backend. A press of Update uploads what the image view
shows, whether that is the storyboard's placeholder, the posting's picture or a
picked photo; several presses upload to one path. `Stage` follows the picture of the
last press through all interleavings.
-/

namespace Gbc

open Callback Handler World

variable {rules : URLRules}

namespace Server

variable (server : Server rules)

/-- The version with this download URL shows this picture. -/
def shows (link picture : String) : Bool :=
  ((URL.ofString rules link).bind server.version).any fun object => object.data.picture == picture

/-- The current object of a path can be told by its download URL and shows this picture. -/
def Stores (path picture : String) : Prop :=
  ∃ object, server.stored path = some object ∧ server.version object.url = some object ∧
    object.data.picture = picture

/-- A document links a version that shows this picture. -/
def Links (document picture : String) : Prop :=
  ∃ (data : Doc) (link : String), (server.documents .upload)[document]? = some data ∧
    data["Image"]? = some link ∧ server.shows link picture = true

end Server

namespace Postings

/-- The picture stored for a posting and the one its document links show this picture. -/
structure Pictured (server : Server rules) (document picture : String) : Prop where
  stored : server.Stores ("Uploads/" ++ document) picture
  linked : server.Links document picture

/-- The picture the user wants: the last photo picked, or else the posting's own. -/
def wanted (original : String) (picked : Option UIImage) : String :=
  (picked.map (·.picture)).getD original

/-- The picture that was wanted at the last press of Update. -/
def submitted (original : String) (presses : List (Option UIImage)) : String :=
  wanted original presses.head?.join

/-- An operation on the picture ended with an error. -/
def failed : Exchange (remote rules) → Bool
  | ⟨.putData _ _, (uploaded : Bool)⟩ => !uploaded
  | ⟨.downloadURL _, (url : Option (URL rules))⟩ => url.isNone
  | ⟨.setData _ _ data _, (written : Bool)⟩ => (Fields.value "Image" data).isSome && !written
  | _ => false

/-- Update never found the image view empty; once nothing is outstanding and no
operation on the picture failed, the posting has the picture that was wanted at the
last press. -/
structure KeepsPicture (original : String) (world : PostingsWorld rules) : Prop where
  calm : ∀ fault ∈ world.faults, fault.2 ≠ .imageView
  pictured : world.pending = [] → (∀ handled ∈ world.acknowledged, failed handled.2 = false) →
    ∀ process screen, world.objects[0]? = some ⟨process, .update screen⟩ →
      Pictured world.server screen.docPath (submitted original screen.presses)

/-- The update screen of a posting has opened, and its load is outstanding. -/
def updateOpened (server : Server rules) (docPath : String) (user : User) : PostingsWorld rules :=
  let screen : Screen := .update (.prepared docPath user docPath)
  exec 0 ⟨⟨0, 0, .viewDidLoad, screen⟩, []⟩ UpdatePostingsViewController.viewDidLoad ⟨0, screen⟩
    { World.initial (app rules) server with objects := [⟨0, screen⟩], clock := 1 }

section Tests

/-- The operation was started by the last of these presses of Update. -/
def ofLastPress (presses : List (Option UIImage)) (past : Past (app rules)) : Bool :=
  match past.entry.object with
  | .update screen => screen.presses.length + 1 == presses.length
  | _ => false

/-- The upload of the last press has been answered. -/
def uploadedLast (presses : List (Option UIImage)) (world : PostingsWorld rules) : Bool :=
  world.answers.any fun answer => ofLastPress presses answer.1 &&
    match answer.2.request with
    | .putData _ _ => true
    | _ => false

/-- The merge of `Image` of the last press has been answered. -/
def linkedLast (presses : List (Option UIImage)) (world : PostingsWorld rules) : Bool :=
  world.answers.any fun answer => ofLastPress presses answer.1 &&
    match answer.2.request with
    | .setData _ _ data _ => (Fields.value "Image" data).isSome
    | _ => false

/-- Serving this operation does not put an older picture over that of the last press. -/
def inOrder (original : String) (presses : List (Option UIImage))
    (world : PostingsWorld rules) : Request rules → Bool
  | .putData _ data => data.picture == submitted original presses || !uploadedLast presses world
  | .setData _ _ data _ => (Fields.value "Image" data).all fun link =>
      world.server.shows link (submitted original presses) || !linkedLast presses world
  | _ => true

/-- The image view shows the wanted picture, which can be encoded. -/
def showsWanted (original : String) (screen : UpdatePostingsViewController) : Bool :=
  screen.imageView.any fun image =>
    image.encodable && image.picture == wanted original screen.picked

/-- Nothing is done but edits, picks and presses of Update on the one screen. -/
def updatingOnly (_ : PostingsWorld rules) (event : Event (app rules) (firebase rules)) : Bool :=
  match event with
  | .launch _ _ => false
  | .input _ (.editTexts _) | .input _ (.selectSegment _) | .input _ (.pick _)
  | .input _ .updateButton => true
  | .input _ _ => false
  | _ => true

/-- As `updatingOnly`; every press of Update with a complete form finds the wanted
picture in the image view, and no older picture is put over that of the last press. -/
def picturesInOrder (original : String) (world : PostingsWorld rules)
    (event : Event (app rules) (firebase rules)) : Bool :=
  updatingOnly world event &&
    match event, world.objects with
    | .input _ .updateButton, [⟨_, .update screen⟩] =>
        screen.texts.incomplete screen.segmentControl || showsWanted original screen
    | .serve index choice, [⟨_, .update screen⟩] =>
        (world.pending[index]?).all fun pending =>
          !choice.succeeds || inOrder original screen.presses world pending.request
    | _, _ => true

end Tests

/-- The operations of the update screen that can be outstanding. -/
inductive Issued (docPath : String) (presses : List (Option UIImage)) :
    Pending (app rules) → Prop where
  | load {past : Past (app rules)} {answer : Option (Option Snapshot)} :
      Issued docPath presses ⟨0, past, .getDocuments .upload,
        UpdatePostingsViewController.documentsLoaded, answer⟩
  | display {past : Past (app rules)} {url : URL rules} {answer : Option (Option UIImage)} :
      Issued docPath presses ⟨0, past, .loadFrom url, fun (image : Option UIImage) =>
        assign (fun screen : UpdatePostingsViewController =>
          { screen with imageView := image }) .done, answer⟩
  | texts {past : Past (app rules)} {fields : Fields} {answer : Option Bool}
      (silent : Fields.value "Image" fields = none) :
      Issued docPath presses ⟨0, past, .setData .upload docPath fields true, fun _ => .done,
        answer⟩
  | upload {past : Past (app rules)} {data : ImageData} {title : String} {answer : Option Bool}
      (pressed : presses ≠ []) :
      Issued docPath presses ⟨0, past, .putData ("Uploads/" ++ docPath) data,
        pictureUploaded .upload title docPath, answer⟩
  | lookup {past : Past (app rules)} {title : String} {answer : Option (Option (URL rules))}
      (pressed : presses ≠ []) :
      Issued docPath presses ⟨0, past, .downloadURL ("Uploads/" ++ docPath),
        pictureLocated .upload title docPath, answer⟩
  | link {past : Past (app rules)} {url : URL rules} {answer : Option Bool}
      (pressed : presses ≠ []) :
      Issued docPath presses ⟨0, past, .setData .upload docPath [("Image", url.string)] true,
        fun _ => .done, answer⟩

/-- How far the picture of the last press is: its outstanding operation, and whether the
wanted picture is stored and linked by now. Before the first press both hold. -/
inductive Stage (docPath picture : String) (presses : List (Option UIImage))
    (server : Server rules) : Option (Pending (app rules)) → Bool → Bool → Prop where
  | uploading {past : Past (app rules)} {data : ImageData} {title : String}
      (last : ofLastPress presses past = true) (shows : data.picture = picture) :
      Stage docPath picture presses server (some ⟨0, past, .putData ("Uploads/" ++ docPath) data,
        pictureUploaded .upload title docPath, none⟩) false false
  | uploaded {past : Past (app rules)} {data : ImageData} {title : String}
      (last : ofLastPress presses past = true)
      (stored : server.Stores ("Uploads/" ++ docPath) picture) :
      Stage docPath picture presses server (some ⟨0, past, .putData ("Uploads/" ++ docPath) data,
        pictureUploaded .upload title docPath, some true⟩) true false
  | locating {past : Past (app rules)} {title : String}
      (last : ofLastPress presses past = true)
      (stored : server.Stores ("Uploads/" ++ docPath) picture) :
      Stage docPath picture presses server (some ⟨0, past, .downloadURL ("Uploads/" ++ docPath),
        pictureLocated .upload title docPath, none⟩) true false
  | located {past : Past (app rules)} {title : String} {url : URL rules}
      (last : ofLastPress presses past = true)
      (stored : server.Stores ("Uploads/" ++ docPath) picture)
      (shows : server.shows url.string picture = true) :
      Stage docPath picture presses server (some ⟨0, past, .downloadURL ("Uploads/" ++ docPath),
        pictureLocated .upload title docPath, some (some url : Option (URL rules))⟩) true false
  | linking {past : Past (app rules)} {url : URL rules}
      (last : ofLastPress presses past = true)
      (stored : server.Stores ("Uploads/" ++ docPath) picture)
      (shows : server.shows url.string picture = true) :
      Stage docPath picture presses server (some ⟨0, past,
        .setData .upload docPath [("Image", url.string)] true, fun _ => .done, none⟩) true false
  | settled (stored : server.Stores ("Uploads/" ++ docPath) picture)
      (linked : server.Links docPath picture) :
      Stage docPath picture presses server none true true

/-- The picture of the last press in a world. -/
structure Progress (original docPath : String) (presses : List (Option UIImage))
    (world : PostingsWorld rules) (current : Option (Pending (app rules)))
    (stored linked : Bool) : Prop where
  stage : Stage docPath (submitted original presses) presses world.server current stored linked
  outstanding : ∀ pending ∈ current, pending ∈ world.pending
  uploaded : stored = true → presses ≠ [] → uploadedLast presses world = true
  linked : linked = true → presses ≠ [] → linkedLast presses world = true

/-- What every world of one update screen keeps. -/
structure Updating (original docPath : String) (screen : UpdatePostingsViewController)
    (world : PostingsWorld rules) : Prop where
  objects : world.objects = [⟨0, .update screen⟩]
  path : screen.docPath = docPath
  issued : ∀ pending ∈ world.pending, Issued docPath screen.presses pending
  calm : ∀ fault ∈ world.faults, fault.2 ≠ .imageView
  progress : (∀ answer ∈ world.answers, failed answer.2 = false) →
    ∃ current stored linked, Progress original docPath screen.presses world current stored linked

/-- The world is that of one update screen. -/
def Updates (original docPath : String) (world : PostingsWorld rules) : Prop :=
  ∃ screen, Updating original docPath screen world

section Effects

variable {server : Server rules} {docPath picture link path : String}

/-- What the download URL of a version shows does not change when another is stored. -/
theorem shows_store {data : ImageData} {url : URL rules}
    (fresh : (server.version url).isNone = true) (shows : server.shows link picture = true) :
    ({ server with storage := ⟨path, data, url⟩ :: server.storage }).shows link picture =
      true := by
  obtain ⟨object, found, same⟩ := (Option.any_eq_true _ _).mp shows
  obtain ⟨url', parsed, version⟩ := Option.bind_eq_some_iff.mp found
  have different : url ≠ url' := by
    rintro rfl
    simp [version] at fresh
  have kept : ({ server with storage := ⟨path, data, url⟩ :: server.storage } :
      Server rules).version url' = some object := by
    simpa [Server.version, different] using version
  simpa [Server.shows, parsed, kept] using same

/-- A stored version is the current object of its path. -/
theorem stores_store {data : ImageData} {url : URL rules} :
    ({ server with storage := ⟨path, data, url⟩ :: server.storage } : Server rules).Stores path
      data.picture :=
  ⟨⟨path, data, url⟩, by simp [Server.stored], by simp [Server.version], rfl⟩

/-- The download URL of the current object shows its picture. -/
theorem shows_of_stores {object : StoredObject rules} (found : server.stored path = some object)
    (stores : server.Stores path picture) : server.shows object.url.string picture = true := by
  obtain ⟨object', found', version, shows⟩ := stores
  obtain rfl := Option.some.inj (found.symm.trans found')
  simp [Server.shows, version, shows]

/-- A merge that names no `Image` keeps the link. -/
theorem links_texts {fields : Fields} (silent : Fields.value "Image" fields = none)
    (links : server.Links docPath picture) :
    (server.write .upload (.set docPath fields true)).Links docPath picture := by
  obtain ⟨data, link, found, linked, shows⟩ := links
  refine ⟨data.merge fields, link, ?_, ?_, shows⟩
  · simp [found]
  · rw [Doc.getElem?_merge, silent, linked, Option.none_or]

/-- A merge of `Image` links what its URL shows. -/
theorem links_link (shows : server.shows link picture = true) :
    (server.write .upload (.set docPath [("Image", link)] true)).Links docPath picture := by
  refine ⟨((server.documents .upload)[docPath]?.getD ∅).merge [("Image", link)], link, ?_, ?_,
    shows⟩
  · simp
  · rw [Doc.getElem?_merge]
    simp [Fields.value]

end Effects

section Steps

variable {original docPath : String} {presses : List (Option UIImage)}
  {world next : PostingsWorld rules} {event : Event (app rules) (firebase rules)}
  {current : Option (Pending (app rules))} {stored linked : Bool}

/-- Answers are never forgotten. -/
theorem mem_answers_of_step (taken : world.step event = some next)
    {answer : Past (app rules) × Exchange (remote rules)} (member : answer ∈ world.answers) :
    answer ∈ next.answers :=
  mem_answers_iff.mpr ((mem_answers_iff.mp member).step taken)

/-- What has been answered stays answered. -/
theorem any_answers_of_step (taken : world.step event = some next)
    {check : Past (app rules) × Exchange (remote rules) → Bool}
    (here : world.answers.any check = true) : next.answers.any check = true := by
  obtain ⟨answer, member, checked⟩ := List.any_eq_true.mp here
  exact List.any_eq_true.mpr ⟨answer, mem_answers_of_step taken member, checked⟩

/-- A step that leaves the current operation alone keeps the progress. -/
theorem Progress.keep (progress : Progress original docPath presses world current stored linked)
    (taken : world.step event = some next)
    (stage : Stage docPath (submitted original presses) presses next.server current stored
      linked)
    (outstanding : ∀ pending ∈ current, pending ∈ next.pending) :
    Progress original docPath presses next current stored linked where
  stage := stage
  outstanding := outstanding
  uploaded here pressed := any_answers_of_step taken (progress.uploaded here pressed)
  linked here pressed := any_answers_of_step taken (progress.linked here pressed)

section Serve

variable {server later : Server rules} {picture : String} {self : Nat} {past : Past (app rules)}
  {request : Request rules} {completion : request.Response → Handler rules}
  {response : request.Response}

/-- Serving an operation of the screen keeps the stored and the linked picture, unless it
puts another picture there. -/
theorem Issued.effects
    (issued : Issued docPath presses ⟨self, past, request, completion, none⟩)
    (served : server.Served request later response)
    (stores : stored = true → ∀ path data, request = .putData path data →
      data.picture = picture)
    (links : linked = true → ∀ link, request = .setData .upload docPath [("Image", link)] true →
      server.shows link picture = true) :
    (stored = true → server.Stores ("Uploads/" ++ docPath) picture →
      later.Stores ("Uploads/" ++ docPath) picture) ∧
    (∀ link, server.shows link picture = true → later.shows link picture = true) ∧
    (linked = true → server.Links docPath picture → later.Links docPath picture) := by
  cases issued with
  | load => cases served <;> exact ⟨fun _ => id, fun _ => id, fun _ => id⟩
  | display => cases served <;> exact ⟨fun _ => id, fun _ => id, fun _ => id⟩
  | lookup => cases served <;> exact ⟨fun _ => id, fun _ => id, fun _ => id⟩
  | texts silent =>
      cases served with
      | set => exact ⟨fun _ => id, fun _ => id, fun _ => links_texts silent⟩
      | setFailed => exact ⟨fun _ => id, fun _ => id, fun _ => id⟩
  | link =>
      cases served with
      | set =>
          exact ⟨fun _ => id, fun _ => id, fun here _ => links_link (links here _ rfl)⟩
      | setFailed => exact ⟨fun _ => id, fun _ => id, fun _ => id⟩
  | @upload _ data =>
      cases served with
      | uploaded fresh =>
          refine ⟨fun here _ => stores here _ _ rfl ▸ stores_store, fun _ => shows_store fresh, ?_⟩
          rintro - ⟨data', link, found, same, shows⟩
          exact ⟨data', link, found, same, shows_store fresh shows⟩
      | uploadFailed => exact ⟨fun _ => id, fun _ => id, fun _ => id⟩

/-- The stage when another operation is served. -/
theorem Stage.serve_other
    (stage : Stage docPath picture presses server current stored linked)
    (issued : Issued docPath presses ⟨self, past, request, completion, none⟩)
    (served : server.Served request later response)
    (stores : stored = true → ∀ path data, request = .putData path data →
      data.picture = picture)
    (links : linked = true → ∀ link, request = .setData .upload docPath [("Image", link)] true →
      server.shows link picture = true) :
    Stage docPath picture presses later current stored linked := by
  obtain ⟨keepsStored, keepsShows, keepsLinks⟩ := issued.effects served stores links
  cases stage with
  | uploading last shows => exact .uploading last shows
  | uploaded last stored => exact .uploaded last (keepsStored rfl stored)
  | locating last stored => exact .locating last (keepsStored rfl stored)
  | located last stored shows => exact .located last (keepsStored rfl stored) (keepsShows _ shows)
  | linking last stored shows => exact .linking last (keepsStored rfl stored) (keepsShows _ shows)
  | settled stored linked => exact .settled (keepsStored rfl stored) (keepsLinks rfl linked)

/-- The progress with the operation of the last press answered. -/
theorem Progress.answer {answered : Pending (app rules)}
    (progress : Progress original docPath presses world current stored linked)
    (taken : world.step event = some next)
    (stage : Stage docPath (submitted original presses) presses next.server (some answered) true
      false)
    (here : answered ∈ next.pending)
    (uploaded : stored = true ∨ uploadedLast presses next = true) :
    Progress original docPath presses next (some answered) true false where
  stage := stage
  outstanding := by
    rintro pending ⟨⟩
    exact here
  uploaded _ pressed := by
    rcases uploaded with older | now
    · exact any_answers_of_step taken (progress.uploaded older pressed)
    · exact now
  linked := nofun

/-- The progress when the operation of the last press is served. -/
theorem Progress.serve_current
    (progress : Progress original docPath presses world
      (some ⟨self, past, request, completion, none⟩) stored linked)
    (taken : world.step event = some next) (now : next.server = later)
    (served : world.server.Served request later response)
    (success : failed ⟨request, response⟩ = false)
    (here : ⟨self, past, request, completion, some response⟩ ∈ next.pending) :
    ∃ current stored linked, Progress original docPath presses next current stored linked := by
  have answered : (past, ⟨request, response⟩) ∈ next.answers :=
    mem_answers_iff.mpr (.awaiting here)
  have stage := progress.stage
  cases stage with
  | uploading last shows =>
      cases served with
      | uploaded fresh =>
          refine ⟨_, _, _, progress.answer taken (.uploaded last ?_) here (.inr ?_)⟩
          · rw [now, ← shows]
            exact stores_store
          · exact List.any_eq_true.mpr ⟨_, answered, by simp [last]⟩
      | uploadFailed => cases success
  | locating last stores =>
      cases served with
      | located =>
          obtain ⟨object, found, version, shows⟩ := stores
          rw [found, Option.map_some] at here
          have stores' : next.server.Stores ("Uploads/" ++ docPath)
              (submitted original presses) := now ▸ ⟨object, found, version, shows⟩
          exact ⟨_, _, _, progress.answer taken
            (.located last stores' (shows_of_stores (now ▸ found) stores')) here (.inl rfl)⟩
      | locateFailed => cases success
  | linking last stores shows =>
      cases served with
      | set =>
          have settled : Stage docPath (submitted original presses) presses next.server none true
              true := by
            rw [now]
            exact .settled stores (links_link shows)
          refine ⟨none, true, true, settled, ?_, fun _ pressed => ?_, fun _ _ => ?_⟩
          · intro pending member
            cases member
          · exact any_answers_of_step taken (progress.uploaded rfl pressed)
          · exact List.any_eq_true.mpr ⟨_, answered, by simp [last, Fields.value]⟩
      | setFailed => simp [failed, Fields.value] at success

end Serve

/-- What a handler other than a press of Update can do. -/
structure Handled (docPath : String) (screen : UpdatePostingsViewController)
    (world next : PostingsWorld rules) : Prop where
  objects : ∃ shown : UpdatePostingsViewController, next.objects = [⟨0, .update shown⟩] ∧
    shown.docPath = screen.docPath ∧ shown.presses = screen.presses
  issued : ∀ pending ∈ next.pending, pending ∈ world.pending ∨
    Issued docPath screen.presses pending
  calm : ∀ fault ∈ next.faults, fault ∈ world.faults ∨ fault.2 ≠ .imageView

section Handlers

variable {screen : UpdatePostingsViewController} {past : Past (app rules)}

/-- A handler that does nothing. -/
theorem Handled.refl (placed : world.objects = [⟨0, .update screen⟩]) :
    Handled docPath screen world world :=
  ⟨⟨screen, placed, rfl, rfl⟩, fun _ => .inl, fun _ => .inl⟩

theorem objects_setObject {shown : UpdatePostingsViewController}
    (placed : world.objects = [⟨0, .update screen⟩]) :
    (world.setObject 0 ⟨0, .update shown⟩).objects = [⟨0, .update shown⟩] := by
  simp [World.setObject, placed]

/-- A handler that assigns to the screen and goes on. -/
theorem Handled.assign {shown : UpdatePostingsViewController}
    (rest : Handled docPath shown (world.setObject 0 ⟨0, .update shown⟩) next)
    (path : shown.docPath = screen.docPath) (presses : shown.presses = screen.presses) :
    Handled docPath screen world next where
  objects := by
    obtain ⟨last, placed, samePath, samePresses⟩ := rest.objects
    exact ⟨last, placed, samePath.trans path, samePresses.trans presses⟩
  issued pending member := presses ▸ rest.issued pending member
  calm := rest.calm

/-- A handler that starts an operation and goes on. -/
theorem Handled.call {pending : Pending (app rules)}
    (rest : Handled docPath screen { world with pending := world.pending ++ [pending] } next)
    (issued : Issued docPath screen.presses pending) : Handled docPath screen world next where
  objects := rest.objects
  issued other member := by
    rcases rest.issued other member with older | new
    · rcases List.mem_append.mp older with older | added
      · exact .inl older
      · exact .inr (List.mem_singleton.mp added ▸ issued)
    · exact .inr new
  calm := rest.calm

/-- A forced unwrap other than that of the image view. -/
theorem Handled.trap {fault : Fault} (placed : world.objects = [⟨0, .update screen⟩])
    (other : fault ≠ .imageView) :
    Handled docPath screen world { world with faults := (0, fault) :: world.faults } where
  objects := ⟨screen, placed, rfl, rfl⟩
  issued _ := .inl
  calm found member := by
    rcases List.mem_cons.mp member with rfl | older
    · exact .inr other
    · exact .inl older

/-- A handler that shows an alert and goes on. -/
theorem Handled.alert {title : String}
    (rest : Handled docPath screen { world with alerts := (past, title) :: world.alerts } next) :
    Handled docPath screen world next := { rest with }

/-- The loop over a snapshot fills in the form and loads pictures. -/
theorem fill_handled {documents : Snapshot} (placed : world.objects = [⟨0, .update screen⟩]) :
    Handled docPath screen world
      (exec 0 past (UpdatePostingsViewController.fill documents) ⟨0, .update screen⟩ world) := by
  induction documents generalizing screen world with
  | nil => exact .refl placed
  | cons document documents inductionHypothesis =>
      obtain ⟨documentID, data⟩ := document
      simp only [UpdatePostingsViewController.fill, this, World.exec, Controller.ofScreen]
      split
      · cases data["Image"]? with
        | none => exact .trap placed (by decide)
        | some image =>
            rw [Code.unwrap_some]
            cases URL.ofString rules image with
            | none => exact .trap placed (by decide)
            | some url =>
                exact .call (.assign (inductionHypothesis (objects_setObject placed)) rfl rfl)
                  .display
      · exact inductionHypothesis placed

/-- Edits, picks, and presses of Update that do not pass validation. -/
theorem handle_handled {input : Input}
    (only : updatingOnly world (.input 0 input) = true)
    (refused : input = .updateButton → screen.texts.incomplete screen.segmentControl = true)
    (placed : world.objects = [⟨0, .update screen⟩]) :
    Handled docPath screen world
      (exec 0 past ((app rules).handler input) ⟨0, .update screen⟩ world) := by
  cases input with
  | editTexts texts => exact .assign (.refl (objects_setObject placed)) rfl rfl
  | selectSegment index =>
      simp only [World.exec, Screen.handle, UpdatePostingsViewController.handle]
      split
      · exact .assign (.refl (objects_setObject placed)) rfl rfl
      · exact .refl placed
  | pick image => exact .assign (.refl (objects_setObject placed)) rfl rfl
  | updateButton =>
      simp only [World.exec, Screen.handle, UpdatePostingsViewController.handle,
        UpdatePostingsViewController.updateButton, this, Controller.ofScreen, refused rfl, if_true]
      exact .alert (.refl placed)
  | _ => cases only

/-- What the completion handlers of the screen do. -/
theorem Issued.handle {self : Nat} {older : Past (app rules)} {request : Request rules}
    {completion : request.Response → Handler rules} {response : request.Response}
    (issued : Issued docPath screen.presses ⟨self, older, request, completion, some response⟩)
    (placed : world.objects = [⟨0, .update screen⟩]) :
    Handled docPath screen world
      (exec 0 past (completion response) ⟨0, .update screen⟩ world) := by
  cases issued with
  | load =>
      cases response with
      | none => exact .refl placed
      | some documents => exact fill_handled placed
  | display => exact .assign (.refl (objects_setObject placed)) rfl rfl
  | texts => exact .refl placed
  | link => exact .refl placed
  | upload pressed =>
      cases response with
      | false => exact .refl placed
      | true => exact .call (.refl placed) (.lookup pressed)
  | lookup pressed =>
      unfold pictureLocated Handler.document
      split
      · exact .trap placed (by decide)
      · cases response with
        | none => exact .trap placed (by decide)
        | some url => exact .call (.alert (.refl placed)) (.link pressed)

/-- The progress when the completion handler of the operation of the last press runs. -/
theorem Progress.handle_current {self : Nat} {request : Request rules}
    {completion : request.Response → Handler rules} {response : request.Response}
    {before : PostingsWorld rules}
    (progress : Progress original docPath presses world
      (some ⟨self, past, request, completion, some response⟩) stored linked)
    (taken : world.step event = some next) (named : docPath ≠ "")
    (server : before.server = world.server)
    (ran : next = exec 0 (past.answered request response) (completion response)
      ⟨0, .update screen⟩ before) :
    ∃ current stored linked, Progress original docPath presses next current stored linked := by
  have stage := progress.stage
  have same : next.server = world.server := by rw [ran, exec_server, server]
  cases stage with
  | @uploaded _ data title last stores =>
      have here : ⟨0, past.answered (.putData ("Uploads/" ++ docPath) data) true,
          .downloadURL ("Uploads/" ++ docPath), pictureLocated .upload title docPath, none⟩ ∈
            next.pending := by
        rw [ran]
        exact List.mem_append_right _ (List.mem_singleton.mpr rfl)
      have stage : Stage docPath (submitted original presses) presses next.server (some ⟨0,
          past.answered (.putData ("Uploads/" ++ docPath) data) true,
          .downloadURL ("Uploads/" ++ docPath), pictureLocated .upload title docPath, none⟩)
            true false := by
        rw [same]
        exact .locating last stores
      exact ⟨_, _, _, progress.answer taken stage here (.inl rfl)⟩
  | @located _ title url last stores shows =>
      have here : ⟨0, past.answered (.downloadURL ("Uploads/" ++ docPath)) (some url),
          .setData .upload docPath [("Image", url.string)] true, fun _ => .done, none⟩ ∈
            next.pending := by
        rw [ran, pictureLocated, Handler.document, if_neg named]
        exact List.mem_append_right _ (List.mem_singleton.mpr rfl)
      have stage : Stage docPath (submitted original presses) presses next.server (some ⟨0,
          past.answered (.downloadURL ("Uploads/" ++ docPath)) (some url),
          .setData .upload docPath [("Image", url.string)] true, fun _ => .done, none⟩)
            true false := by
        rw [same]
        exact .linking last stores shows
      exact ⟨_, _, _, progress.answer taken stage here (.inl rfl)⟩

end Handlers

section Events

variable {screen : UpdatePostingsViewController}

/-- A further press takes no operation away. -/
theorem Issued.pressed {pending : Pending (app rules)} {press : Option UIImage}
    (issued : Issued docPath presses pending) : Issued docPath (press :: presses) pending := by
  cases issued with
  | load => exact .load
  | display => exact .display
  | texts silent => exact .texts silent
  | upload => exact .upload (List.cons_ne_nil _ _)
  | lookup => exact .lookup (List.cons_ne_nil _ _)
  | link => exact .link (List.cons_ne_nil _ _)

/-- An operation stays one of the screen's when it is answered. -/
theorem Issued.answered {self : Nat} {past : Past (app rules)} {request : Request rules}
    {completion : request.Response → Handler rules} {response : request.Response}
    (issued : Issued docPath presses ⟨self, past, request, completion, none⟩) :
    Issued docPath presses ⟨self, past, request, completion, some response⟩ := by
  cases issued with
  | load => exact .load
  | display => exact .display
  | texts silent => exact .texts silent
  | upload pressed => exact .upload pressed
  | lookup pressed => exact .lookup pressed
  | link pressed => exact .link pressed

/-- Operations on the picture are started by presses of Update. -/
theorem Issued.pressed_of_putData {self : Nat} {past : Past (app rules)} {path : String}
    {data : ImageData} {completion : Bool → Handler rules} {answer : Option Bool}
    (issued : Issued docPath presses ⟨self, past, .putData path data, completion, answer⟩) :
    presses ≠ [] := by
  cases issued with
  | upload pressed => exact pressed

theorem Issued.pressed_of_link {self : Nat} {past : Past (app rules)} {link : String}
    {completion : Bool → Handler rules} {answer : Option Bool}
    (issued : Issued docPath presses
      ⟨self, past, .setData .upload docPath [("Image", link)] true, completion, answer⟩) :
    presses ≠ [] := by
  cases issued with
  | texts silent => simp [Fields.value] at silent
  | link pressed => exact pressed

/-- Answers so far did not fail if those of the next world did not. -/
theorem answers_of_next (taken : world.step event = some next)
    (succeeded : ∀ answer ∈ next.answers, failed answer.2 = false) :
    ∀ answer ∈ world.answers, failed answer.2 = false :=
  fun answer member => succeeded answer (mem_answers_of_step taken member)

/-- A handler that is not a press of Update, with what it does to the picture of the
last press. -/
theorem Updating.of_handled {before : PostingsWorld rules}
    (updating : Updating original docPath screen world)
    (handled : Handled docPath screen before next)
    (older : ∀ pending ∈ before.pending, pending ∈ world.pending)
    (faults : before.faults = world.faults)
    (progress : (∀ answer ∈ next.answers, failed answer.2 = false) → ∃ current stored linked,
      Progress original docPath screen.presses next current stored linked) :
    ∃ shown, Updating original docPath shown next := by
  obtain ⟨shown, placed, path, presses⟩ := handled.objects
  refine ⟨shown, placed, path.trans updating.path, ?_, ?_, presses ▸ progress⟩
  · intro pending member
    rw [presses]
    rcases handled.issued pending member with there | new
    · exact updating.issued pending (older pending there)
    · exact new
  · intro fault member
    rcases handled.calm fault member with there | other
    · exact updating.calm fault (faults ▸ there)
    · exact other

/-- The screen after a press of Update with a complete form. -/
def afterUpdate (screen : UpdatePostingsViewController) : UpdatePostingsViewController :=
  { screen with
    titleUpdate := screen.chosenTitle
    presses := screen.picked :: screen.presses }

/-- A press of Update with a complete form starts a merge of the texts and an upload. -/
theorem exec_updateButton {past : Past (app rules)} {data : ImageData} {image : UIImage}
    (placed : world.objects = [⟨0, .update screen⟩]) (named : screen.docPath ≠ "")
    (complete : screen.texts.incomplete screen.segmentControl = false)
    (shown : screen.imageView = some image) (encoded : image.jpegData = some data) :
    exec 0 past UpdatePostingsViewController.updateButton ⟨0, .update screen⟩ world =
      { world with
        objects := [⟨0, .update (afterUpdate screen)⟩]
        pending := world.pending ++
          [⟨0, past, .setData .upload screen.docPath screen.changes true, fun _ => .done, none⟩,
            ⟨0, past, .putData ("Uploads/" ++ screen.docPath) data,
              pictureUploaded .upload "Update Sucessful" screen.docPath, none⟩] } := by
  simp [UpdatePostingsViewController.updateButton, UpdatePostingsViewController.uploadImage,
    uploadPicture, this, Handler.assign, document, Code.fire, Controller.ofScreen,
    Controller.screen, World.exec, World.setObject, placed, named, complete, shown, encoded,
    afterUpdate]

/-- A press of Update with a complete form, while the image view shows the wanted
picture, starts the upload of that picture. -/
theorem Updating.press {past : Past (app rules)}
    (updating : Updating original docPath screen world) (named : docPath ≠ "")
    (taken : world.step event = some next) (began : past.entry.object = .update screen)
    (ran : next = exec 0 past UpdatePostingsViewController.updateButton ⟨0, .update screen⟩
      { world with clock := world.clock + 1 })
    (complete : screen.texts.incomplete screen.segmentControl = false)
    (shows : showsWanted original screen = true) :
    Updating original docPath (afterUpdate screen) next := by
  obtain ⟨image, shown, ready⟩ := (Option.any_eq_true _ _).mp shows
  obtain ⟨encodable, same⟩ := Bool.and_eq_true_iff.mp ready
  have encoded : image.jpegData = some ⟨image.picture⟩ := by
    simp [UIImage.jpegData, encodable]
  have placed : ({ world with clock := world.clock + 1 } : PostingsWorld rules).objects =
      [⟨0, .update screen⟩] := updating.objects
  obtain rfl := updating.path
  rw [exec_updateButton placed named complete shown encoded] at ran
  subst ran
  refine ⟨rfl, rfl, ?_, updating.calm, ?_⟩
  · intro pending member
    rcases List.mem_append.mp member with older | added
    · exact (updating.issued pending older).pressed
    · rcases List.mem_cons.mp added with rfl | added
      · exact .texts rfl
      · obtain rfl := List.mem_singleton.mp added
        exact .upload (List.cons_ne_nil _ _)
  · intro _
    have stage : Stage screen.docPath (submitted original (afterUpdate screen).presses)
        (afterUpdate screen).presses world.server (some ⟨0, past,
          .putData ("Uploads/" ++ screen.docPath) ⟨image.picture⟩,
          pictureUploaded .upload "Update Sucessful" screen.docPath, none⟩) false false := by
      refine .uploading ?_ ?_
      · simp [ofLastPress, began, afterUpdate]
      · simpa [submitted, afterUpdate] using same
    refine ⟨_, false, false, stage, ?_, nofun, nofun⟩
    rintro pending ⟨⟩
    exact List.mem_append_right _ (List.mem_cons_of_mem _ List.mem_cons_self)

/-- Only an operation on the picture that succeeds can put another picture there. -/
theorem inOrder_of_success {server later : Server rules} {request : Request rules}
    {response : request.Response} {choice : Server.Choice rules}
    (serves : server.serve request choice = some (later, response))
    (success : failed ⟨request, response⟩ = false)
    (ordered : choice.succeeds = true → inOrder original presses world request = true) :
    (∀ path data, request = .putData path data →
      inOrder original presses world (.putData path data) = true) ∧
    ∀ link, request = .setData .upload docPath [("Image", link)] true →
      inOrder original presses world (.setData .upload docPath [("Image", link)] true) = true := by
  constructor
  · rintro path data rfl
    cases choice <;> simp [Server.serve] at serves
    · obtain ⟨-, rfl⟩ := serves
      cases success
    · exact ordered rfl
  · rintro link rfl
    cases choice <;> simp [Server.serve] at serves
    · obtain ⟨-, rfl⟩ := serves
      simp [failed, Fields.value] at success
    · exact ordered rfl

/-- Serving an operation keeps what one update screen keeps. -/
theorem Updating.serve {index self : Nat} {past : Past (app rules)} {request : Request rules}
    {completion : request.Response → Handler rules} {later : Server rules}
    {response : request.Response} {choice : Server.Choice rules}
    (updating : Updating original docPath screen world)
    (found : world.pending[index]? = some ⟨self, past, request, completion, none⟩)
    (serves : world.server.serve request choice = some (later, response))
    (ordered : choice.succeeds = true →
      inOrder original screen.presses world request = true)
    (taken : world.step event = some next)
    (now : next = { world with
      server := later
      pending := world.pending.set index ⟨self, past, request, completion, some response⟩ }) :
    Updating original docPath screen next := by
  have here : ⟨self, past, request, completion, some response⟩ ∈ next.pending := by
    rw [now]
    exact List.mem_set (List.getElem?_eq_some_iff.mp found).1 _
  have issued := updating.issued _ (List.mem_of_getElem? found)
  refine ⟨by rw [now]; exact updating.objects, updating.path, ?_, by rw [now]; exact updating.calm,
    fun succeeded => ?_⟩
  · intro pending member
    rw [now] at member
    rcases List.mem_or_eq_of_mem_set member with older | rfl
    · exact updating.issued pending older
    · exact issued.answered
  · have success := succeeded (past, ⟨request, response⟩) (mem_answers_iff.mpr (.awaiting here))
    obtain ⟨current, stored, linked, progress⟩ :=
      updating.progress (answers_of_next taken succeeded)
    have server : next.server = later := by rw [now]
    have served := Server.served_of_serve serves
    by_cases same : current = some ⟨self, past, request, completion, none⟩
    · subst same
      exact progress.serve_current taken server served success here
    · obtain ⟨uploads, links⟩ := inOrder_of_success serves success ordered
      refine ⟨current, stored, linked, progress.keep taken ?_ ?_⟩
      · rw [server]
        refine progress.stage.serve_other issued served ?_ ?_
        · rintro before path data rfl
          have last := progress.uploaded before issued.pressed_of_putData
          simpa [inOrder, last] using uploads path data rfl
        · rintro before link rfl
          have last := progress.linked before issued.pressed_of_link
          simpa [inOrder, last, Fields.value] using links link rfl
      · intro pending member
        have different : pending ≠ ⟨self, past, request, completion, none⟩ := by
          rintro rfl
          exact same member
        rw [now]
        exact (mem_rest_of_ne found (progress.outstanding pending member) different).2 _

/-- Handling an answer keeps what one update screen keeps. -/
theorem Updating.reply {index self : Nat} {past : Past (app rules)} {request : Request rules}
    {completion : request.Response → Handler rules}
    {response : request.Response}
    (updating : Updating original docPath screen world) (named : docPath ≠ "")
    (found : world.pending[index]? = some ⟨self, past, request, completion, some response⟩)
    (taken : world.step event = some next)
    (now : next = exec 0 (past.answered request response) (completion response)
      ⟨0, .update screen⟩
      { world with
        pending := world.pending.eraseIdx index
        acknowledged := (past, ⟨request, response⟩) :: world.acknowledged }) :
    ∃ shown, Updating original docPath shown next := by
  have issued := updating.issued _ (List.mem_of_getElem? found)
  have handled : Handled docPath screen
      { world with
        pending := world.pending.eraseIdx index
        acknowledged := (past, ⟨request, response⟩) :: world.acknowledged } next := by
    rw [now]
    exact issued.handle updating.objects
  refine updating.of_handled handled (fun _ => List.mem_of_mem_eraseIdx) rfl fun succeeded => ?_
  obtain ⟨current, stored, linked, progress⟩ :=
    updating.progress (answers_of_next taken succeeded)
  by_cases same : current = some ⟨self, past, request, completion, some response⟩
  · subst same
    refine progress.handle_current taken named ?_ now
    rfl
  · refine ⟨current, stored, linked, progress.keep taken ?_ ?_⟩
    · rw [now, exec_server]
      exact progress.stage
    · intro pending member
      have different : pending ≠ ⟨self, past, request, completion, some response⟩ := by
        rintro rfl
        exact same member
      rw [now]
      exact mem_exec_pending
        (mem_rest_of_ne found (progress.outstanding pending member) different).1

/-- Every step of `picturesInOrder` keeps what one update screen keeps. -/
theorem Updating.step (updating : Updating original docPath screen world) (named : docPath ≠ "")
    (tested : picturesInOrder original world event = true)
    (taken : world.step event = some next) :
    ∃ shown, Updating original docPath shown next := by
  obtain ⟨only, ordered⟩ := Bool.and_eq_true_iff.mp tested
  cases stepped_of_step taken with
  | launched => cases only
  | @began self input target placed runs =>
      obtain ⟨rfl, rfl⟩ := eq_of_singleton updating.objects placed
      by_cases press : input = .updateButton ∧
          screen.texts.incomplete screen.segmentControl = false
      · obtain ⟨rfl, complete⟩ := press
        rw [updating.objects] at ordered
        simp only [complete, Bool.false_or] at ordered
        exact ⟨_, updating.press named taken rfl rfl complete ordered⟩
      · refine updating.of_handled (handle_handled only ?_ ?_) (fun _ => id) rfl
          fun succeeded => ?_
        · rintro rfl
          simpa using press
        · exact updating.objects
        · obtain ⟨current, stored, linked, progress⟩ :=
            updating.progress (answers_of_next taken succeeded)
          refine ⟨current, stored, linked, progress.keep taken ?_ ?_⟩
          · rw [exec_server]
            exact progress.stage
          · exact fun pending member => mem_exec_pending (progress.outstanding pending member)
  | @served index self choice past request completion later response found serves =>
      rw [updating.objects] at ordered
      refine ⟨screen, updating.serve found serves (fun succeeds => ?_) taken rfl⟩
      simpa [found, succeeds] using ordered
  | @completed index self past request completion response target found placed =>
      obtain ⟨rfl, rfl⟩ := eq_of_singleton updating.objects placed
      exact updating.reply named found taken rfl

end Events

end Steps

section Runs

variable {server : Server rules} {original docPath : String} {user : User}

/-- The update screen of a posting opens with the posting's picture stored and linked. -/
theorem updating_opened (pictured : Pictured server docPath original) :
    Updating original docPath (.prepared docPath user docPath)
      (updateOpened server docPath user) where
  objects := rfl
  path := rfl
  issued pending member := by
    obtain rfl := List.mem_singleton.mp member
    exact .load
  calm := nofun
  progress _ := by
    refine ⟨none, true, true, .settled pictured.stored pictured.linked, ?_, ?_, ?_⟩
    · intro pending member
      cases member
    · exact fun _ pressed => absurd rfl pressed
    · exact fun _ pressed => absurd rfl pressed

/-- One update screen keeps the right picture, once nothing is outstanding. -/
theorem Updating.keepsPicture {screen : UpdatePostingsViewController}
    {world : PostingsWorld rules} (updating : Updating original docPath screen world) :
    KeepsPicture original world where
  calm := updating.calm
  pictured quiet succeeded process shown placed := by
    obtain ⟨-, same⟩ := eq_of_singleton updating.objects placed
    cases same
    have answers : world.answers = world.acknowledged := by simp [World.answers, quiet]
    obtain ⟨current, stored, linked, progress⟩ := updating.progress (answers ▸ succeeded)
    have stage := progress.stage
    have idle : current = none := by
      by_contra busy
      obtain ⟨pending, same⟩ := Option.ne_none_iff_exists'.mp busy
      simpa [quiet] using progress.outstanding pending same
    cases stage with
    | settled stored linked =>
        rw [updating.path]
        exact ⟨stored, linked⟩
    | _ => cases idle

/-- Update keeps the right picture when its presses find it in the image view and no
older picture is put over that of the last press. -/
theorem keeps_picture {world : PostingsWorld rules} (named : docPath ≠ "")
    (pictured : Pictured server docPath original)
    (reached : (system rules).Reaches (picturesInOrder original)
      (updateOpened server docPath user) world) :
    KeepsPicture original world := by
  have updates : Updates original docPath world := by
    refine reached.invariant ⟨_, updating_opened pictured⟩ ?_
    intro state event next valid tested taken
    obtain ⟨screen, updating⟩ := valid
    exact updating.step named tested taken
  obtain ⟨screen, updating⟩ := updates
  exact updating.keepsPicture

end Runs

section Schedules

/-- Screen 0 publishes a posting with a photo. -/
def photographing : List (Event (app anyText) (firebase anyText)) :=
  [.launch 0 .upload, .input 0 (.pick ⟨"broom", true⟩), .input 0 (.editTexts form),
    .input 0 (.selectSegment 0), .input 0 (.uploadButton (some alice)), .serve 0 (.name "d1"),
    .reply 0, .serve 0 (.token firstURL), .reply 0, .serve 0 .ok, .reply 0, .serve 0 .ok,
    .reply 0, .serve 0 .ok, .reply 0]

/-- The backend with that posting. -/
def photographed : Server anyText :=
  let world : PostingsWorld anyText :=
    ((system anyText).runWhile (system anyText).anyStep (start anyText) photographing).getD
      (start anyText)
  world.server

theorem pictured_photographed : Pictured photographed "d1" "broom" where
  stored := ⟨⟨"Uploads/d1", ⟨"broom"⟩, firstURL⟩, by decide +kernel⟩
  linked := by
    have linked : (((photographed.documents .upload)["d1"]?).bind (·["Image"]?)).any
        (photographed.shows · "broom") = true := by decide +kernel
    obtain ⟨link, found, shows⟩ := (Option.any_eq_true _ _).mp linked
    obtain ⟨data, document, image⟩ := Option.bind_eq_some_iff.mp found
    exact ⟨data, link, document, image, shows⟩

/-- The picture has loaded when Update is pressed; every operation succeeds. -/
theorem keeps_picture_loaded :
    ∃ world, (system anyText).Reaches (picturesInOrder "broom")
      (updateOpened photographed "d1" alice) world ∧
      (world.pending.isEmpty && uploadedLast [none] world) = true ∧
      KeepsPicture "broom" world := by
  obtain ⟨world, reached, ended⟩ := Machine.exists_reaches (m := system anyText)
    (picturesInOrder "broom") (updateOpened photographed "d1" alice)
    [.serve 0 .ok, .reply 0, .serve 0 (.image ⟨"broom", true⟩), .reply 0, .input 0 .updateButton,
      .serve 0 .ok, .reply 0, .serve 0 (.token secondURL), .reply 0, .serve 0 .ok, .reply 0,
      .serve 0 .ok, .reply 0]
    (fun world : PostingsWorld anyText => world.pending.isEmpty && uploadedLast [none] world)
    (by decide +kernel)
  exact ⟨world, reached, ended, keeps_picture (by decide) pictured_photographed reached⟩

/-- Update is pressed before the posting's picture has loaded: the storyboard's
placeholder replaces it. -/
theorem placeholder_replaces_picture :
    ¬ ∀ (rules : URLRules) (server : Server rules) (docPath original : String) (user : User)
        (world : PostingsWorld rules), docPath ≠ "" → Pictured server docPath original →
      (system rules).Reaches updatingOnly (updateOpened server docPath user) world →
      KeepsPicture original world := by
  intro keeps
  obtain ⟨world, reached, ended⟩ := Machine.exists_reaches (m := system anyText) updatingOnly
    (updateOpened photographed "d1" alice)
    [.serve 0 .ok, .reply 0, .input 0 .updateButton, .serve 0 (.image ⟨"broom", true⟩), .reply 0,
      .serve 0 .ok, .reply 0, .serve 0 (.token secondURL), .reply 0, .serve 0 .ok, .reply 0,
      .serve 0 .ok, .reply 0]
    (fun world : PostingsWorld anyText => world.pending.isEmpty &&
      world.acknowledged.all (fun handled => !failed handled.2) &&
      ((world.objects[0]?).any fun target =>
        (Controller.ofScreen target.object : Option UpdatePostingsViewController).any fun screen =>
          screen.docPath == "d1" && screen.presses == [none]) &&
      (world.server.stored "Uploads/d1").all fun object => object.data.picture != "broom")
    (by decide +kernel)
  simp only [Bool.and_eq_true, List.isEmpty_iff, List.all_eq_true, Bool.not_eq_true'] at ended
  obtain ⟨⟨⟨quiet, succeeded⟩, placed⟩, replaced⟩ := ended
  obtain ⟨⟨process, object⟩, placed, same⟩ := (Option.any_eq_true _ _).mp placed
  have kept := keeps anyText _ "d1" "broom" alice world (by decide) pictured_photographed reached
  cases object with
  | update screen =>
      obtain ⟨path, presses⟩ := Bool.and_eq_true_iff.mp same
      have pictured := kept.pictured quiet (fun handled => succeeded handled) process screen placed
      rw [beq_iff_eq.mp path, beq_iff_eq.mp presses] at pictured
      obtain ⟨object, stored, -, shows⟩ := pictured.stored
      have other : object.data.picture ≠ "broom" := by
        simpa using (Option.all_eq_true _ _).mp replaced object stored
      exact other shows
  | _ => cases same

end Schedules

end Postings

end Gbc
