import Gbc.Market.Opening
import Gbc.Market.Submission
import Gbc.Platform.Reports
import Gbc.Platform.Settling

/-!
# Every submission is concluded

Once the users stop, the backend and the completion handlers bring every submission to its
end, in whatever order they take their turns: it is refused, or its document and its picture
have gone through all their operations, or the process has trapped. A handler reports by
calling `present` with an alert, whether or not the form can still show it.
-/

namespace Gbc

open Callback Handler World

variable {rules : URLRules}

namespace Postings

/-- A relation between screens, the operations that they start and the completion handlers.
The operations of the readers may have any completion handlers. -/
structure Relates (related : Past (app rules) → Screen → (request : Request rules) →
    (request.Response → Handler rules) → Prop) : Prop where
  load {past screen collection completion} :
    related past screen (.getDocuments collection) completion
  display {past screen url completion} : related past screen (.loadFrom url) completion
  post {past form data} : related past (.upload form) (.addDocument .upload data)
    UploadMarketPlaceViewController.documentAdded
  inform {past form data} : related past (.addInfo form) (.addDocument .infoUpload data)
    AddInfoViewController.documentAdded
  store {past screen collection title refId data} : related past screen
    (.putData ("Uploads/" ++ refId) data) (pictureUploaded collection title refId)
  locate {past screen collection title refId} (success : title ∈ successTitles) : related past
    screen (.downloadURL ("Uploads/" ++ refId)) (pictureLocated collection title refId)
  set {past screen collection document data merge} :
    related past screen (.setData collection document data merge) fun _ => .done
  delete {past screen collection document} :
    related past screen (.delete collection document) fun _ => .done

namespace Relates

variable {related : Past (app rules) → Screen → (request : Request rules) →
    (request.Response → Handler rules) → Prop}
  {past : Past (app rules)} {next : Handler rules} {screen : Screen}

theorem issues_picture (relates : Relates related) {collection : CollectionName}
    {title refId : String} {image : UIImage} (success : title ∈ successTitles)
    (rest : Code.Issues openings related past next screen) :
    Code.Issues openings related past (uploadPicture collection title image refId next) screen := by
  unfold uploadPicture
  split
  · exact rest
  · refine ⟨relates.store, fun (uploaded : Bool) target _ => ?_, rest⟩
    cases uploaded with
    | false => trivial
    | true =>
        refine ⟨relates.locate success, fun url target _ => ?_, trivial⟩
        exact issues_document (Code.issues_unwrap fun _ =>
          ⟨relates.set, fun _ _ _ => trivial, trivial⟩)

theorem issues_uploadButton (relates : Relates related) {currentUser : Option User} :
    Code.Issues openings related past (UploadMarketPlaceViewController.uploadButton currentUser)
      screen := by
  refine issues_this fun self shown => ?_
  subst shown
  split
  · trivial
  · refine Code.issues_unwrap fun user => ⟨relates.post, ?_, trivial⟩
    rintro (_ | documentID) target -
    · trivial
    · refine issues_this fun now _ => Code.issues_unwrap fun image => ?_
      refine relates.issues_picture (by decide) ?_
      exact issues_document ⟨relates.set, fun _ _ _ => trivial, trivial⟩

theorem issues_submitInfoButton (relates : Relates related) :
    Code.Issues openings related past (AddInfoViewController.submitInfoButton) screen := by
  refine issues_this fun self shown => ?_
  subst shown
  split
  · refine ⟨relates.inform, ?_, trivial⟩
    rintro (_ | documentID) target -
    · trivial
    · exact issues_this fun now _ => Code.issues_unwrap fun image =>
        relates.issues_picture (by decide) trivial
  · trivial

theorem issues_updateButton (relates : Relates related) :
    Code.Issues openings related past (UpdatePostingsViewController.updateButton) screen := by
  refine issues_this fun self _ => ?_
  split
  · trivial
  · refine issues_document ⟨relates.set, fun _ _ _ => trivial, ?_⟩
    exact Code.issues_unwrap fun image => relates.issues_picture (by decide) trivial

theorem issues_fill (relates : Relates related) (documents : Snapshot) :
    Code.Issues openings related past (UpdatePostingsViewController.fill documents) screen := by
  induction documents generalizing screen with
  | nil => trivial
  | cons document documents inductionHypothesis =>
      refine issues_this fun self _ => ?_
      split
      · refine Code.issues_unwrap fun image => Code.issues_unwrap fun url => ?_
        exact ⟨relates.display, fun _ _ _ => trivial, inductionHypothesis⟩
      · exact inductionHypothesis

theorem issues_updateLoad (relates : Relates related) :
    Code.Issues openings related past (UpdatePostingsViewController.viewDidLoad) screen := by
  refine ⟨relates.load, ?_, trivial⟩
  rintro (_ | documents) target -
  · trivial
  · exact relates.issues_fill documents

/-- A load that fills a list: its documents are taken over by one assignment. -/
theorem issues_listLoad {Self : Type} [Controller Screen Self] (relates : Relates related)
    {collection : CollectionName} {completion : Option Snapshot → Handler rules}
    {change : Snapshot → Self → Self} (refused : completion none = .done)
    (taken : ∀ documents, completion (some documents) = assign (change documents) .done) :
    Code.Issues openings related past (.call (.getDocuments collection) completion .done)
      screen := by
  refine ⟨relates.load, ?_, trivial⟩
  rintro (_ | documents) target -
  · rw [refused]
    trivial
  · rw [taken]
    trivial

theorem issues_marketCell (relates : Relates related) {row cell : Nat} :
    Code.Issues openings related past (MarketPlaceViewController.cellForRowAt row cell) screen := by
  refine issues_this fun self _ => ?_
  split
  · refine Code.issues_unwrap fun posting => Code.issues_unwrap fun url => ?_
    exact ⟨relates.display, fun _ _ _ => trivial, trivial⟩
  · trivial

theorem issues_detailLoad (relates : Relates related) :
    Code.Issues openings related past (DetailViewController.viewDidLoad) screen := by
  refine issues_this fun self _ => Code.issues_unwrap fun posting =>
    Code.issues_unwrap fun url => ?_
  exact ⟨relates.display, fun _ _ _ => trivial, trivial⟩

theorem issues_marketTap (relates : Relates related) {row : Nat} :
    Code.Issues openings related past (MarketPlaceViewController.didSelectRowAt row) screen := by
  refine issues_this fun self _ => ?_
  split
  · show Code.Issues openings related past DetailViewController.viewDidLoad (.detail _)
    exact relates.issues_detailLoad
  · trivial

theorem issues_manageCell (relates : Relates related) {row cell : Nat} :
    Code.Issues openings related past (ManagePostingsViewController.cellForRowAt row cell)
      screen := by
  refine issues_this fun self _ => ?_
  split
  · refine Code.issues_unwrap fun posting => Code.issues_unwrap fun url => ?_
    exact ⟨relates.display, fun _ _ _ => trivial, trivial⟩
  · trivial

theorem issues_manageTap (relates : Relates related) {row : Nat} :
    Code.Issues openings related past (ManagePostingsViewController.didSelectRowAt row) screen := by
  refine issues_this fun self _ => ?_
  split
  · exact Code.issues_unwrap fun posting => relates.issues_updateLoad
  · trivial

theorem issues_infoCell (relates : Relates related) {row cell : Nat} :
    Code.Issues openings related past (InformationViewController.cellForRowAt row cell) screen := by
  refine issues_this fun self _ => ?_
  split
  · refine Code.issues_unwrap fun item => Code.issues_unwrap fun url => ?_
    exact ⟨relates.display, fun _ _ _ => trivial, trivial⟩
  · trivial

theorem issues_infoTap {row : Nat} :
    Code.Issues openings related past (InformationViewController.didSelectRowAt row) screen := by
  refine issues_this fun self _ => ?_
  split
  · exact Code.issues_unwrap fun item => trivial
  · trivial

/-- All operations of the two tabs are related to their completion handlers. -/
theorem issues (relates : Relates related) (input : Input) (screen : Screen) :
    Code.Issues openings related past ((app rules).handler input) screen := by
  show Code.Issues openings related past (screen.handle input) screen
  cases screen with
  | upload self =>
      cases input with
      | uploadButton currentUser => exact relates.issues_uploadButton
      | selectSegment index =>
          simp only [Screen.handle, UploadMarketPlaceViewController.handle]
          split <;> trivial
      | _ => trivial
  | market self =>
      cases input with
      | viewDidLoad => exact relates.issues_listLoad rfl fun _ => rfl
      | viewWillAppear => exact relates.issues_listLoad rfl fun _ => rfl
      | cellForRowAt row cell => exact relates.issues_marketCell
      | manageButton currentUser => cases currentUser <;> trivial
      | didSelectRowAt row => exact relates.issues_marketTap
      | selectSegment index =>
          simp only [Screen.handle, MarketPlaceViewController.handle]
          split <;> trivial
      | _ => trivial
  | manage self =>
      cases input with
      | viewDidLoad => exact relates.issues_listLoad rfl fun _ => rfl
      | viewWillAppear => exact relates.issues_listLoad rfl fun _ => rfl
      | cellForRowAt row cell => exact relates.issues_manageCell
      | didSelectRowAt row => exact relates.issues_manageTap
      | _ => trivial
  | update self =>
      cases input with
      | updateButton => exact relates.issues_updateButton
      | confirmDelete =>
          exact issues_this fun (_ : UpdatePostingsViewController) _ => issues_document
            ⟨relates.delete, fun _ _ _ => trivial, trivial⟩
      | selectSegment index =>
          simp only [Screen.handle, UpdatePostingsViewController.handle]
          split <;> trivial
      | _ => trivial
  | addInfo self =>
      cases input with
      | submitInfoButton => exact relates.issues_submitInfoButton
      | _ => trivial
  | info self =>
      cases input with
      | viewDidLoad => exact relates.issues_listLoad rfl fun _ => rfl
      | cellForRowAt row cell => exact relates.issues_infoCell
      | didSelectRowAt row => exact issues_infoTap
      | _ => trivial
  | detail self => trivial
  | detailedInfo self => trivial

end Relates

/-- What the completion handlers of a submission do next. A lookup that finds nothing traps,
any other one merges the URL and reports success. -/
def onward (_ : Past (app rules)) :
    Exchange (remote rules) → List (Request rules) → List String → Prop
  | ⟨.addDocument .upload _, (some document : Option String)⟩, started, _ =>
      .setData .upload document [("Ref", document)] true ∈ started
  | ⟨.putData path _, (true : Bool)⟩, started, _ => .downloadURL path ∈ started
  | ⟨.downloadURL _, (none : Option (URL rules))⟩, _, _ => False
  | ⟨.downloadURL path, (some url : Option (URL rules))⟩, started, shown =>
      (∃ collection document, path = "Uploads/" ++ document ∧
        .setData collection document [("Image", url.string)] true ∈ started) ∧
      ∃ title ∈ shown, title ∈ successTitles
  | _, _, _ => True

/-- A form that is shown later is the same form. -/
theorem upload_of_kept {form : UploadMarketPlaceViewController} {target : Screen}
    (kept : openings.keeps (.upload form) target) : ∃ now, target = .upload now := by
  cases target with
  | upload now => exact ⟨now, rfl⟩
  | _ => cases kept

/-- The handler of an added posting merges `Ref`, or it traps. -/
theorem documentAdded_onward {documentID : String} {now : UploadMarketPlaceViewController} :
    (UploadMarketPlaceViewController.documentAdded (some documentID) : Handler rules).Traps
        (.upload now) ∨
      .setData .upload documentID [("Ref", documentID)] true ∈
        (UploadMarketPlaceViewController.documentAdded (some documentID) : Handler rules).requests
          (.upload now) := by
  cases shown : now.imageView with
  | none =>
      left
      simp [UploadMarketPlaceViewController.documentAdded, this, Controller.ofScreen, shown,
        Code.Traps]
  | some image =>
      by_cases empty : documentID = ""
      · left
        cases encoded : image.jpegData <;>
          simp [UploadMarketPlaceViewController.documentAdded, this, Controller.ofScreen, shown,
            UploadMarketPlaceViewController.uploadImage, uploadPicture, encoded,
            Handler.document, empty, Code.Traps]
      · right
        cases encoded : image.jpegData <;>
          simp [UploadMarketPlaceViewController.documentAdded, this, Controller.ofScreen, shown,
            UploadMarketPlaceViewController.uploadImage, uploadPicture, encoded,
            Handler.document, empty, Code.fire, Code.requests]

/-- Every answer of the two tabs is followed up. -/
theorem relates_followsUp :
    Relates (Code.FollowsUp openings (onward : Past (app rules) → _)) where
  load _ _ _ := .inr trivial
  display _ _ _ := .inr trivial
  post response target kept := by
    obtain ⟨now, rfl⟩ := upload_of_kept kept
    cases response with
    | none => exact .inr trivial
    | some documentID => exact documentAdded_onward
  inform _ _ _ := .inr trivial
  store uploaded _ _ := by
    cases uploaded with
    | false => exact .inr trivial
    | true => exact .inr List.mem_cons_self
  locate {_ _ collection title refId} success url target _ := by
    by_cases empty : refId = ""
    · exact .inl (by simp [pictureLocated, Handler.document, empty, Code.Traps])
    · cases url with
      | none => exact .inl (by simp [pictureLocated, Handler.document, empty, Code.Traps])
      | some url =>
          refine .inr ⟨⟨collection, refId, rfl, ?_⟩, title, ?_, success⟩
          · simp [pictureLocated, Handler.document, empty, Code.fire, Code.requests]
          · simp [pictureLocated, Handler.document, empty, Code.fire, Code.titles]
  set _ _ _ := .inr trivial
  delete _ _ _ := .inr trivial

section Conclusions

variable {world : PostingsWorld rules} {entry : Entry (app rules)} {submission : Submission}
  {document : String}

/-- The past of the handler that runs when the document of a submission has been added. -/
def afterAdded (entry : Entry (app rules)) (submission : Submission) (document : String) :
    Past (app rules) :=
  ⟨entry, [⟨.addDocument submission.collection submission.fields,
    (some document : Option String)⟩]⟩

/-- An uploaded picture has been located, the merge of its URL has been answered, and the
success alert has been presented. -/
structure Linked (world : PostingsWorld rules) (past : Past (app rules))
    (collection : CollectionName) (document : String) (data : ImageData) (url : URL rules) :
    Prop where
  located : (afterUpload past document data,
    ⟨.downloadURL ("Uploads/" ++ document), (some url : Option (URL rules))⟩) ∈
      world.acknowledged
  merged : ∃ merged : Bool, (afterLookup past document data url,
    ⟨.setData collection document [("Image", url.string)] true, merged⟩) ∈ world.acknowledged
  reported : ∃ title ∈ successTitles, (afterLookup past document data url, title) ∈ world.alerts

/-- A submission has gone through all its operations: it was refused, or its document was
added, the merge of `Ref` has been answered, and every picture it has uploaded is linked. -/
inductive Concluded (world : PostingsWorld rules) (entry : Entry (app rules))
    (submission : Submission) : Prop where
  | refused (answered : (⟨entry, []⟩, ⟨.addDocument submission.collection submission.fields,
      (none : Option String)⟩) ∈ world.acknowledged)
  | published (document : String)
      (added : (⟨entry, []⟩, ⟨.addDocument submission.collection submission.fields,
        (some document : Option String)⟩) ∈ world.acknowledged)
      (referred : submission.refers = true → ∃ merged : Bool,
        (afterAdded entry submission document,
          ⟨.setData .upload document [("Ref", document)] true, merged⟩) ∈ world.acknowledged)
      (pictured : ∀ data, (afterAdded entry submission document,
        ⟨.putData ("Uploads/" ++ document) data, (true : Bool)⟩) ∈ world.acknowledged →
          ∃ url, Linked world (afterAdded entry submission document) submission.collection document
            data url)

/-- A picture is linked to the document that was added before. -/
theorem collection_of_link {past : Past (app rules)} {collection : CollectionName}
    {fields : Fields} {data : ImageData} {url : URL rules}
    (same : afterLookup (afterAdded entry submission document) document data url = past)
    (origin : Originates False past (.setData collection document fields true))
    (image : (fields.map Prod.fst).contains "Image" = true) :
    submission.collection = collection := by
  have asked := congrArg (fun past => past.trail.map Exchange.request) same
  cases origin with
  | refer => simp at image
  | update => simp [afterLookup, afterUpload, Past.answered] at asked
  | link pictures encoded =>
      cases pictures with
      | posted =>
          simp only [afterLookup, afterUpload, afterAdded, Past.answered, List.map_cons,
            List.map_nil, List.cons.injEq, Request.addDocument.injEq] at asked
          exact asked.2.2.1.1
      | informed =>
          simp only [afterLookup, afterUpload, afterAdded, Past.answered, List.map_cons,
            List.map_nil, List.cons.injEq, Request.addDocument.injEq] at asked
          exact asked.2.2.1.1
      | updated => simp [afterLookup, afterUpload, afterAdded, Past.answered] at asked

/-- When nothing goes on, uploaded pictures are linked. -/
theorem linked_of_settled (pursues : Pursues openings onward world)
    (settled : (system rules).Settled answering world)
    (origins : (origins rules False).Holds world) (runs : ¬ world.Stopped entry)
    {data : ImageData} (uploaded : (afterAdded entry submission document,
      ⟨.putData ("Uploads/" ++ document) data, (true : Bool)⟩) ∈ world.acknowledged) :
    ∃ url, Linked world (afterAdded entry submission document) submission.collection document
      data url := by
  obtain ⟨_, _, asks, handled, -⟩ := pursues.onward settled runs uploaded
  obtain ⟨found, lookup⟩ := handled _ asks
  obtain ⟨_, _, follows, handled, shown⟩ := pursues.onward settled runs lookup
  cases found with
  | none => exact follows.elim
  | some url =>
      obtain ⟨⟨collection, name, path, asked⟩, title, alert, success⟩ := follows
      obtain rfl := (String.append_right_inj _).mp path
      obtain ⟨merged, link⟩ := handled _ asked
      obtain rfl := collection_of_link rfl (origins.answered (.handled link)) rfl
      exact ⟨url, lookup, ⟨merged, link⟩, title, success, shown title alert⟩

/-- When nothing goes on, a submission whose document has been answered is concluded. -/
theorem concluded_of_settled (pursues : Pursues openings onward world)
    (settled : (system rules).Settled answering world)
    (origins : (origins rules False).Holds world) (runs : ¬ world.Stopped entry)
    {response : Option String} (answered : (⟨entry, []⟩,
      ⟨.addDocument submission.collection submission.fields, response⟩) ∈ world.acknowledged) :
    Concluded world entry submission := by
  cases response with
  | none => exact .refused answered
  | some document =>
      refine .published document answered (fun refers => ?_) fun data uploaded =>
        linked_of_settled pursues settled origins runs uploaded
      obtain ⟨started, shown, follows, handled, -⟩ := pursues.onward settled runs answered
      cases submission with
      | posting form user => exact handled _ follows
      | info form => cases refers

/-- Once the users stop, every submission comes to its end, in whatever order the backend
answers and the completion handlers run: then its process has trapped, or it is concluded
and nothing of it is outstanding. -/
theorem submissions_conclude
    (reached : (system rules).Reaches (system rules).anyStep (start rules) world)
    (issued : world.Issued ⟨entry, []⟩
      (.addDocument submission.collection submission.fields)) :
    (system rules).Inevitably answering (fun later => later.Stopped entry ∨
      Concluded later entry submission ∧
        ∀ pending ∈ later.pending, pending.past.entry ≠ entry) world := by
  refine (terminates (app rules) (firebase rules)).inevitably fun later after settled => ?_
  have run : (system rules).Reaches (system rules).anyStep (start rules) later :=
    reached.trans (after.weaken fun _ _ _ => rfl)
  have pursues : Pursues openings onward later :=
    pursues_of_reachable (fun input screen => Screen.steady_handle screen input)
      (fun past _ => relates_followsUp.issues past.entry.input past.entry.object) run
  by_cases stopped : later.Stopped entry
  · exact .inl stopped
  refine .inr ⟨?_, fun pending member same => ?_⟩
  · obtain ⟨response, added⟩ := ((issued.later after).ended pursues.homed firebase_responsive
      settled).resolve_left stopped
    exact concluded_of_settled pursues settled (origins_of_reaches run) stopped added
  · exact stopped (same ▸ pursues.homed.stopped firebase_responsive settled member)

/-- The document of the submission has been sent and not yet been handled. -/
def submits (submission : Submission) (world : PostingsWorld anyText) : Bool :=
  world.pending.any fun pending =>
    match pending.past.trail, pending.request with
    | [], .addDocument collection data =>
        collection == submission.collection && data == submission.fields
    | _, _ => false

theorem issued_of_submits {world : PostingsWorld anyText}
    (submitted : submits submission world = true) : ∃ entry, world.Issued ⟨entry, []⟩
      (.addDocument submission.collection submission.fields) := by
  obtain ⟨⟨self, ⟨entry, trail⟩, request, completion, answer⟩, member, asked⟩ :=
    List.any_eq_true.mp submitted
  dsimp only at asked
  split at asked
  · rename_i collection data
    obtain ⟨same, entered⟩ := Bool.and_eq_true_iff.mp asked
    obtain rfl := beq_iff_eq.mp same
    obtain rfl := beq_iff_eq.mp entered
    exact ⟨entry, .outstanding member rfl rfl⟩
  · cases asked

/-- A posting has been submitted and nothing has been answered. -/
theorem submissions_conclude_submitted :
    ∃ world entry, submits sweeping world = true ∧
      (system anyText).Inevitably answering (fun later => later.Stopped entry ∨
        Concluded later entry sweeping ∧
          ∀ pending ∈ later.pending, pending.past.entry ≠ entry) world := by
  obtain ⟨world, reached, submitted⟩ := Machine.exists_reaches (m := system anyText)
    (system anyText).anyStep (start anyText) submitting (submits sweeping) (by decide +kernel)
  obtain ⟨entry, issued⟩ := issued_of_submits submitted
  exact ⟨world, entry, submitted, submissions_conclude reached issued⟩

end Conclusions

end Postings

end Gbc
