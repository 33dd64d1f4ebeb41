import Gbc.Market.App

/-!
# The market place filter

The list of the market place against the segment that is selected. A load that is
answered shows every posting again, whatever segment is selected, so the two agree
while each delivered snapshot has only postings of that segment. The backend is
arbitrary here: any snapshot may be delivered at any time.
-/

namespace Gbc

open Callback Handler

variable {rules : URLRules}

namespace MarketPlaceViewController

/-- The postings of a snapshot as the screen decodes them. -/
def postings (documents : Snapshot) : List Upload :=
  documents.map fun document => Upload.ofData document.2

/-- The selected segment shows a posting; without a selection all are shown. -/
def shows (self : MarketPlaceViewController) (posting : Upload) : Bool :=
  if self.filterSegment = 0 then posting.title == "Job"
  else if self.filterSegment = 1 then posting.title == "Rental"
  else true

/-- The list is what the selected segment shows of the last snapshot delivered. -/
def ListAgrees (self : MarketPlaceViewController) : Prop :=
  ∀ documents, self.loaded = some documents →
    self.postingArray = (postings documents).filter self.shows

/-- `ListAgrees`, with all postings of that snapshot at hand. -/
structure FilterOk (screen : MarketPlaceViewController) : Prop where
  agrees : screen.ListAgrees
  all : ∀ documents, screen.loaded = some documents → screen.uploadArray = postings documents

/-- A new selection shows what it selects. -/
theorem FilterOk.segmentChanged {self : MarketPlaceViewController} (valid : self.FilterOk)
    {index : Int} (segment : index = 0 ∨ index = 1 ∨ index = 2) :
    ({ self with filterSegment := index }.segmentChanged).FilterOk := by
  have all := valid.all
  rcases segment with rfl | rfl | rfl
  · refine ⟨fun documents loaded => ?_, all⟩
    show filterArray self.uploadArray "Job" = _
    rw [all documents loaded]
    rfl
  · refine ⟨fun documents loaded => ?_, all⟩
    show filterArray self.uploadArray "Rental" = _
    rw [all documents loaded]
    rfl
  · refine ⟨fun documents loaded => ?_, all⟩
    show self.uploadArray = (postings documents).filter fun _ => true
    rw [all documents loaded, List.filter_true]

end MarketPlaceViewController

namespace MarketPlace

open MarketPlaceViewController

/-- The market place tab by itself: its processes open market place screens. -/
abbrev app (rules : URLRules) : App (remote rules) :=
  { Postings.app rules with
    Root := Unit
    root := fun _ => .market .opened }

variable {service : Service (remote rules)}

/-- The selected segment shows every posting of a delivered snapshot. -/
def deliveryShown (world : World (app rules) service) (event : Event (app rules) service) : Bool :=
  match event with
  | .reply index =>
      match world.pending[index]? with
      | some pending =>
          match world.objects[pending.self]? with
          | some ⟨_, .market self⟩ => (postings (delivered pending)).all self.shows
          | _ => true
      | none => true
  | _ => true

/-- Only market place and detail screens are open, and the lists agree. -/
def ScreenOk : Screen → Prop
  | .market self => self.FilterOk
  | .detail _ => True
  | _ => False

/-- The lists of the market place screens agree with their segments. -/
def filters (rules : URLRules) (service : Service (remote rules)) :
    Contract (app rules) service where
  Evolves _ _ := True
  Server _ := True
  Object _ screen := ScreenOk screen
  Request _ _ _ := True
  Response _ _ _ _ := True
  Fault _ := True
  InputGuard _ _ := True
  ServeGuard _ _ _ _ := True
  ReplyGuard screen _ request response :=
    match screen, request, response with
    | .market self, .getDocuments _, (snapshot : Option Snapshot) =>
        ∀ posting ∈ postings (snapshot.getD []), self.shows posting = true
    | _, _, _ => True

variable {server : service.State} {past : Past (app rules)}

/-- A handler that ends with an assignment to the market place screen. -/
theorem assign_filters {change : MarketPlaceViewController → MarketPlaceViewController}
    {screen : Screen} (valid : ScreenOk screen)
    (keeps : ∀ self, screen = .market self → (change self).FilterOk) :
    (filters rules service).Safe server past (assign change .done) screen := by
  cases screen with
  | market self => exact ⟨keeps self rfl, trivial⟩
  | _ => exact ⟨valid, trivial⟩

theorem load_filters {screen : Screen} :
    (filters rules service).Safe server past loadFireBaseData screen := by
  refine ⟨trivial, ?_, trivial⟩
  intro _ snapshot target _ _ _ valid shown
  cases snapshot with
  | none => trivial
  | some documents =>
      refine assign_filters valid ?_
      rintro self rfl
      refine ⟨fun other same => ?_, fun other same => ?_⟩
      · obtain rfl := Option.some.inj same
        exact (List.filter_eq_self.mpr shown).symm
      · obtain rfl := Option.some.inj same
        rfl

theorem cellForRowAt_filters {row cell : Nat} {self : MarketPlaceViewController}
    (valid : self.FilterOk) :
    (filters rules service).Safe server past (cellForRowAt row cell) (.market self) := by
  simp only [cellForRowAt, this, Contract.Safe, Controller.ofScreen]
  split
  · refine Contract.safe_unwrap.mpr ⟨fun _ => trivial, fun posting _ => ⟨?_, ?_⟩⟩
    · exact ⟨valid.agrees, valid.all⟩
    · refine Contract.safe_unwrap.mpr ⟨fun _ => trivial, fun url _ => ⟨trivial, ?_, ?_⟩⟩
      · intro _ image target _ _ _ shown _
        refine assign_filters shown ?_
        rintro self rfl
        have kept : self.FilterOk := shown
        exact ⟨kept.agrees, kept.all⟩
      · exact ⟨⟨valid.agrees, valid.all⟩, trivial⟩
  · trivial

theorem viewDidLoad_filters {self : DetailViewController} :
    (filters rules service).Safe server past DetailViewController.viewDidLoad
      (.detail self) := by
  simp only [DetailViewController.viewDidLoad, this, Contract.Safe, Controller.ofScreen]
  refine Contract.safe_unwrap.mpr ⟨fun _ => trivial, fun posting _ => ?_⟩
  refine Contract.safe_unwrap.mpr ⟨fun _ => trivial, fun url _ => ⟨trivial, ?_, trivial, trivial⟩⟩
  intro _ image target _ _ _ valid _
  cases target <;> exact ⟨valid, trivial⟩

theorem didSelectRowAt_filters {row : Nat} {self : MarketPlaceViewController}
    (valid : self.FilterOk) :
    (filters rules service).Safe server past (didSelectRowAt row) (.market self) := by
  simp only [didSelectRowAt, this, Contract.Safe, Controller.ofScreen]
  split
  · exact ⟨⟨valid.agrees, valid.all⟩, trivial, viewDidLoad_filters⟩
  · trivial

/-- Every input to a market place screen keeps its list in agreement. -/
theorem handle_filters {screen : Screen} {input : Input} (valid : ScreenOk screen) :
    (filters rules service).Safe server past (screen.handle input) screen := by
  cases screen with
  | market self =>
      cases input with
      | viewDidLoad => exact load_filters
      | viewWillAppear => exact load_filters
      | cellForRowAt row cell => exact cellForRowAt_filters valid
      | manageButton currentUser => cases currentUser <;> trivial
      | didSelectRowAt row => exact didSelectRowAt_filters valid
      | selectSegment index =>
          simp only [Screen.handle, MarketPlaceViewController.handle]
          split
          · rename_i segment
            exact ⟨FilterOk.segmentChanged valid segment, trivial⟩
          · trivial
      | _ => trivial
  | detail self => trivial
  | _ => exact valid.elim

theorem filters_sound (rules : URLRules) (service : Service (remote rules)) :
    (filters rules service).Sound where
  refl _ := trivial
  trans _ _ := trivial
  object _ valid := valid
  request _ _ := trivial
  response _ _ := trivial
  root _ _ _ := ⟨nofun, nofun⟩
  input _ _ _ _ _ valid _ _ _ _ := handle_filters valid
  serve _ _ _ _ := ⟨trivial, trivial, trivial⟩

/-- While the selected segment shows every posting that is delivered, the list of
each market place screen agrees with its segment. -/
theorem list_agrees_with_segment {start : service.State} {world : World (app rules) service}
    (reached : (World.machine (app rules) service).Reaches deliveryShown (.initial _ start) world) :
    ∀ target ∈ world.objects, ∀ self : MarketPlaceViewController,
      target.object = .market self → self.ListAgrees := by
  have holds : (filters rules service).Holds world := by
    refine Contract.Holds.reachable (filters_sound rules service)
      (Contract.holds_initial trivial) (reached.weaken ?_)
    intro state event shown
    cases event with
    | reply index =>
        intro pending response target found answered placed
        obtain ⟨self, past, request, completion, answer⟩ := pending
        obtain ⟨process, screen⟩ := target
        simp only at placed
        cases screen with
        | market self =>
            cases request with
            | getDocuments collection =>
                simp only at answered
                intro posting member
                simp only [deliveryShown, found, placed, delivered, answered] at shown
                exact List.all_eq_true.mp shown posting member
            | _ => trivial
        | _ => trivial
    | _ => simp [Contract.guard, filters]
  intro target member self same
  have valid := holds.objects target member
  rw [same] at valid
  exact FilterOk.agrees valid

section Schedules

/-- A backend that answers loads with any snapshot or an error. -/
def snapshots (rules : URLRules) : Service (remote rules) where
  State := Unit
  Choice := Option Snapshot
  serve _ request choice :=
    match request with
    | .getDocuments _ => some ((), choice)
    | _ => none

/-- A snapshot with one posting of the given title. -/
def titled (title : String) : Snapshot := [("d1", Doc.merge ∅ [("Title", title)])]

/-- Some market place screen that has loaded postings passes a check. -/
def someScreen (check : MarketPlaceViewController → Bool)
    (world : World (app anyText) (snapshots anyText)) : Bool :=
  world.objects.any fun target =>
    match target.object with
    | .market self => self.loaded.isSome && check self
    | _ => false

/-- The jobs of a snapshot are delivered to a screen that shows jobs. -/
theorem list_agrees_with_segment_jobs :
    ∃ world, (World.machine (app anyText) (snapshots _)).Reaches deliveryShown
        (.initial _ ()) world ∧
      someScreen (fun self => self.filterSegment == 0 && self.postingArray.length == 1) world =
        true ∧
      ∀ target ∈ world.objects, ∀ self : MarketPlaceViewController,
        target.object = .market self → self.ListAgrees := by
  obtain ⟨world, reached, shown⟩ := Machine.exists_reaches
    (m := World.machine (app anyText) (snapshots _)) deliveryShown (.initial _ ())
    [.launch 0 (), .input 0 .viewDidLoad, .input 0 .viewWillAppear,
      .serve 0 (some (titled "Job" ++ titled "Rental")), .serve 1 (some (titled "Job")),
      .reply 0, .input 0 (.selectSegment 0), .reply 0]
    (someScreen fun self => self.filterSegment == 0 && self.postingArray.length == 1)
    (by decide +kernel)
  exact ⟨world, reached, shown, list_agrees_with_segment reached⟩

/-- A load that is answered under a selected segment shows the other postings, too. -/
theorem list_ignores_segment :
    ¬ ∀ (rules : URLRules) (service : Service (remote rules)) (start : service.State)
        (world : World (app rules) service),
      (World.machine (app rules) service).Reaches
        (World.machine (app rules) service).anyStep (.initial _ start) world →
      ∀ target ∈ world.objects, ∀ self : MarketPlaceViewController,
        target.object = .market self → self.ListAgrees := by
  intro agrees
  obtain ⟨world, reached, differs⟩ := Machine.exists_reaches
    (m := World.machine (app anyText) (snapshots _)) (Machine.anyStep _) (.initial _ ())
    [.launch 0 (), .input 0 .viewDidLoad, .input 0 .viewWillAppear,
      .input 0 (.selectSegment 0), .serve 0 (some (titled "Rental")), .reply 0,
      .serve 0 (some (titled "Rental")), .reply 0]
    (someScreen fun self =>
      self.postingArray != (postings (self.loaded.getD [])).filter self.shows)
    (by decide +kernel)
  obtain ⟨target, member, stray⟩ := List.any_eq_true.mp differs
  have listed := agrees _ _ () world reached target member
  cases same : target.object with
  | market self =>
      simp only [same, Bool.and_eq_true, bne_iff_ne] at stray
      obtain ⟨documents, loaded⟩ := Option.isSome_iff_exists.mp stray.1
      rw [listed self same documents loaded, loaded] at stray
      exact stray.2 rfl
  | _ => simp [same] at stray

end Schedules

end MarketPlace

end Gbc
