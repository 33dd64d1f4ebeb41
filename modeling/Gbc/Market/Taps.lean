import Gbc.Market.Opening

/-!
# Taps on the lists

A tap is handled with the array behind a table as it is by then, so it hits the row
that is displayed while the table shows that array. The backend is arbitrary here: any
snapshot or error may be delivered at any time, in any order.
-/

namespace Gbc

open Callback Handler

variable {rules : URLRules}

/-- The table of a screen shows the array that its taps index; a detail screen has a
posting to show. -/
def Screen.InStep : Screen → Prop
  | .market self => self.table = self.postingArray
  | .manage self => self.table = self.manaageArray
  | .info self => self.table = self.infoArray
  | .detail self => self.index < self.array.length
  | _ => True

namespace Postings

variable {service : Service (remote rules)}

/-- Tables show their arrays and nothing indexes out of range. -/
def tables (rules : URLRules) (service : Service (remote rules)) :
    Contract (app rules) service where
  Evolves _ _ := True
  Server _ := True
  Object _ screen := screen.InStep
  Request _ _ _ := True
  Response _ _ _ _ := True
  Fault fault := fault ≠ .index
  InputGuard _ _ := True
  ServeGuard _ _ _ _ := True
  ReplyGuard _ _ _ _ := True

section Handlers

variable {Self : Type} [Controller Screen Self] [LawfulController Screen Self]
  {server : service.State} {past : Past (app rules)} {screen : Screen}

/-- An assignment keeps the contract when it keeps the table in step. -/
theorem assign_tables {change : Self → Self} {next : Handler rules} (valid : screen.InStep)
    (keeps : ∀ self : Self, (Controller.screen self : Screen).InStep →
      (Controller.screen (change self) : Screen).InStep)
    (rest : ∀ changed : Screen, changed.InStep →
      (tables rules service).Safe server past next changed) :
    (tables rules service).Safe server past (assign change next) screen :=
  safe_assign valid keeps rest

/-- An image load whose completion handler keeps the tables in step. -/
theorem call_tables {request : (remote rules).Request}
    {completion : (remote rules).Response request → Handler rules} {next : Handler rules}
    (later : ∀ response server past (target : Screen), target.InStep →
      (tables rules service).Safe server past (completion response) target)
    (rest : (tables rules service).Safe server past next screen) :
    (tables rules service).Safe server past (.call request completion next) screen :=
  ⟨trivial, fun server response target _ _ _ valid _ => later response server _ target valid,
    rest⟩

/-- The three `uploadImage` methods touch no table. -/
theorem uploadPicture_tables {collection : CollectionName} {title refId : String}
    {image : UIImage} {next : Handler rules}
    (rest : (tables rules service).Safe server past next screen) :
    (tables rules service).Safe server past
      (uploadPicture collection title image refId next) screen := by
  unfold uploadPicture
  split
  · exact rest
  · refine call_tables (fun (uploaded : Bool) server past target valid => ?_) rest
    cases uploaded with
    | false => trivial
    | true =>
        refine call_tables (fun (url : Option (URL rules)) server past target valid => ?_) trivial
        refine safe_document.mpr ⟨fun _ => nofun, fun _ => ?_⟩
        exact Contract.safe_unwrap.mpr ⟨fun _ => nofun, fun _ _ =>
          Contract.safe_fire.mpr ⟨trivial, trivial⟩⟩

theorem uploadButton_tables {currentUser : Option User} (valid : screen.InStep) :
    (tables rules service).Safe server past
      (UploadMarketPlaceViewController.uploadButton currentUser) screen := by
  refine safe_this.mpr fun self _ => ?_
  split
  · trivial
  · refine assign_tables valid (fun _ _ => trivial) fun changed _ => ?_
    refine Contract.safe_unwrap.mpr ⟨fun _ => nofun, fun user _ => call_tables ?_ trivial⟩
    rintro (_ | documentID) server past target valid
    · trivial
    · refine safe_this.mpr fun now _ => Contract.safe_unwrap.mpr ⟨fun _ => nofun, ?_⟩
      intro image _
      refine uploadPicture_tables (safe_document.mpr ⟨fun _ => nofun, fun _ => ?_⟩)
      exact Contract.safe_fire.mpr ⟨trivial, trivial⟩

theorem submitInfoButton_tables :
    (tables rules service).Safe server past AddInfoViewController.submitInfoButton screen := by
  refine safe_this.mpr fun self _ => ?_
  split
  · refine call_tables ?_ trivial
    rintro (_ | documentID) server past target valid
    · trivial
    · exact safe_this.mpr fun now _ => Contract.safe_unwrap.mpr ⟨fun _ => nofun,
        fun image _ => uploadPicture_tables trivial⟩
  · trivial

theorem updateButton_tables (valid : screen.InStep) :
    (tables rules service).Safe server past UpdatePostingsViewController.updateButton
      screen := by
  refine safe_this.mpr fun self _ => ?_
  split
  · trivial
  · refine assign_tables valid (fun _ _ => trivial) fun changed _ => ?_
    refine safe_document.mpr ⟨fun _ => nofun, fun _ => Contract.safe_fire.mpr ⟨trivial, ?_⟩⟩
    exact Contract.safe_unwrap.mpr ⟨fun _ => nofun, fun _ _ => uploadPicture_tables trivial⟩

theorem confirmDelete_tables :
    (tables rules service).Safe server past UpdatePostingsViewController.confirmDelete
      screen :=
  safe_this.mpr fun _ _ => safe_document.mpr ⟨fun _ => nofun, fun _ =>
    Contract.safe_fire.mpr ⟨trivial, trivial⟩⟩

theorem fill_tables (documents : Snapshot) (valid : screen.InStep) :
    (tables rules service).Safe server past (UpdatePostingsViewController.fill documents)
      screen := by
  induction documents generalizing screen with
  | nil => trivial
  | cons document documents inductionHypothesis =>
      refine safe_this.mpr fun self _ => ?_
      split
      · refine Contract.safe_unwrap.mpr ⟨fun _ => nofun, fun image _ => ?_⟩
        refine Contract.safe_unwrap.mpr ⟨fun _ => nofun, fun url _ => call_tables ?_ ?_⟩
        · intro picture server past target valid
          exact assign_tables valid (fun _ _ => trivial) fun _ _ => trivial
        · exact assign_tables valid (fun _ _ => trivial) fun _ => inductionHypothesis
      · exact inductionHypothesis valid

/-- Filling in the update form indexes nothing. -/
theorem updateLoad_tables :
    (tables rules service).Safe server past UpdatePostingsViewController.viewDidLoad screen := by
  refine call_tables ?_ trivial
  rintro (_ | documents) server past target valid
  · trivial
  · exact fill_tables documents valid

/-- A load of the market place refills its array and its table alike. -/
theorem marketLoad_tables :
    (tables rules service).Safe server past MarketPlaceViewController.loadFireBaseData
      screen := by
  refine call_tables ?_ trivial
  rintro (_ | documents) server past target valid
  · trivial
  · exact assign_tables valid (fun _ _ => rfl) fun _ _ => trivial

/-- Every segment shows the array it selects. -/
theorem segmentChanged_inStep {self : MarketPlaceViewController}
    (valid : self.table = self.postingArray) :
    self.segmentChanged.table = self.segmentChanged.postingArray := by
  unfold MarketPlaceViewController.segmentChanged
  split
  · rfl
  · split
    · rfl
    · split
      · rfl
      · exact valid

theorem marketCell_tables {row cell : Nat} (valid : screen.InStep) :
    (tables rules service).Safe server past (MarketPlaceViewController.cellForRowAt row cell)
      screen := by
  refine safe_this.mpr fun self shown => ?_
  obtain rfl := LawfulController.eq_screen shown
  have same : self.table = self.postingArray := valid
  split
  · rename_i displayed
    rw [same] at displayed
    refine Contract.safe_unwrap.mpr ⟨fun missing => ?_, fun posting _ => ?_⟩
    · exact absurd displayed (Nat.not_lt.mpr (List.getElem?_eq_none_iff.mp missing))
    · refine assign_tables valid (fun _ kept => kept) fun changed valid => ?_
      refine Contract.safe_unwrap.mpr ⟨fun _ => nofun, fun url _ => call_tables ?_ ?_⟩
      · intro image server past target valid
        exact assign_tables valid (fun _ kept => kept) fun _ _ => trivial
      · exact assign_tables valid (fun _ kept => kept) fun _ _ => trivial
  · trivial

/-- A detail screen with a posting to show loads it. -/
theorem detailLoad_tables {self : DetailViewController} (inRange : self.index < self.array.length) :
    (tables rules service).Safe server past DetailViewController.viewDidLoad (.detail self) := by
  refine safe_this.mpr fun now shown => ?_
  cases shown
  refine Contract.safe_unwrap.mpr ⟨fun missing => ?_, fun posting _ => ?_⟩
  · exact absurd inRange (Nat.not_lt.mpr (List.getElem?_eq_none_iff.mp missing))
  · refine Contract.safe_unwrap.mpr ⟨fun _ => nofun, fun url _ => call_tables ?_ ?_⟩
    · intro image server past target valid
      exact assign_tables valid (fun _ kept => kept) fun _ _ => trivial
    · exact assign_tables inRange (fun _ kept => kept) fun _ _ => trivial

theorem marketTap_tables {row : Nat} (valid : screen.InStep) :
    (tables rules service).Safe server past (MarketPlaceViewController.didSelectRowAt row)
      screen := by
  refine safe_this.mpr fun self shown => ?_
  obtain rfl := LawfulController.eq_screen shown
  have same : self.table = self.postingArray := valid
  split
  · rename_i displayed
    rw [same] at displayed
    refine assign_tables valid (fun _ kept => kept) fun changed _ => ⟨displayed, ?_⟩
    exact detailLoad_tables displayed
  · trivial

/-- A load of the Manage list refills its array and its table alike. -/
theorem manageLoad_tables :
    (tables rules service).Safe server past ManagePostingsViewController.loadFireBaseData
      screen := by
  refine call_tables ?_ trivial
  rintro (_ | documents) server past target valid
  · trivial
  · exact assign_tables valid (fun _ _ => rfl) fun _ _ => trivial

theorem manageCell_tables {row cell : Nat} (valid : screen.InStep) :
    (tables rules service).Safe server past (ManagePostingsViewController.cellForRowAt row cell)
      screen := by
  refine safe_this.mpr fun self shown => ?_
  obtain rfl := LawfulController.eq_screen shown
  have same : self.table = self.manaageArray := valid
  split
  · rename_i displayed
    rw [same] at displayed
    refine Contract.safe_unwrap.mpr ⟨fun missing => ?_, fun posting _ => ?_⟩
    · exact absurd displayed (Nat.not_lt.mpr (List.getElem?_eq_none_iff.mp missing))
    · refine assign_tables valid (fun _ kept => kept) fun changed valid => ?_
      refine Contract.safe_unwrap.mpr ⟨fun _ => nofun, fun url _ => call_tables ?_ ?_⟩
      · intro image server past target valid
        exact assign_tables valid (fun _ kept => kept) fun _ _ => trivial
      · exact assign_tables valid (fun _ kept => kept) fun _ _ => trivial
  · trivial

theorem manageTap_tables {row : Nat} (valid : screen.InStep) :
    (tables rules service).Safe server past (ManagePostingsViewController.didSelectRowAt row)
      screen := by
  refine safe_this.mpr fun self shown => ?_
  obtain rfl := LawfulController.eq_screen shown
  have same : self.table = self.manaageArray := valid
  split
  · rename_i displayed
    rw [same] at displayed
    refine Contract.safe_unwrap.mpr ⟨fun missing => ?_, fun posting _ => ?_⟩
    · exact absurd displayed (Nat.not_lt.mpr (List.getElem?_eq_none_iff.mp missing))
    · refine assign_tables valid (fun _ kept => kept) fun changed _ => ⟨trivial, ?_⟩
      exact updateLoad_tables
  · trivial

/-- A load of the information list refills its array and its table alike. -/
theorem infoLoad_tables :
    (tables rules service).Safe server past InformationViewController.loadData screen := by
  refine call_tables ?_ trivial
  rintro (_ | documents) server past target valid
  · trivial
  · exact assign_tables valid (fun _ _ => rfl) fun _ _ => trivial

theorem infoCell_tables {row cell : Nat} (valid : screen.InStep) :
    (tables rules service).Safe server past (InformationViewController.cellForRowAt row cell)
      screen := by
  refine safe_this.mpr fun self shown => ?_
  obtain rfl := LawfulController.eq_screen shown
  have same : self.table = self.infoArray := valid
  split
  · rename_i displayed
    rw [same] at displayed
    refine Contract.safe_unwrap.mpr ⟨fun missing => ?_, fun item _ => ?_⟩
    · exact absurd displayed (Nat.not_lt.mpr (List.getElem?_eq_none_iff.mp missing))
    · refine assign_tables valid (fun _ kept => kept) fun changed valid => ?_
      refine Contract.safe_unwrap.mpr ⟨fun _ => nofun, fun url _ => call_tables ?_ trivial⟩
      intro image server past target valid
      refine assign_tables valid (fun _ kept => kept) fun changed valid => ?_
      exact assign_tables valid (fun _ kept => kept) fun _ _ => trivial
  · trivial

theorem infoTap_tables {row : Nat} (valid : screen.InStep) :
    (tables rules service).Safe server past (InformationViewController.didSelectRowAt row)
      screen := by
  refine safe_this.mpr fun self shown => ?_
  obtain rfl := LawfulController.eq_screen shown
  have same : self.table = self.infoArray := valid
  split
  · rename_i displayed
    rw [same] at displayed
    refine Contract.safe_unwrap.mpr ⟨fun missing => ?_, fun item _ => ?_⟩
    · exact absurd displayed (Nat.not_lt.mpr (List.getElem?_eq_none_iff.mp missing))
    · refine assign_tables valid (fun _ kept => kept) fun changed _ => ⟨trivial, ?_⟩
      exact assign_tables trivial (fun _ _ => trivial) fun _ _ => trivial
  · trivial

/-- Every input keeps the tables in step. -/
theorem handle_tables {screen : Screen} {input : Input} (valid : screen.InStep) :
    (tables rules service).Safe server past (screen.handle input) screen := by
  cases screen with
  | upload self =>
      cases input with
      | uploadButton currentUser => exact uploadButton_tables valid
      | editTexts texts => exact assign_tables valid (fun _ _ => trivial) fun _ _ => trivial
      | pick image => exact assign_tables valid (fun _ _ => trivial) fun _ _ => trivial
      | selectSegment index =>
          simp only [Screen.handle, UploadMarketPlaceViewController.handle]
          split
          · exact assign_tables valid (fun _ _ => trivial) fun _ _ => trivial
          · trivial
      | _ => trivial
  | market self =>
      cases input with
      | viewDidLoad => exact marketLoad_tables
      | viewWillAppear => exact marketLoad_tables
      | cellForRowAt row cell => exact marketCell_tables valid
      | manageButton currentUser =>
          exact Contract.safe_unwrap.mpr ⟨fun _ => by simp [tables], fun _ _ => trivial⟩
      | didSelectRowAt row => exact marketTap_tables valid
      | selectSegment index =>
          simp only [Screen.handle, MarketPlaceViewController.handle]
          split
          · refine assign_tables valid (fun now kept => ?_) fun _ _ => trivial
            exact segmentChanged_inStep kept
          · trivial
      | _ => trivial
  | manage self =>
      cases input with
      | viewDidLoad => exact manageLoad_tables
      | viewWillAppear => exact manageLoad_tables
      | cellForRowAt row cell => exact manageCell_tables valid
      | didSelectRowAt row => exact manageTap_tables valid
      | _ => trivial
  | update self =>
      cases input with
      | updateButton => exact updateButton_tables valid
      | confirmDelete => exact confirmDelete_tables
      | editTexts texts => exact assign_tables valid (fun _ _ => trivial) fun _ _ => trivial
      | pick image => exact assign_tables valid (fun _ _ => trivial) fun _ _ => trivial
      | selectSegment index =>
          simp only [Screen.handle, UpdatePostingsViewController.handle]
          split
          · exact assign_tables valid (fun _ _ => trivial) fun _ _ => trivial
          · trivial
      | _ => trivial
  | addInfo self =>
      cases input with
      | submitInfoButton => exact submitInfoButton_tables
      | editInfo titleInfo infoView =>
          exact assign_tables valid (fun _ _ => trivial) fun _ _ => trivial
      | pick image => exact assign_tables valid (fun _ _ => trivial) fun _ _ => trivial
      | _ => trivial
  | info self =>
      cases input with
      | viewDidLoad => exact infoLoad_tables
      | cellForRowAt row cell => exact infoCell_tables valid
      | didSelectRowAt row => exact infoTap_tables valid
      | _ => trivial
  | detail self => trivial
  | detailedInfo self => trivial

end Handlers

theorem tables_sound (rules : URLRules) (service : Service (remote rules)) :
    (tables rules service).Sound where
  refl _ := trivial
  trans _ _ := trivial
  object _ valid := valid
  request _ _ := trivial
  response _ _ := trivial
  root _ root _ := by cases root <;> trivial
  input _ _ _ _ _ valid _ _ _ _ := handle_tables valid
  serve _ _ _ _ := ⟨trivial, trivial, trivial⟩

section Runs

variable {server : service.State} {world : World (app rules) service}

theorem tables_of_reaches {test : World (app rules) service → Event (app rules) service → Bool}
    (reached : (World.machine (app rules) service).Reaches test (.initial _ server) world) :
    (tables rules service).Holds world := by
  refine Contract.Holds.reachable (tables_sound rules service)
    (Contract.holds_initial trivial) (reached.weaken fun state event _ => ?_)
  cases event <;> simp [Contract.guard, tables]

/-- The tap of a displayed row of the market place opens a detail screen for its
posting. -/
theorem opens_marketTap {row : Nat} {self : MarketPlaceViewController}
    (displayed : row < self.table.length) :
    ((app rules).handler (.didSelectRowAt row)).Opens
      (fun created => created.opening = .detail self.postingArray row) (.market self) := by
  simp only [Screen.handle, MarketPlaceViewController.handle,
    MarketPlaceViewController.didSelectRowAt, this, assign, Code.Opens, Controller.ofScreen,
    displayed, if_true]
  rfl

/-- The tap of a displayed row of the Manage list opens the update screen of its
posting. -/
theorem opens_manageTap (rules : URLRules) {row : Nat} {self : ManagePostingsViewController}
    {posting : Upload}
    (displayed : row < self.table.length) (indexed : self.manaageArray[row]? = some posting) :
    ∃ opened, ((app rules).handler (.didSelectRowAt row)).Opens
      (fun created => created.opening = .update posting.refNo self.currentUser opened)
      (.manage self) := by
  simp only [Screen.handle, ManagePostingsViewController.handle,
    ManagePostingsViewController.didSelectRowAt, this, assign, Code.Opens, Controller.ofScreen,
    displayed, if_true, indexed, Code.unwrap_some]
  exact ⟨_, rfl⟩

/-- A detail screen which was opened with this posting still shows it, whatever has
been reloaded since. -/
def ShowsDetail (process place : Nat) (posting : Upload) (world : World (app rules) service) :
    Prop :=
  ∃ detail : DetailViewController, world.objects[place]? = some ⟨process, .detail detail⟩ ∧
    detail.array[detail.index]? = some posting

/-- An update screen which was opened for this document path still addresses it. -/
def ShowsUpdate (process place : Nat) (docPath : String) (world : World (app rules) service) :
    Prop :=
  ∃ update : UpdatePostingsViewController,
    world.objects[place]? = some ⟨process, .update update⟩ ∧ update.docPath = docPath

/-- Tables show the arrays behind them, no index fails, and a tap in a process that
still runs opens the next screen for the posting displayed in the tapped row. -/
structure TapsHitRows (world : World (app rules) service) : Prop where
  market : ∀ (index process : Nat) (self : MarketPlaceViewController),
    world.objects[index]? = some ⟨process, .market self⟩ → self.table = self.postingArray
  manage : ∀ (index process : Nat) (self : ManagePostingsViewController),
    world.objects[index]? = some ⟨process, .manage self⟩ → self.table = self.manaageArray
  inRange : ∀ fault ∈ world.faults, fault.2 ≠ .index
  detail : ∀ (index process row : Nat) (self : MarketPlaceViewController) (posting : Upload),
    world.objects[index]? = some ⟨process, .market self⟩ → world.crashed process = false →
    self.table[row]? = some posting →
    ∃ next, world.step (.input index (.didSelectRowAt row)) = some next ∧
      ∀ later, (World.machine (app rules) service).Reaches (Machine.anyStep _) next later →
        ShowsDetail process world.objects.length posting later
  update : ∀ (index process row : Nat) (self : ManagePostingsViewController)
      (posting : Upload),
    world.objects[index]? = some ⟨process, .manage self⟩ → world.crashed process = false →
    self.table[row]? = some posting →
    ∃ next, world.step (.input index (.didSelectRowAt row)) = some next ∧
      ∀ later, (World.machine (app rules) service).Reaches (Machine.anyStep _) next later →
        ShowsUpdate process world.objects.length posting.refNo later

/-- A screen that a tap opens keeps what it was opened with. -/
theorem exists_opened {index row : Nat} {target : Instance (app rules)} {opening : Opening}
    (began : (World.machine (app rules) service).Reaches (Machine.anyStep _)
      (.initial _ server) world)
    (placed : world.objects[index]? = some target)
    (runs : world.crashed target.process = false)
    (opens : ((app rules).handler (.didSelectRowAt row)).Opens
      (fun created => created.opening = opening) target.object) :
    ∃ next, world.step (.input index (.didSelectRowAt row)) = some next ∧
      ∀ later, (World.machine (app rules) service).Reaches (Machine.anyStep _) next later →
        ∃ after, later.objects[world.objects.length]? = some after ∧
          after.process = target.process ∧ after.object.opening = opening := by
  have steady : ((app rules).handler (.didSelectRowAt row)).Steady openings :=
    fun screen => Screen.steady_handle screen _
  obtain ⟨next, taken, created, opened, same, present, process, kept⟩ :=
    World.step_opens steady placed runs opens
  have stepped : (World.machine (app rules) service).step world
      (.input index (.didSelectRowAt row) : Event (app rules) service) = some next := taken
  have began' : (World.machine (app rules) service).Reaches (Machine.anyStep _)
      (.initial _ server) next := .step began rfl stepped
  refine ⟨next, taken, fun later reached => ?_⟩
  obtain ⟨after, still, process', same'⟩ :=
    opening_of_reachable began' reached _ opened present
  exact ⟨after, still, process'.trans process, same'.trans (kept.trans same)⟩

/-- Taps hit the row that is displayed, over any backend and in every run. -/
theorem taps_hit_displayed_rows
    (reached : (World.machine (app rules) service).Reaches (Machine.anyStep _)
      (.initial _ server) world) : TapsHitRows world := by
  have holds := tables_of_reaches reached
  have market : ∀ (index process : Nat) (self : MarketPlaceViewController),
      world.objects[index]? = some ⟨process, .market self⟩ → self.table = self.postingArray :=
    fun index process self placed => holds.objects _ (List.mem_of_getElem? placed)
  have manage : ∀ (index process : Nat) (self : ManagePostingsViewController),
      world.objects[index]? = some ⟨process, .manage self⟩ → self.table = self.manaageArray :=
    fun index process self placed => holds.objects _ (List.mem_of_getElem? placed)
  refine ⟨market, manage, holds.faults, ?_, ?_⟩
  · intro index process row self posting placed runs displayed
    obtain ⟨next, taken, kept⟩ := exists_opened reached placed runs
      (opens_marketTap (List.getElem?_eq_some_iff.mp displayed).1)
    refine ⟨next, taken, fun later reached => ?_⟩
    obtain ⟨⟨process', screen⟩, present, sameProcess, same⟩ := kept later reached
    cases screen with
    | detail detail =>
        cases sameProcess
        obtain ⟨array, at_row⟩ := Opening.detail.inj same
        refine ⟨detail, present, ?_⟩
        rw [array, at_row, ← market index process self placed, displayed]
    | _ => cases same
  · intro index process row self posting placed runs displayed
    have indexed := displayed
    rw [manage index process self placed] at indexed
    obtain ⟨opened, opens⟩ :=
      opens_manageTap rules (List.getElem?_eq_some_iff.mp displayed).1 indexed
    obtain ⟨next, taken, kept⟩ := exists_opened reached placed runs opens
    refine ⟨next, taken, fun later reached => ?_⟩
    obtain ⟨⟨process', screen⟩, present, rfl, same⟩ := kept later reached
    cases screen with
    | update update => exact ⟨update, present, (Opening.update.inj same).1⟩
    | _ => cases same

end Runs

section Schedules

/-- Some detail screen has its posting, and some Manage list displays one. -/
def tapped (world : PostingsWorld anyText) : Bool :=
  (world.objects.any fun target =>
    match target.object with
    | .detail self => self.array[self.index]?.any fun posting => posting.title == "Job"
    | _ => false) &&
  world.objects.any fun target =>
    match target.object with
    | .manage self => self.table.length == 1
    | _ => false

/-- A published posting is tapped in the market place and in the Manage list. -/
theorem taps_hit_displayed_rows_published :
    ∃ world, (system anyText).Reaches (Machine.anyStep _) (start anyText) world ∧
      tapped world = true ∧ TapsHitRows world := by
  obtain ⟨world, reached, shown⟩ := Machine.exists_reaches (m := system anyText)
    (Machine.anyStep _) (start anyText)
    (publishing ++ managing ++ [.launch 2 .market, .input 3 .viewDidLoad, .serve 1 .ok, .reply 1,
      .input 3 (.didSelectRowAt 0)])
    tapped (by decide +kernel)
  exact ⟨world, reached, shown, taps_hit_displayed_rows reached⟩

end Schedules

end Postings

end Gbc
