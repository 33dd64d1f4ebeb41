import Gbc.Market.Cells
import Gbc.Market.Postings
import Gbc.Platform.Moments

/-!
# The lists show moments

The three lists decode the documents of the load that was handled last, whole and in order.
Hence each of them is what its collection held at one moment, and a list whose load began
after a write was applied shows that write.
-/

namespace Gbc

open Callback Handler World

variable {rules : URLRules}

/-- The collection that a list loads. -/
def Opening.listed : Opening → CollectionName
  | .info => .infoUpload
  | _ => .upload

/-- The rows of the market place are all the postings that it has loaded, or those of one
segment. -/
def MarketPlaceViewController.Selects (self : MarketPlaceViewController) : Prop :=
  self.table = self.uploadArray ∨
    ∃ name ∈ ["Job", "Rental"], self.table = filterArray self.uploadArray name

/-- The rows of a list show these documents. -/
def Screen.Lists (screen : Screen) (documents : Snapshot) : Prop :=
  match screen with
  | .market self => self.Selects ∧
      self.uploadArray = documents.map fun document => Upload.ofData document.2
  | .manage self => self.table = self.manaageArray ∧
      self.manaageArray = (self.owned documents).map fun document => Upload.ofData document.2
  | .info self => self.table = self.infoArray ∧
      self.infoArray = documents.map fun document => Info.ofData document.2
  | _ => True

namespace Postings

/-- The documents that a load of a list delivered. -/
def listDelivered (past : Past (app rules)) (exchange : Exchange (remote rules)) :
    Option Snapshot :=
  match past.entry.input, exchange with
  | .viewDidLoad, ⟨.getDocuments collection, (documents : Option Snapshot)⟩
  | .viewWillAppear, ⟨.getDocuments collection, (documents : Option Snapshot)⟩ =>
      if collection = past.entry.object.opening.listed then documents else none
  | _, _ => none

/-- The documents behind the rows of every list. -/
abbrev listing (rules : URLRules) : Slot (app rules) where
  frame := openings
  owner screen := screen.opening.lists
  Value := Snapshot
  holds documents screen := screen.Lists documents
  initial := []
  writes := listDelivered

section Loads

variable {past : Past (app rules)}

/-- A load that was started by the appearance of a list and is answered writes it. -/
theorem listDelivered_load {collection : CollectionName} {snapshot : Option Snapshot}
    (appears : past.entry.input = .viewDidLoad ∨ past.entry.input = .viewWillAppear)
    (own : collection = past.entry.object.opening.listed) :
    listDelivered past ⟨.getDocuments collection, snapshot⟩ = snapshot := by
  rcases appears with same | same <;> simp [listDelivered, same, own]

/-- A completion handler that decodes the delivered documents into its list. -/
theorem load_writes {Self : Type} [Controller Screen Self] (past : Past (app rules)) (now : Self)
    (completion : Option Snapshot → Handler rules) {collection : CollectionName}
    (appears : past.entry.input = .viewDidLoad ∨ past.entry.input = .viewWillAppear)
    (own : collection = past.entry.object.opening.listed) (failed : completion none = .done)
    (loaded : ∀ documents, ∃ change : Self → Self,
      completion (some documents) = assign change .done ∧
        (Controller.screen (change now) : Screen).Lists documents)
    (snapshot : Option Snapshot) :
    (∀ documents, (listing rules).holds documents (Controller.screen now) →
      (completion snapshot).Ends ((listing rules).holds
        ((listDelivered past ⟨.getDocuments collection, snapshot⟩).getD documents))
        (Controller.screen now)) ∧
      (listing rules).Respects (past.answered (.getDocuments collection) snapshot)
        (completion snapshot) (Controller.screen now) := by
  rw [listDelivered_load appears own]
  cases snapshot with
  | none =>
      rw [failed]
      exact ⟨fun _ held => held, trivial⟩
  | some documents =>
      obtain ⟨change, same, lists⟩ := loaded documents
      rw [same]
      simp only [assign, Code.Ends, Slot.Respects, Controller.ofScreen_screen]
      exact ⟨fun _ _ => lists, trivial⟩

end Loads

section Lists

variable {serial place : Nat} {trail : List (Exchange (remote rules))}

/-- A segment selects from the postings that are loaded. -/
theorem segmentChanged_lists {self : MarketPlaceViewController} {documents : Snapshot}
    (held : (Screen.market self).Lists documents) :
    (Screen.market self.segmentChanged).Lists documents := by
  obtain ⟨selects, loaded⟩ := held
  unfold MarketPlaceViewController.segmentChanged
  split
  · exact ⟨.inl rfl, loaded⟩
  split
  · exact ⟨.inr ⟨"Job", List.mem_cons_self, rfl⟩, loaded⟩
  split
  · exact ⟨.inr ⟨"Rental", List.mem_cons_of_mem _ List.mem_cons_self, rfl⟩, loaded⟩
  · exact ⟨selects, loaded⟩

/-- The handlers of the market place write its list through its loads. -/
theorem market_lists (input : Input) (screen : MarketPlaceViewController) :
    (∀ documents, (listing rules).holds documents (Screen.market screen) →
      ((app rules).handler input).Ends ((listing rules).holds documents) (.market screen)) ∧
    (listing rules).Respects ⟨⟨serial, place, input, .market screen⟩, trail⟩
      ((app rules).handler input) (.market screen) := by
  cases input with
  | viewDidLoad =>
      refine ⟨fun _ held => held, fun snapshot target same => ?_, trivial⟩
      cases target with
      | market now =>
          exact load_writes ⟨⟨serial, place, .viewDidLoad, .market screen⟩, trail⟩ now
            MarketPlaceViewController.documentsLoaded (.inl rfl) rfl rfl
            (fun _ => ⟨_, rfl, .inl rfl, rfl⟩) snapshot
      | _ => cases same
  | viewWillAppear =>
      refine ⟨fun _ held => held, fun snapshot target same => ?_, trivial⟩
      cases target with
      | market now =>
          exact load_writes ⟨⟨serial, place, .viewWillAppear, .market screen⟩, trail⟩ now
            MarketPlaceViewController.documentsLoaded (.inr rfl) rfl rfl
            (fun _ => ⟨_, rfl, .inl rfl, rfl⟩) snapshot
      | _ => cases same
  | selectSegment index =>
      simp only [Code.Ends, Slot.Respects, Screen.handle, MarketPlaceViewController.handle]
      split
      · exact ⟨fun documents held => segmentChanged_lists held, trivial⟩
      · exact ⟨fun _ held => held, trivial⟩
  | cellForRowAt row cell =>
      simp only [Code.Ends, Slot.Respects, Screen.handle, MarketPlaceViewController.handle,
        MarketPlaceViewController.cellForRowAt, this, Controller.ofScreen]
      split
      · refine ⟨fun _ held => Slot.ends_unwrap fun posting _ => Slot.ends_unwrap fun url _ => held,
          Slot.respects_unwrap fun posting _ => Slot.respects_unwrap fun url _ =>
            ⟨fun image target same => ?_, trivial⟩⟩
        cases target with
        | market now => exact ⟨fun _ held => held, trivial⟩
        | _ => cases same
      · exact ⟨fun _ held => held, trivial⟩
  | manageButton currentUser =>
      exact ⟨fun _ held => Slot.ends_unwrap fun _ _ => held,
        Slot.respects_unwrap fun _ _ => trivial⟩
  | didSelectRowAt row =>
      simp only [Code.Ends, Slot.Respects, Screen.handle, MarketPlaceViewController.handle,
        MarketPlaceViewController.didSelectRowAt, this, Controller.ofScreen]
      split
      · exact ⟨fun _ held => held, Slot.unwritten_of_entry fun _ _ => rfl⟩
      · exact ⟨fun _ held => held, trivial⟩
  | _ => exact ⟨fun _ held => held, trivial⟩

/-- The handlers of the Manage screen write its list through its loads. -/
theorem manage_lists (input : Input) (screen : ManagePostingsViewController) :
    (∀ documents, (listing rules).holds documents (Screen.manage screen) →
      ((app rules).handler input).Ends ((listing rules).holds documents) (.manage screen)) ∧
    (listing rules).Respects ⟨⟨serial, place, input, .manage screen⟩, trail⟩
      ((app rules).handler input) (.manage screen) := by
  cases input with
  | viewDidLoad =>
      refine ⟨fun _ held => held, fun snapshot target same => ?_, trivial⟩
      cases target with
      | manage now =>
          exact load_writes ⟨⟨serial, place, .viewDidLoad, .manage screen⟩, trail⟩ now
            ManagePostingsViewController.documentsLoaded (.inl rfl) rfl rfl
            (fun _ => ⟨_, rfl, rfl, rfl⟩) snapshot
      | _ => cases same
  | viewWillAppear =>
      refine ⟨fun _ held => held, fun snapshot target same => ?_, trivial⟩
      cases target with
      | manage now =>
          exact load_writes ⟨⟨serial, place, .viewWillAppear, .manage screen⟩, trail⟩ now
            ManagePostingsViewController.documentsLoaded (.inr rfl) rfl rfl
            (fun _ => ⟨_, rfl, rfl, rfl⟩) snapshot
      | _ => cases same
  | cellForRowAt row cell =>
      simp only [Code.Ends, Slot.Respects, Screen.handle, ManagePostingsViewController.handle,
        ManagePostingsViewController.cellForRowAt, this, Controller.ofScreen]
      split
      · refine ⟨fun _ held => Slot.ends_unwrap fun posting _ => Slot.ends_unwrap fun url _ => held,
          Slot.respects_unwrap fun posting _ => Slot.respects_unwrap fun url _ =>
            ⟨fun image target same => ?_, trivial⟩⟩
        cases target with
        | manage now => exact ⟨fun _ held => held, trivial⟩
        | _ => cases same
      · exact ⟨fun _ held => held, trivial⟩
  | didSelectRowAt row =>
      simp only [Code.Ends, Slot.Respects, Screen.handle, ManagePostingsViewController.handle,
        ManagePostingsViewController.didSelectRowAt, this, Controller.ofScreen]
      split
      · exact ⟨fun _ held => Slot.ends_unwrap fun posting _ => held,
          Slot.respects_unwrap fun posting _ => Slot.unwritten_of_entry fun _ _ => rfl⟩
      · exact ⟨fun _ held => held, trivial⟩
  | _ => exact ⟨fun _ held => held, trivial⟩

/-- The handlers of the information list write it through its loads. -/
theorem info_lists (input : Input) (screen : InformationViewController) :
    (∀ documents, (listing rules).holds documents (Screen.info screen) →
      ((app rules).handler input).Ends ((listing rules).holds documents) (.info screen)) ∧
    (listing rules).Respects ⟨⟨serial, place, input, .info screen⟩, trail⟩
      ((app rules).handler input) (.info screen) := by
  cases input with
  | viewDidLoad =>
      refine ⟨fun _ held => held, fun snapshot target same => ?_, trivial⟩
      cases target with
      | info now =>
          exact load_writes ⟨⟨serial, place, .viewDidLoad, .info screen⟩, trail⟩ now
            InformationViewController.documentsLoaded (.inl rfl) rfl rfl
            (fun _ => ⟨_, rfl, rfl, rfl⟩) snapshot
      | _ => cases same
  | cellForRowAt row cell =>
      simp only [Code.Ends, Slot.Respects, Screen.handle, InformationViewController.handle,
        InformationViewController.cellForRowAt, this, Controller.ofScreen]
      split
      · refine ⟨fun _ held => Slot.ends_unwrap fun item _ => Slot.ends_unwrap fun url _ => held,
          Slot.respects_unwrap fun item _ => Slot.respects_unwrap fun url _ =>
            ⟨fun image target same => ?_, trivial⟩⟩
        cases target with
        | info now => exact ⟨fun _ held => held, trivial⟩
        | _ => cases same
      · exact ⟨fun _ held => held, trivial⟩
  | didSelectRowAt row =>
      simp only [Code.Ends, Slot.Respects, Screen.handle, InformationViewController.handle,
        InformationViewController.didSelectRowAt, this, Controller.ofScreen]
      split
      · exact ⟨fun _ held => Slot.ends_unwrap fun item _ => held,
          Slot.respects_unwrap fun item _ => trivial⟩
      · exact ⟨fun _ held => held, trivial⟩
  | _ => exact ⟨fun _ held => held, trivial⟩

end Lists

theorem listing_sound : (listing rules).Sound where
  steady input screen := Screen.steady_handle screen input
  owner kept := openings_iff Opening.lists kept
  made screen pushed owns := by cases screen <;> first | exact pushed | exact owns
  root root _ := by
    cases root with
    | market => exact ⟨.inl rfl, rfl⟩
    | manage currentUser => exact ⟨rfl, rfl⟩
    | info => exact ⟨rfl, rfl⟩
    | _ => trivial
  input past start owns := by
    obtain ⟨⟨serial, self, input, object⟩, trail⟩ := past
    cases object with
    | market screen => exact market_lists input screen
    | manage screen => exact manage_lists input screen
    | info screen => exact info_lists input screen
    | _ => exact owns.elim

section Moments

variable {before world : PostingsWorld rules} {index process : Nat} {screen : Screen}

/-- The load of this list that was handled last, with what it delivered. -/
def lastLoad (world : PostingsWorld rules) (index : Nat) : Option (Past (app rules) × Snapshot) :=
  world.acknowledged.findSome? fun handled =>
    if handled.1.entry.self = index then (listDelivered handled.1 handled.2).map (handled.1, ·)
    else none

/-- A list shows what the load handled last has delivered. -/
theorem lists_lastLoad
    (reached : (system rules).Reaches (system rules).anyStep (start rules) world)
    (placed : world.objects[index]? = some ⟨process, screen⟩)
    (runs : world.crashed process = false) (lists : screen.opening.lists) :
    screen.Lists (((lastLoad world index).map Prod.snd).getD []) := by
  have sound : (listing rules).Sound := listing_sound
  have slotted := slotted_of_reachable sound reached
  have value := slotted.value index _ placed lists runs
  have writes : ∀ past exchange, (listing rules).writes past exchange =
      ((listDelivered past exchange).map (past, ·)).map Prod.snd := by simp
  rw [lastWrite_map writes] at value
  exact value

/-- What a list has loaded is an answer for its collection. -/
theorem load_of_listDelivered {past : Past (app rules)} {exchange : Exchange (remote rules)}
    {documents : Snapshot} (delivered : listDelivered past exchange = some documents) :
    exchange = ⟨.getDocuments past.entry.object.opening.listed,
      (some documents : Option Snapshot)⟩ := by
  unfold listDelivered at delivered
  split at delivered
  · obtain ⟨rfl, rfl⟩ := Option.ite_none_right_eq_some.mp delivered
    rfl
  · obtain ⟨rfl, rfl⟩ := Option.ite_none_right_eq_some.mp delivered
    rfl
  · cases delivered

/-- The load that was handled last is an answer for the collection of its list. -/
theorem answered_of_lastLoad
    (reached : (system rules).Reaches (system rules).anyStep (start rules) world)
    (placed : world.objects[index]? = some ⟨process, screen⟩) {past : Past (app rules)}
    {documents : Snapshot} (loaded : lastLoad world index = some (past, documents)) :
    world.Answered past ⟨.getDocuments screen.opening.listed,
      (some documents : Option Snapshot)⟩ := by
  obtain ⟨⟨older, exchange⟩, member, found⟩ := List.exists_of_findSome?_eq_some loaded
  obtain ⟨own, found⟩ := Option.ite_none_right_eq_some.mp found
  simp only at own found
  obtain ⟨_, delivered, same⟩ := Option.map_eq_some_iff.mp found
  cases same
  obtain rfl := load_of_listDelivered delivered
  have sound : (listing rules).Sound := listing_sound
  have slotted := slotted_of_reachable sound reached
  obtain ⟨target, present, kept⟩ := slotted.entry past (.handled member)
  rw [own, placed] at present
  cases present
  have same : screen.opening = past.entry.object.opening := kept
  rw [same]
  exact .handled member

/-- A list whose last load began after a state shows a moment since then. -/
theorem exists_moment_of_lastLoad
    (began : (system rules).Reaches (system rules).anyStep (start rules) before)
    (reached : (system rules).Reaches (system rules).anyStep before world)
    (placed : world.objects[index]? = some ⟨process, screen⟩)
    (runs : world.crashed process = false) (lists : screen.opening.lists)
    {load : Past (app rules) × Snapshot} (loaded : lastLoad world index = some load)
    (later : before.clock ≤ load.1.entry.serial) :
    ∃ moment, before.server.journal <:+ moment ∧ moment <:+ world.server.journal ∧
      screen.Lists (Server.replay screen.opening.listed moment).toList := by
  have whole := began.trans reached
  have shows := lists_lastLoad whole placed runs lists
  rw [loaded] at shows
  have answered := answered_of_lastLoad whole placed loaded
  obtain ⟨moment, since, held, same⟩ :=
    (loadsHeld_of_reachable reached).since (clocked_of_reachable began) answered rfl later
  have listed : load.2 = (Server.replay screen.opening.listed moment).toList := same
  exact ⟨moment, since, held, listed ▸ shows⟩

/-- The rows of a list show what its collection held at one moment. Where the load that they
show began after a state, the moment lies after that state. -/
def ShowsMoment (before world : PostingsWorld rules) (index : Nat) (screen : Screen) : Prop :=
  ∃ moment, moment <:+ world.server.journal ∧
    screen.Lists (Server.replay screen.opening.listed moment).toList ∧
    ∀ load, lastLoad world index = some load → before.clock ≤ load.1.entry.serial →
      before.server.journal <:+ moment

/-- In every run, the rows of each running list show its collection as it was at one moment
(the market place the part of its segment, a Manage list the part of its user), which is not
older than any state that the run had reached when the load began. Loads are answered by the
server here, not from what Firestore has cached on a device. -/
theorem lists_show_one_moment
    (began : (system rules).Reaches (system rules).anyStep (start rules) before)
    (reached : (system rules).Reaches (system rules).anyStep before world)
    (placed : world.objects[index]? = some ⟨process, screen⟩)
    (runs : world.crashed process = false) (lists : screen.opening.lists) :
    ShowsMoment before world index screen := by
  have whole := began.trans reached
  cases loaded : lastLoad world index with
  | none =>
      have shows := lists_lastLoad whole placed runs lists
      rw [loaded] at shows
      refine ⟨[], List.nil_suffix, shows, fun load same => ?_⟩
      rw [loaded] at same
      cases same
  | some load =>
      by_cases later : before.clock ≤ load.1.entry.serial
      · obtain ⟨moment, since, held, shows⟩ :=
          exists_moment_of_lastLoad began reached placed runs lists loaded later
        exact ⟨moment, held, shows, fun _ _ _ => since⟩
      · obtain ⟨moment, -, held, shows⟩ :=
          exists_moment_of_lastLoad .refl whole placed runs lists loaded (Nat.zero_le _)
        refine ⟨moment, held, shows, fun other same since => ?_⟩
        rw [loaded] at same
        cases same
        exact absurd since later

/-- A market place appears and its load is handled. -/
def appearing : List (Event (app anyText) (firebase anyText)) :=
  [.launch 1 .market, .input 1 .viewDidLoad, .serve 0 .ok, .reply 0]

/-- A submission that has been handled. -/
def handledSubmission (world : PostingsWorld rules) :
    Option (Past (app rules) × Fields × String) :=
  world.acknowledged.findSome? fun handled =>
    match handled with
    | (past, ⟨.addDocument .upload data, (some document : Option String)⟩) =>
        some (past, data, document)
    | _ => none

theorem answered_of_handledSubmission {past : Past (app rules)} {data : Fields}
    {document : String} (found : handledSubmission world = some (past, data, document)) :
    world.Answered past ⟨.addDocument .upload data, (some document : Option String)⟩ := by
  obtain ⟨handled, member, same⟩ := List.exists_of_findSome?_eq_some found
  split at same
  · cases same
    exact .handled member
  · cases same

/-- A posting was submitted before a state, and object 1 is a running market place whose last
load began after it. -/
def appeared (before world : PostingsWorld anyText) : Bool :=
  (match (world.objects[1]? : Option (Instance (app anyText))) with
    | some ⟨1, .market self⟩ => !world.crashed 1 && self.uploadArray.length == 1
    | _ => false) &&
  ((handledSubmission before).isSome &&
    (lastLoad world 1).any fun load => before.clock ≤ load.1.entry.serial)

/-- What `appeared` has checked. -/
structure Appeared (before world : PostingsWorld anyText) (market : MarketPlaceViewController)
    (load : Past (app anyText) × Snapshot) : Prop where
  began : (system anyText).Reaches (system anyText).anyStep (start anyText) before
  reached : (system anyText).Reaches (system anyText).anyStep before world
  submitted : ∃ past data document, handledSubmission before = some (past, data, document)
  placed : world.objects[1]? = some ⟨1, .market market⟩
  runs : world.crashed 1 = false
  loaded : lastLoad world 1 = some load
  later : before.clock ≤ load.1.entry.serial

/-- Such a market place can be reached. -/
theorem exists_appeared : ∃ before world market load, Appeared before world market load := by
  obtain ⟨before, world, began, reached, shown⟩ := Machine.exists_reaches_later
    (m := system anyText) (system anyText).anyStep (start anyText) publishing appearing appeared
    (by decide +kernel)
  obtain ⟨listed, rest⟩ := Bool.and_eq_true_iff.mp shown
  obtain ⟨submitted, loaded⟩ := Bool.and_eq_true_iff.mp rest
  obtain ⟨load, last, later⟩ := (Option.any_eq_true _ _).mp loaded
  obtain ⟨⟨past, data, document⟩, handled⟩ := Option.isSome_iff_exists.mp submitted
  split at listed
  · rename_i market placed
    simp only [Bool.and_eq_true, Bool.not_eq_true'] at listed
    exact ⟨before, world, market, load, began, reached, ⟨past, data, document, handled⟩, placed,
      listed.1, last, of_decide_eq_true later⟩
  · cases listed

theorem lists_show_one_moment_appeared :
    ∃ before world market load, Appeared before world market load ∧
      ShowsMoment before world 1 (.market market) := by
  obtain ⟨before, world, market, load, shown⟩ := exists_appeared
  exact ⟨before, world, market, load, shown,
    lists_show_one_moment shown.began shown.reached shown.placed shown.runs trivial⟩

end Moments

end Postings

end Gbc
