import Gbc.Callback.Newest
import Gbc.Market.Taps

/-!
# The pictures in the cells

A cell of a table is bound to rows one after the other, and every binding starts an
image load whose completion handler writes into the cell, whatever row it shows by then.
The backend is arbitrary here: loads may deliver any picture, in any order.
-/

namespace Gbc

open Callback Handler World

variable {rules : URLRules}

/-- The image in a cell of a table. -/
def imageIn {Cell : Type} (image : Cell → Option UIImage) (cells : List Cell) (index : Nat) :
    Option UIImage :=
  (cells[index]?).bind image

section Cells

variable {Cell : Type} {image : Cell → Option UIImage} {cells : List Cell} {blank : Cell}
  {change : Cell → Cell} {bound index : Nat}

/-- Cells that UIKit creates show no image. -/
theorem imageIn_append_blank (empty : image blank = none) (count : Nat) :
    imageIn image (cells ++ List.replicate count blank) index = imageIn image cells index := by
  unfold imageIn
  rcases Nat.lt_or_ge index cells.length with below | beyond
  · rw [List.getElem?_append_left below]
  · rw [List.getElem?_append_right beyond, List.getElem?_replicate,
      List.getElem?_eq_none beyond]
    split
    · exact empty
    · rfl

/-- A change of other parts of a cell leaves the images alone. -/
theorem imageIn_modifyCell (empty : image blank = none)
    (same : ∀ cell, image (change cell) = image cell) :
    imageIn image (modifyCell cells blank bound change) index = imageIn image cells index := by
  have grown : imageIn image (cells ++ List.replicate (bound + 1 - cells.length) blank) index =
      imageIn image cells index := imageIn_append_blank empty _
  rw [← grown]
  unfold imageIn modifyCell
  rw [List.getElem?_modify]
  split
  · cases (cells ++ List.replicate (bound + 1 - cells.length) blank)[index]? with
    | none => rfl
    | some cell => exact same cell
  · simp

/-- A change of the image of a cell. -/
theorem imageIn_modifyCell_image (empty : image blank = none) {shown : Option UIImage}
    (shows : ∀ cell, image (change cell) = shown) :
    imageIn image (modifyCell cells blank bound change) index =
      if bound = index then shown else imageIn image cells index := by
  have grown : imageIn image (cells ++ List.replicate (bound + 1 - cells.length) blank) index =
      imageIn image cells index := imageIn_append_blank empty _
  rw [← grown]
  unfold imageIn modifyCell
  rw [List.getElem?_modify]
  split
  · rename_i here
    have inside : index < (cells ++ List.replicate (bound + 1 - cells.length) blank).length := by
      simp only [List.length_append, List.length_replicate]
      omega
    rw [List.getElem?_eq_getElem inside]
    exact shows _
  · simp

end Cells

/-- The text of the picture's URL in a row of the array behind a table. -/
def Screen.rowImage : Screen → Nat → Option String
  | .market self, row => self.postingArray[row]?.map (·.uimage)
  | .manage self, row => self.manaageArray[row]?.map (·.uimage)
  | .info self, row => self.infoArray[row]?.map (·.uImage)
  | _, _ => none

/-- The image that a cell of a table shows. -/
def Screen.cellImage : Screen → Nat → Option UIImage
  | .market self, cell => imageIn TableViewCell.imagePosting self.cells cell
  | .manage self, cell => imageIn ManageTableViewCell.manageImageView self.cells cell
  | .info self, cell => imageIn InfoTableViewCell.infoImageView self.cells cell
  | _, _ => none

/-- The screens with a table of rows. -/
def Opening.lists : Opening → Prop
  | .market | .manage _ | .info => True
  | _ => False

namespace Postings

variable {service : Service (remote rules)}

/-- The cell that an input binds to a row. -/
def boundCell (entry : Entry (app rules)) : Option Nat :=
  match entry.object, entry.input with
  | .market _, .cellForRowAt _ cell | .manage _, .cellForRowAt _ cell
  | .info _, .cellForRowAt _ cell => some cell
  | _, _ => none

/-- The image loads of one cell of one screen. -/
abbrev cellGroup (past : Past (app rules)) : Option (Nat × Nat) := cellOf boundCell past

/-- What an image load delivers. -/
def loadedImage (exchange : Exchange (remote rules)) : Option (Option UIImage) :=
  match exchange with
  | ⟨.loadFrom _, (image : Option UIImage)⟩ => some image
  | _ => none

/-- The image in this cell of every table. -/
abbrev cellImage (rules : URLRules) (cell : Nat) : Slot (app rules) where
  frame := openings
  owner screen := screen.opening.lists
  Value := Option UIImage
  holds image screen := screen.cellImage cell = image
  initial := none
  writes past exchange := if boundCell past.entry = some cell then loadedImage exchange else none

/-- A completed load writes its own cell. -/
theorem getD_written {bound cell : Nat} (image shown : Option UIImage) :
    (if bound = cell then image else shown) =
      (if some bound = some cell then some image else none).getD shown := by
  by_cases same : bound = cell <;> simp [same]

section Tables

variable {cell serial place : Nat} {trail : List (Exchange (remote rules))}

/-- The handlers of the market place write an image through the loads of its cell. -/
theorem market_cells (input : Input) (screen : MarketPlaceViewController) :
    (∀ image, (cellImage rules cell).holds image (Screen.market screen) →
      ((app rules).handler input).Ends ((cellImage rules cell).holds image) (.market screen)) ∧
    (cellImage rules cell).Respects ⟨⟨serial, place, input, .market screen⟩, trail⟩
      ((app rules).handler input) (.market screen) := by
  cases input with
  | viewDidLoad =>
      refine ⟨fun _ held => held, fun snapshot target same => ?_, trivial⟩
      cases target with
      | market now => cases snapshot <;> exact ⟨fun _ held => held, trivial⟩
      | _ => cases same
  | viewWillAppear =>
      refine ⟨fun _ held => held, fun snapshot target same => ?_, trivial⟩
      cases target with
      | market now => cases snapshot <;> exact ⟨fun _ held => held, trivial⟩
      | _ => cases same
  | selectSegment index =>
      simp only [Code.Ends, Slot.Respects, Screen.handle, MarketPlaceViewController.handle]
      split
      · refine ⟨fun image held => ?_, trivial⟩
        simp only [Code.Ends, assign, Controller.ofScreen,
          MarketPlaceViewController.segmentChanged]
        split
        · exact held
        · split
          · exact held
          · split <;> exact held
      · exact ⟨fun _ held => held, trivial⟩
  | cellForRowAt row bound =>
      simp only [Code.Ends, Slot.Respects, Screen.handle, MarketPlaceViewController.handle,
        MarketPlaceViewController.cellForRowAt, this, Controller.ofScreen]
      split
      · refine ⟨fun _ held => Slot.ends_unwrap fun posting _ => Slot.ends_unwrap fun url _ => ?_,
          Slot.respects_unwrap fun posting _ => Slot.respects_unwrap fun url _ =>
            ⟨fun image target same => ?_, trivial⟩⟩
        · refine .trans (imageIn_modifyCell ?_ ?_) (.trans (imageIn_modifyCell ?_ ?_) held)
          all_goals intros; rfl
        · cases target with
          | market now =>
              refine ⟨?_, trivial⟩
              rintro _ rfl
              refine .trans (imageIn_modifyCell_image ?_ ?_) (getD_written image _)
              all_goals intros; rfl
          | _ => cases same
      · exact ⟨fun _ held => held, trivial⟩
  | manageButton currentUser =>
      exact ⟨fun _ held => Slot.ends_unwrap fun _ _ => held,
        Slot.respects_unwrap fun _ _ => trivial⟩
  | didSelectRowAt row =>
      simp only [Code.Ends, Slot.Respects, Screen.handle, MarketPlaceViewController.handle,
        MarketPlaceViewController.didSelectRowAt, this, Controller.ofScreen]
      split
      · exact ⟨fun _ held => held, Slot.unwritten_of_entry fun _ _ => rfl⟩
      · exact ⟨fun _ held => held, trivial⟩
  | _ => exact ⟨fun _ held => held, trivial⟩

/-- The handlers of the Manage list write an image through the loads of its cell. -/
theorem manage_cells (input : Input) (screen : ManagePostingsViewController) :
    (∀ image, (cellImage rules cell).holds image (Screen.manage screen) →
      ((app rules).handler input).Ends ((cellImage rules cell).holds image) (.manage screen)) ∧
    (cellImage rules cell).Respects ⟨⟨serial, place, input, .manage screen⟩, trail⟩
      ((app rules).handler input) (.manage screen) := by
  cases input with
  | viewDidLoad =>
      refine ⟨fun _ held => held, fun snapshot target same => ?_, trivial⟩
      cases target with
      | manage now => cases snapshot <;> exact ⟨fun _ held => held, trivial⟩
      | _ => cases same
  | viewWillAppear =>
      refine ⟨fun _ held => held, fun snapshot target same => ?_, trivial⟩
      cases target with
      | manage now => cases snapshot <;> exact ⟨fun _ held => held, trivial⟩
      | _ => cases same
  | cellForRowAt row bound =>
      simp only [Code.Ends, Slot.Respects, Screen.handle, ManagePostingsViewController.handle,
        ManagePostingsViewController.cellForRowAt, this, Controller.ofScreen]
      split
      · refine ⟨fun _ held => Slot.ends_unwrap fun posting _ => Slot.ends_unwrap fun url _ => ?_,
          Slot.respects_unwrap fun posting _ => Slot.respects_unwrap fun url _ =>
            ⟨fun image target same => ?_, trivial⟩⟩
        · refine .trans (imageIn_modifyCell ?_ ?_) (.trans (imageIn_modifyCell ?_ ?_) held)
          all_goals intros; rfl
        · cases target with
          | manage now =>
              refine ⟨?_, trivial⟩
              rintro _ rfl
              refine .trans (imageIn_modifyCell_image ?_ ?_) (getD_written image _)
              all_goals intros; rfl
          | _ => cases same
      · exact ⟨fun _ held => held, trivial⟩
  | didSelectRowAt row =>
      simp only [Code.Ends, Slot.Respects, Screen.handle, ManagePostingsViewController.handle,
        ManagePostingsViewController.didSelectRowAt, this, Controller.ofScreen]
      split
      · exact ⟨fun _ held => Slot.ends_unwrap fun posting _ => held,
          Slot.respects_unwrap fun posting _ => Slot.unwritten_of_entry fun _ _ => rfl⟩
      · exact ⟨fun _ held => held, trivial⟩
  | _ => exact ⟨fun _ held => held, trivial⟩

/-- The handlers of the information list write an image through the loads of its cell. -/
theorem info_cells (input : Input) (screen : InformationViewController) :
    (∀ image, (cellImage rules cell).holds image (Screen.info screen) →
      ((app rules).handler input).Ends ((cellImage rules cell).holds image) (.info screen)) ∧
    (cellImage rules cell).Respects ⟨⟨serial, place, input, .info screen⟩, trail⟩
      ((app rules).handler input) (.info screen) := by
  cases input with
  | viewDidLoad =>
      refine ⟨fun _ held => held, fun snapshot target same => ?_, trivial⟩
      cases target with
      | info now => cases snapshot <;> exact ⟨fun _ held => held, trivial⟩
      | _ => cases same
  | cellForRowAt row bound =>
      simp only [Code.Ends, Slot.Respects, Screen.handle, InformationViewController.handle,
        InformationViewController.cellForRowAt, this, Controller.ofScreen]
      split
      · refine ⟨fun _ held => Slot.ends_unwrap fun item _ => Slot.ends_unwrap fun url _ => ?_,
          Slot.respects_unwrap fun item _ => Slot.respects_unwrap fun url _ =>
            ⟨fun image target same => ?_, trivial⟩⟩
        · refine .trans (imageIn_modifyCell ?_ ?_) held
          all_goals intros; rfl
        · cases target with
          | info now =>
              refine ⟨?_, trivial⟩
              rintro _ rfl
              refine .trans (imageIn_modifyCell_image ?_ ?_) (getD_written image _)
              all_goals intros; rfl
          | _ => cases same
      · exact ⟨fun _ held => held, trivial⟩
  | didSelectRowAt row =>
      simp only [Code.Ends, Slot.Respects, Screen.handle, InformationViewController.handle,
        InformationViewController.didSelectRowAt, this, Controller.ofScreen]
      split
      · exact ⟨fun _ held => Slot.ends_unwrap fun item _ => held,
          Slot.respects_unwrap fun item _ => trivial⟩
      · exact ⟨fun _ held => held, trivial⟩
  | _ => exact ⟨fun _ held => held, trivial⟩

end Tables

theorem cellImage_sound (cell : Nat) : (cellImage rules cell).Sound where
  steady input screen := Screen.steady_handle screen input
  owner kept := openings_iff Opening.lists kept
  made screen pushed owns := by cases screen <;> first | exact pushed | exact owns
  root root _ := by cases root <;> rfl
  input past start owns := by
    obtain ⟨⟨serial, self, input, object⟩, trail⟩ := past
    cases object with
    | market screen => exact market_cells input screen
    | manage screen => exact manage_cells input screen
    | info screen => exact info_cells input screen
    | _ => exact owns.elim

/-- The only operation of a binding is the load of the picture of its row. -/
def LoadsRow (past : Past (app rules)) (request : Request rules) : Prop :=
  ∀ cell, boundCell past.entry = some cell → past.trail = [] ∧
    ∃ row text url, past.entry.input = .cellForRowAt row cell ∧
      past.entry.object.rowImage row = some text ∧ URL.ofString rules text = some url ∧
      request = .loadFrom url

/-- Bindings load the pictures of their rows. -/
def bindings (rules : URLRules) (service : Service (remote rules)) :
    Contract (app rules) service where
  Evolves _ _ := True
  Server _ := True
  Object _ _ := True
  Request _ past request := LoadsRow past request
  Response _ _ _ _ := True
  Fault _ := True
  InputGuard _ _ := True
  ServeGuard _ _ _ _ := True
  ReplyGuard _ _ _ _ := True

/-- The handlers of other inputs bind no cell. -/
theorem bindings_of_silent {code : Handler rules} {server : service.State}
    {past : Past (app rules)} {screen : Screen} (silent : boundCell past.entry = none) :
    (bindings rules service).Safe server past code screen := by
  have loads : ∀ request, LoadsRow past request := by
    intro request cell bound
    rw [silent] at bound
    cases bound
  induction code generalizing past screen server with
  | done => trivial
  | trap fault => trivial
  | look next inductionHypothesis => exact inductionHypothesis screen silent loads
  | modify change next inductionHypothesis => exact ⟨trivial, inductionHypothesis silent loads⟩
  | alert title next inductionHypothesis => exact inductionHypothesis silent loads
  | call request completion next completions inductionHypothesis =>
      refine ⟨loads request, fun later response target _ _ _ _ _ => ?_,
        inductionHypothesis silent loads⟩
      refine completions response silent fun other cell bound => ?_
      rw [Past.answered_entry, silent] at bound
      cases bound
  | present object start inductionHypothesis =>
      exact ⟨trivial, inductionHypothesis silent loads⟩

/-- A binding loads the picture of its row. -/
theorem cellForRowAt_bindings {server : service.State} {serial self row cell : Nat}
    (screen : Screen) :
    (bindings rules service).Safe server ⟨⟨serial, self, .cellForRowAt row cell, screen⟩, []⟩
      ((app rules).handler (.cellForRowAt row cell)) screen := by
  cases screen with
  | market screen =>
      simp only [Contract.Safe, Screen.handle, MarketPlaceViewController.handle,
        MarketPlaceViewController.cellForRowAt, this, Controller.ofScreen]
      split
      · refine Contract.safe_unwrap.mpr ⟨fun _ => trivial, fun posting found => ⟨trivial, ?_⟩⟩
        refine Contract.safe_unwrap.mpr ⟨fun _ => trivial, fun url parsed => ?_⟩
        refine ⟨fun bound same => ?_, fun _ image target _ _ _ _ _ => ⟨trivial, trivial⟩,
          trivial, trivial⟩
        cases same
        exact ⟨rfl, row, posting.uimage, url, rfl, by simp [Screen.rowImage, found], parsed, rfl⟩
      · trivial
  | manage screen =>
      simp only [Contract.Safe, Screen.handle, ManagePostingsViewController.handle,
        ManagePostingsViewController.cellForRowAt, this, Controller.ofScreen]
      split
      · refine Contract.safe_unwrap.mpr ⟨fun _ => trivial, fun posting found => ⟨trivial, ?_⟩⟩
        refine Contract.safe_unwrap.mpr ⟨fun _ => trivial, fun url parsed => ?_⟩
        refine ⟨fun bound same => ?_, fun _ image target _ _ _ _ _ => ⟨trivial, trivial⟩,
          trivial, trivial⟩
        cases same
        exact ⟨rfl, row, posting.uimage, url, rfl, by simp [Screen.rowImage, found], parsed, rfl⟩
      · trivial
  | info screen =>
      simp only [Contract.Safe, Screen.handle, InformationViewController.handle,
        InformationViewController.cellForRowAt, this, Controller.ofScreen]
      split
      · refine Contract.safe_unwrap.mpr ⟨fun _ => trivial, fun item found => ⟨trivial, ?_⟩⟩
        refine Contract.safe_unwrap.mpr ⟨fun _ => trivial, fun url parsed => ?_⟩
        refine ⟨fun bound same => ?_,
          fun _ image target _ _ _ _ _ => ⟨trivial, trivial, trivial⟩, trivial⟩
        cases same
        exact ⟨rfl, row, item.uImage, url, rfl, by simp [Screen.rowImage, found], parsed, rfl⟩
      · trivial
  | _ => trivial

theorem bindings_sound (rules : URLRules) (service : Service (remote rules)) :
    (bindings rules service).Sound where
  refl _ := trivial
  trans _ _ := trivial
  object _ _ := trivial
  request _ loads := loads
  response _ _ := trivial
  root _ _ _ := trivial
  input server past _ _ _ _ _ began shown start := by
    obtain ⟨⟨serial, self, input, object⟩, trail⟩ := past
    cases began
    cases shown
    cases start
    cases input with
    | cellForRowAt row cell => exact cellForRowAt_bindings _
    | _ => exact bindings_of_silent (by cases object <;> rfl)
  serve _ _ _ _ := ⟨trivial, trivial, trivial⟩

section Runs

variable {server : service.State} {world : World (app rules) service}

theorem loadsRow_of_reaches {test : World (app rules) service → Event (app rules) service → Bool}
    (reached : (World.machine (app rules) service).Reaches test (.initial _ server) world)
    {past : Past (app rules)} {exchange : Exchange (remote rules)}
    (handled : (past, exchange) ∈ world.acknowledged) : LoadsRow past exchange.request := by
  have holds : (bindings rules service).Holds world := by
    refine Contract.Holds.reachable (bindings_sound rules service)
      (Contract.holds_initial trivial) (reached.weaken fun state event _ => ?_)
    cases event <;> simp [Contract.guard, bindings]
  exact holds.acknowledged _ handled

/-- A binding of a row starts the load of its picture, unless that has no URL. -/
theorem operates_of_binding {row cell : Nat} {screen : Screen} {text : String}
    (inStep : screen.InStep) (shown : screen.rowImage row = some text) :
    ((app rules).handler (.cellForRowAt row cell)).Operates screen := by
  cases screen with
  | market self =>
      obtain ⟨posting, listed, rfl⟩ := Option.map_eq_some_iff.mp shown
      have same : self.table = self.postingArray := inStep
      have displayed : row < self.table.length := by
        rw [same]
        exact (List.getElem?_eq_some_iff.mp listed).1
      simp only [Code.Operates, Screen.handle, MarketPlaceViewController.handle,
        MarketPlaceViewController.cellForRowAt, this, Controller.ofScreen, displayed, if_true,
        listed, Code.unwrap_some]
      exact Code.operates_unwrap fun url => trivial
  | manage self =>
      obtain ⟨posting, listed, rfl⟩ := Option.map_eq_some_iff.mp shown
      have same : self.table = self.manaageArray := inStep
      have displayed : row < self.table.length := by
        rw [same]
        exact (List.getElem?_eq_some_iff.mp listed).1
      simp only [Code.Operates, Screen.handle, ManagePostingsViewController.handle,
        ManagePostingsViewController.cellForRowAt, this, Controller.ofScreen, displayed, if_true,
        listed, Code.unwrap_some]
      exact Code.operates_unwrap fun url => trivial
  | info self =>
      obtain ⟨item, listed, rfl⟩ := Option.map_eq_some_iff.mp shown
      have same : self.table = self.infoArray := inStep
      have displayed : row < self.table.length := by
        rw [same]
        exact (List.getElem?_eq_some_iff.mp listed).1
      simp only [Code.Operates, Screen.handle, InformationViewController.handle,
        InformationViewController.cellForRowAt, this, Controller.ofScreen, displayed, if_true,
        listed, Code.unwrap_some]
      exact Code.operates_unwrap fun url => trivial
  | _ => cases shown

/-- In every table, a cell without an outstanding image load shows what the load of the
row it was bound to last has delivered. -/
structure ShowsOwnPictures (world : World (app rules) service) : Prop where
  /-- The load with the newest binding is the one that is shown. -/
  shown : ∀ (index process cell : Nat) (screen : Screen) (past : Past (app rules)),
    world.objects[index]? = some ⟨process, screen⟩ → screen.opening.lists →
    world.crashed process = false →
    Idle cellGroup (index, cell) world → Newest cellGroup (index, cell) world past →
    ∃ row text url image, past.entry.input = .cellForRowAt row cell ∧
      past.entry.object.rowImage row = some text ∧ URL.ofString rules text = some url ∧
      (past, (⟨.loadFrom url, (image : Option UIImage)⟩ : Exchange (remote rules))) ∈
        world.acknowledged ∧
      screen.cellImage cell = image
  /-- Binding a cell to a row makes the load of that row the newest one, unless it stops the
  process. -/
  bound : ∀ (index process row cell : Nat) (screen : Screen) (text : String)
      (next : World (app rules) service),
    world.objects[index]? = some ⟨process, screen⟩ → screen.rowImage row = some text →
    world.step (.input index (.cellForRowAt row cell)) = some next →
    next.crashed process = true ∨ Newest cellGroup (index, cell) next
      ⟨⟨world.clock, index, .cellForRowAt row cell, screen⟩, []⟩

/-- While the last outstanding load of a cell to complete is that of its newest binding,
every cell shows the picture of its row. -/
theorem showsOwnPictures_of_reaches
    (reached : (World.machine (app rules) service).Reaches (endsNewest cellGroup)
      (.initial _ server) world) : ShowsOwnPictures world where
  shown index process cell screen past placed lists runs idle binding := by
    have delivers : ∀ handled ∈ world.acknowledged, boundCell handled.1.entry = some cell →
        (loadedImage handled.2).isSome = true := by
      rintro ⟨other, request, response⟩ old bound
      obtain ⟨_, _, _, _, _, _, _, rfl⟩ := loadsRow_of_reaches reached old cell bound
      rfl
    obtain ⟨⟨request, response⟩, image, member, delivered, shows⟩ :=
      holds_of_newest (cellImage_sound cell) (fun _ _ => rfl) reached delivers placed lists runs
        idle binding
    obtain ⟨_, bound⟩ := binds_of_cellOf binding.grouped
    obtain ⟨_, row, text, url, input, shown, parsed, rfl⟩ :=
      loadsRow_of_reaches reached member cell bound
    cases delivered
    exact ⟨row, text, url, _, input, shown, parsed, member, shows⟩
  bound index process row cell screen text next placed shown taken := by
    have inStep : screen.InStep :=
      (tables_of_reaches reached).objects _ (List.mem_of_getElem? placed)
    let entry : Entry (app rules) := ⟨world.clock, index, .cellForRowAt row cell, screen⟩
    have binds : boundCell entry = some cell := by
      cases screen <;> first | rfl | cases shown
    exact newest_of_binding (clocked_of_reachable reached) placed binds
      (operates_of_binding inStep shown) taken

end Runs

end Postings

end Gbc
