import Gbc.Market.Cells

/-!
# The news table of the Home tab

`HomeTabViewController` as far as its table of news goes. The articles come from a file
of the bundle; their pictures are loaded like those of the other tables.
-/

namespace Gbc

open Callback Handler World

variable {rules : URLRules}

/-- An article of the news file. -/
structure Article where
  title : String
  url : String
  urlToImage : String

/-- A cell of the news table. -/
structure NewsCell where
  newsDescription : String
  newsImage : Option UIImage

/-- The news table of `HomeTabViewController`. -/
structure NewsTable where
  articles : List Article
  table : List Article
  cells : List NewsCell

namespace News

/-- What happens to the table. `decoded` is what the decoder makes of the news file. -/
inductive Input where
  | viewDidLoad (decoded : Option (List Article))
  | cellForRowAt (row cell : Nat)
  | didSelectRowAt (row : Nat)

instance : Controller NewsTable NewsTable where
  screen self := self
  ofScreen self := some self
  ofScreen_screen _ := rfl

instance : LawfulController NewsTable NewsTable where
  eq_screen same := by cases same; rfl

/-- The body of a handler of the table. -/
abbrev Handler (rules : URLRules) := Handling rules NewsTable

/-- The table as the storyboard opens it. -/
def opened : NewsTable where
  articles := []
  table := []
  cells := []

/-- `parse(json:)` of the news file. -/
def viewDidLoad (decoded : Option (List Article)) : Handler rules :=
  match decoded with
  | none => .done
  | some articles =>
      assign (fun screen : NewsTable =>
        { screen with articles := articles, table := articles }) .done

/-- Change one cell of the table. -/
def assignCell (cell : Nat) (change : NewsCell → NewsCell) (next : Handler rules) :
    Handler rules :=
  assign (fun screen : NewsTable =>
    { screen with cells := modifyCell screen.cells ⟨"", none⟩ cell change }) next

def cellForRowAt (row cell : Nat) : Handler rules :=
  this fun self : NewsTable =>
    if row < self.table.length then
      .unwrap self.articles[row]? .index fun article =>
      assignCell cell (fun shown => { shown with newsDescription := article.title }) <|
      .unwrap (URL.ofString rules article.urlToImage) .article fun url =>
      .call (.loadFrom url)
        (fun (i : Option UIImage) =>
          assignCell cell (fun shown => { shown with newsImage := i }) .done) .done
    else .done

/-- `didSelectRowAt`, which shows the article in a browser of the system. -/
def didSelectRowAt (row : Nat) : Handler rules :=
  this fun self : NewsTable =>
    if row < self.table.length then
      .unwrap self.articles[row]? .index fun article =>
      .unwrap (URL.ofString rules article.url) .article fun _ => .done
    else .done

def handle : Input → Handler rules
  | .viewDidLoad decoded => viewDidLoad decoded
  | .cellForRowAt row cell => cellForRowAt row cell
  | .didSelectRowAt row => didSelectRowAt row

/-- The news table as a program. -/
abbrev app (rules : URLRules) : App (remote rules) where
  Object := NewsTable
  Root := Unit
  Input := Input
  Fault := Fault
  root _ := opened
  handler input := handle input

variable {service : Service (remote rules)}

/-- The cell that an input binds to a row. -/
def boundCell (entry : Entry (app rules)) : Option Nat :=
  match entry.input with
  | .cellForRowAt _ cell => some cell
  | _ => none

/-- The image loads of one cell of one table. -/
abbrev cellGroup (past : Past (app rules)) : Option (Nat × Nat) := cellOf boundCell past

/-- The table creates no other. -/
abbrev unframed : Frame NewsTable := .ofView (fun _ => ()) fun _ => False

/-- The image in this cell of every news table. -/
abbrev cellImage (rules : URLRules) (cell : Nat) : Slot (app rules) where
  frame := unframed
  owner _ := True
  Value := Option UIImage
  holds image screen := imageIn NewsCell.newsImage screen.cells cell = image
  initial := none
  writes past exchange :=
    if boundCell past.entry = some cell then Postings.loadedImage exchange else none

theorem steady_cellForRowAt {row cell : Nat} :
    (cellForRowAt row cell : Handler rules).Steady unframed := by
  refine steady_this fun self => ?_
  split
  · refine Code.steady_unwrap fun article => steady_assign (fun _ => rfl) ?_
    refine Code.steady_unwrap fun url => ⟨fun image => ?_, trivial⟩
    exact steady_assign (fun _ => rfl) trivial
  · trivial

theorem steady_didSelectRowAt {row : Nat} :
    (didSelectRowAt row : Handler rules).Steady unframed := by
  refine steady_this fun self => ?_
  split
  · exact Code.steady_unwrap fun article => Code.steady_unwrap fun _ => trivial
  · trivial

theorem steady_handle (input : Input) :
    (handle input : Handler rules).Steady unframed := by
  cases input with
  | viewDidLoad decoded => cases decoded <;> simp [handle, viewDidLoad, assign, Code.Steady]
  | cellForRowAt row cell => exact steady_cellForRowAt
  | didSelectRowAt row => exact steady_didSelectRowAt

theorem cellImage_sound (cell : Nat) : (cellImage rules cell).Sound where
  steady := steady_handle
  owner _ := Iff.rfl
  made _ pushed _ := pushed
  root _ _ := rfl
  input past start owns := by
    obtain ⟨⟨serial, self, input, screen⟩, trail⟩ := past
    cases input with
    | viewDidLoad decoded => cases decoded <;> exact ⟨fun _ held => held, trivial⟩
    | cellForRowAt row bound =>
        simp only [Code.Ends, Slot.Respects, handle, cellForRowAt, this, Controller.ofScreen]
        split
        · refine ⟨fun _ held => Slot.ends_unwrap fun article _ =>
              Slot.ends_unwrap fun url _ => ?_,
            Slot.respects_unwrap fun article _ => Slot.respects_unwrap fun url _ =>
              ⟨fun image target same => ⟨?_, trivial⟩, trivial⟩⟩
          · refine .trans (imageIn_modifyCell ?_ ?_) held
            all_goals intros; rfl
          · rintro _ rfl
            refine .trans (imageIn_modifyCell_image ?_ ?_) (Postings.getD_written image _)
            all_goals intros; rfl
        · exact ⟨fun _ held => held, trivial⟩
    | didSelectRowAt row =>
        simp only [Code.Ends, Slot.Respects, handle, didSelectRowAt, this, Controller.ofScreen]
        split
        · exact ⟨fun _ held => Slot.ends_unwrap fun article _ => Slot.ends_unwrap fun _ _ => held,
            Slot.respects_unwrap fun article _ => Slot.respects_unwrap fun _ _ => trivial⟩
        · exact ⟨fun _ held => held, trivial⟩

/-- The only operation of a binding is the load of the picture of its article. -/
def LoadsRow (past : Past (app rules)) (request : Request rules) : Prop :=
  past.trail = [] ∧ ∃ row cell article url, past.entry.input = .cellForRowAt row cell ∧
    past.entry.object.articles[row]? = some article ∧
    URL.ofString rules article.urlToImage = some url ∧ request = .loadFrom url

/-- The table shows its articles and loads nothing but the pictures of its rows. -/
def bindings (rules : URLRules) (service : Service (remote rules)) :
    Contract (app rules) service where
  Evolves _ _ := True
  Server _ := True
  Object _ screen := screen.table = screen.articles
  Request _ past request := LoadsRow past request
  Response _ _ _ _ := True
  Fault _ := True
  InputGuard _ _ := True
  ServeGuard _ _ _ _ := True
  ReplyGuard _ _ _ _ := True

theorem bindings_sound (rules : URLRules) (service : Service (remote rules)) :
    (bindings rules service).Sound where
  refl _ := trivial
  trans _ _ := trivial
  object _ inStep := inStep
  request _ loads := loads
  response _ _ := trivial
  root _ _ _ := rfl
  input server past _ _ _ inStep _ began shown start := by
    obtain ⟨⟨serial, self, input, screen⟩, trail⟩ := past
    cases began
    cases shown
    cases start
    cases input with
    | viewDidLoad decoded =>
        cases decoded with
        | none => trivial
        | some articles => exact ⟨rfl, trivial⟩
    | cellForRowAt row cell =>
        simp only [Contract.Safe, handle, cellForRowAt, this, Controller.ofScreen]
        split
        · refine Contract.safe_unwrap.mpr ⟨fun _ => trivial, fun article found => ⟨inStep, ?_⟩⟩
          refine Contract.safe_unwrap.mpr ⟨fun _ => trivial, fun url parsed => ?_⟩
          exact ⟨⟨rfl, row, cell, article, url, rfl, found, parsed, rfl⟩,
            fun _ image target _ _ _ inStep _ => ⟨inStep, trivial⟩, trivial⟩
        · trivial
    | didSelectRowAt row =>
        simp only [Contract.Safe, handle, didSelectRowAt, this, Controller.ofScreen]
        split
        · exact Contract.safe_unwrap.mpr ⟨fun _ => trivial, fun article _ =>
            Contract.safe_unwrap.mpr ⟨fun _ => trivial, fun _ _ => trivial⟩⟩
        · trivial
  serve _ _ _ _ := ⟨trivial, trivial, trivial⟩

section Runs

variable {server : service.State} {world : World (app rules) service}

theorem bindings_of_reaches {test : World (app rules) service → Event (app rules) service → Bool}
    (reached : (World.machine (app rules) service).Reaches test (.initial _ server) world) :
    (bindings rules service).Holds world := by
  refine Contract.Holds.reachable (bindings_sound rules service)
    (Contract.holds_initial trivial) (reached.weaken fun state event _ => ?_)
  cases event <;> simp [Contract.guard, bindings]

/-- A binding of a row starts the load of its picture, unless that has no URL. -/
theorem operates_of_binding {row cell : Nat} {screen : NewsTable} {article : Article}
    (inStep : screen.table = screen.articles) (listed : screen.articles[row]? = some article) :
    ((app rules).handler (.cellForRowAt row cell)).Operates screen := by
  have displayed : row < screen.table.length := by
    rw [inStep]
    exact (List.getElem?_eq_some_iff.mp listed).1
  simp only [Code.Operates, handle, cellForRowAt, this, Controller.ofScreen, displayed, if_true,
    listed, Code.unwrap_some]
  exact Code.operates_unwrap fun url => trivial

/-- In every news table, a cell without an outstanding image load shows what the load of
the article it was bound to last has delivered. -/
structure ShowsOwnPictures (world : World (app rules) service) : Prop where
  /-- The load with the newest binding is the one that is shown. -/
  shown : ∀ (index process cell : Nat) (screen : NewsTable) (past : Past (app rules)),
    world.objects[index]? = some ⟨process, screen⟩ → world.crashed process = false →
    Idle cellGroup (index, cell) world → Newest cellGroup (index, cell) world past →
    ∃ row article url image, past.entry.input = .cellForRowAt row cell ∧
      past.entry.object.articles[row]? = some article ∧
      URL.ofString rules article.urlToImage = some url ∧
      (past, (⟨.loadFrom url, (image : Option UIImage)⟩ : Exchange (remote rules))) ∈
        world.acknowledged ∧
      imageIn NewsCell.newsImage screen.cells cell = image
  /-- Binding a cell to a row makes the load of that row the newest one, unless it stops the
  process. -/
  bound : ∀ (index process row cell : Nat) (screen : NewsTable) (article : Article)
      (next : World (app rules) service),
    world.objects[index]? = some ⟨process, screen⟩ → screen.articles[row]? = some article →
    world.step (.input index (.cellForRowAt row cell)) = some next →
    next.crashed process = true ∨ Newest cellGroup (index, cell) next
      ⟨⟨world.clock, index, .cellForRowAt row cell, screen⟩, []⟩

theorem showsOwnPictures_of_reaches
    (reached : (World.machine (app rules) service).Reaches (endsNewest cellGroup)
      (.initial _ server) world) : ShowsOwnPictures world where
  shown index process cell screen past placed runs idle binding := by
    have loads := (bindings_of_reaches reached).acknowledged
    have delivers : ∀ handled ∈ world.acknowledged, boundCell handled.1.entry = some cell →
        (Postings.loadedImage handled.2).isSome = true := by
      rintro ⟨other, request, response⟩ old _
      obtain ⟨_, _, _, _, _, _, _, _, rfl⟩ := loads _ old
      rfl
    obtain ⟨⟨request, response⟩, image, member, delivered, shows⟩ :=
      holds_of_newest (cellImage_sound cell) (fun _ _ => rfl) reached delivers placed trivial runs
        idle binding
    have load : LoadsRow past request := loads _ member
    obtain ⟨_, row, bound, article, url, input, found, parsed, rfl⟩ := load
    cases delivered
    have same : bound = cell := by
      simpa [boundCell, input] using (binds_of_cellOf binding.grouped).2
    exact ⟨row, article, url, _, same ▸ input, found, parsed, member, shows⟩
  bound index process row cell screen article next placed listed taken :=
    newest_of_binding (clocked_of_reachable reached) placed rfl
      (operates_of_binding ((bindings_of_reaches reached).objects _ (List.mem_of_getElem? placed))
        listed) taken

end Runs

end News

/-- While the last outstanding load of a cell to complete is that of its newest binding,
every cell of the four tables shows the picture of the row it is bound to. -/
theorem rows_show_own_pictures (rules : URLRules) (service : Service (remote rules))
    (server : service.State) :
    (∀ world : World (Postings.app rules) service,
      (World.machine (Postings.app rules) service).Reaches (endsNewest Postings.cellGroup)
        (.initial _ server) world → Postings.ShowsOwnPictures world) ∧
    ∀ world : World (News.app rules) service,
      (World.machine (News.app rules) service).Reaches (endsNewest News.cellGroup)
        (.initial _ server) world → News.ShowsOwnPictures world :=
  ⟨fun _ reached => Postings.showsOwnPictures_of_reaches reached,
    fun _ reached => News.showsOwnPictures_of_reaches reached⟩

section Schedules

open Postings

/-- The pictures of two postings. -/
def sweeping : UIImage := ⟨"sweeping", true⟩

def painting : UIImage := ⟨"painting", true⟩

/-- Screen 0 publishes the posting of its form with this picture. -/
def publishingPicture (image : UIImage) (document : String) (url : URL anyText) :
    List (Event (Postings.app anyText) (firebase anyText)) :=
  [.input 0 (.pick image), .input 0 (.uploadButton (some alice)), .serve 0 (.name document),
    .reply 0, .serve 0 (.token url), .reply 0, .serve 0 .ok, .reply 0, .serve 0 .ok, .reply 0,
    .serve 0 .ok, .reply 0]

/-- Screen 1 lists two postings and binds its cell 0 to the first row and then to the
second one; both pictures are being loaded. -/
def rebinding : List (Event (Postings.app anyText) (firebase anyText)) :=
  [.launch 0 .upload, .input 0 (.editTexts form), .input 0 (.selectSegment 0)] ++
    publishingPicture sweeping "d1" firstURL ++ publishingPicture painting "d2" secondURL ++
    [.launch 1 .market, .input 1 .viewDidLoad, .serve 0 .ok, .reply 0,
      .input 1 (.cellForRowAt 0 0), .input 1 (.cellForRowAt 1 0)]

/-- Nothing is outstanding, cell 0 of the running market place on screen 1 shows this
picture, and the load of its newest binding has delivered the second one. -/
def cellShows (image : UIImage) (world : PostingsWorld anyText) : Bool :=
  match (world.objects[1]? : Option (Instance (Postings.app anyText))) with
  | some ⟨1, .market self⟩ =>
      !world.crashed 1 && world.pending.isEmpty &&
        (Screen.market self).cellImage 0 == some image &&
        world.acknowledged.any fun newest =>
          Postings.cellGroup newest.1 == some (1, 0) &&
            world.acknowledged.all fun other => Postings.cellGroup other.1 != some (1, 0) ||
              decide (other.1.entry.serial < newest.1.entry.serial) ||
              (other.1.entry.serial == newest.1.entry.serial &&
                loadedImage other.2 == some (some painting))
  | _ => false

/-- A cell of the news table is bound to one row after the other. -/
def newsBinding : List (Event (News.app anyText) (firebase anyText)) :=
  [.launch 0 (), .input 0 (.viewDidLoad (some [⟨"News", "n1", "n1"⟩, ⟨"More", "n2", "n2"⟩])),
    .input 0 (.cellForRowAt 0 0), .input 0 (.cellForRowAt 1 0), .serve 0 .fail, .reply 0,
    .serve 0 .fail, .reply 0]

/-- The loads of a reused cell complete in order. -/
theorem rows_show_own_pictures_in_order :
    (∃ world, (system anyText).Reaches (endsNewest Postings.cellGroup) (start anyText) world ∧
      cellShows painting world = true ∧ Postings.ShowsOwnPictures world) ∧
    ∃ world, (World.machine (News.app anyText) (firebase anyText)).Reaches
        (endsNewest News.cellGroup) (.initial _ (.empty anyText)) world ∧
      world.acknowledged.length == 2 ∧ News.ShowsOwnPictures world := by
  constructor
  · obtain ⟨world, reached, shown⟩ := Machine.exists_reaches (m := system anyText)
      (endsNewest Postings.cellGroup) (start anyText)
      (rebinding ++ [.serve 0 (.image sweeping), .reply 0, .serve 0 (.image painting), .reply 0])
      (cellShows painting) (by decide +kernel)
    exact ⟨world, reached, shown, (rows_show_own_pictures _ _ _).1 world reached⟩
  · obtain ⟨world, reached, loaded⟩ := Machine.exists_reaches
      (m := World.machine (News.app anyText) (firebase anyText)) (endsNewest News.cellGroup)
      (.initial _ (.empty anyText)) newsBinding (fun world => world.acknowledged.length == 2)
      (by decide +kernel)
    exact ⟨world, reached, loaded, (rows_show_own_pictures _ _ _).2 world reached⟩

/-- The load of the first row completes after that of the row the cell is bound to. -/
theorem row_shows_other_picture :
    ¬ ((∀ (rules : URLRules) (service : Service (remote rules)) (server : service.State)
          (world : World (Postings.app rules) service),
        (World.machine (Postings.app rules) service).Reaches (Machine.anyStep _)
          (.initial _ server) world → Postings.ShowsOwnPictures world) ∧
      ∀ (rules : URLRules) (service : Service (remote rules)) (server : service.State)
          (world : World (News.app rules) service),
        (World.machine (News.app rules) service).Reaches (Machine.anyStep _)
          (.initial _ server) world → News.ShowsOwnPictures world) := by
  rintro ⟨shows, -⟩
  obtain ⟨world, reached, shown⟩ := Machine.exists_reaches (m := system anyText)
    (Machine.anyStep _) (start anyText)
    (rebinding ++ [.serve 1 (.image painting), .reply 1, .serve 0 (.image sweeping), .reply 0])
    (cellShows sweeping) (by decide +kernel)
  have own := shows _ _ _ world reached
  unfold cellShows at shown
  split at shown
  · rename_i self placed
    simp only [Bool.and_eq_true, Bool.not_eq_true', List.isEmpty_iff, beq_iff_eq] at shown
    obtain ⟨⟨⟨runs, idle⟩, image⟩, newest⟩ := shown
    obtain ⟨⟨past, exchange⟩, member, listed⟩ := List.any_eq_true.mp newest
    simp only [Bool.and_eq_true, beq_iff_eq] at listed
    obtain ⟨grouped, others⟩ := listed
    have latest : Newest Postings.cellGroup (1, 0) world past := by
      refine ⟨.handled member, grouped, fun other occurs same => ?_⟩
      cases occurs with
      | outstanding outstanding => rw [idle] at outstanding; cases outstanding
      | handled old =>
          have bound := List.all_eq_true.mp others _ old
          simp only [same, bne_self_eq_false, Bool.false_or, Bool.or_eq_true,
            decide_eq_true_eq, Bool.and_eq_true, beq_iff_eq] at bound
          omega
    have nothing : Idle Postings.cellGroup (1, 0) world := by
      intro pending outstanding
      rw [idle] at outstanding
      cases outstanding
    obtain ⟨row, text, url, delivered, _, _, _, loaded, shown⟩ :=
      own.shown 1 1 0 (.market self) past placed trivial runs nothing latest
    have second := List.all_eq_true.mp others _ loaded
    simp [grouped, loadedImage] at second
    rw [image, second] at shown
    revert shown
    decide
  · cases shown

end Schedules

end Gbc
