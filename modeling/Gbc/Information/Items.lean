import Gbc.Information.Detail
import Gbc.Market.Authenticity
import Gbc.Platform.Moments

/-!
# Information items are what was submitted

The information collection is append-only: an item keeps the texts that it was submitted
with, no write removes it, and the picture that it links to was uploaded in the flow of its
own submission. The list shows nothing else.
-/

namespace Gbc

open Callback Handler World

variable {rules : URLRules}

namespace Postings

/-- The item was entered in this press of Submit, and it is stored under this ID. -/
structure Entered (world : PostingsWorld rules) (document : String) (entry : Entry (app rules))
    (form : AddInfoViewController) : Prop where
  began : entry.object = .addInfo form
  pressed : entry.input = .submitInfoButton
  answered : world.Answered ⟨entry, []⟩
    ⟨.addDocument .infoUpload form.item, (some document : Option String)⟩

/-- The picture was uploaded for this item, in a flow that began with this press. -/
structure Illustrates (world : PostingsWorld rules) (document : String)
    (entry : Entry (app rules)) (object : StoredObject rules) : Prop where
  path : object.path = "Uploads/" ++ document
  version : world.server.version object.url = some object
  uploaded : ∃ trail, world.Answered ⟨entry, trail⟩ ⟨.putData object.path object.data, true⟩

/-- The writes to the information collection. -/
inductive ItemWrite (world : PostingsWorld rules) : Write → Prop where
  | entered {document : String} {entry : Entry (app rules)} {form : AddInfoViewController}
      (entered : Entered world document entry form) : ItemWrite world (.add document form.item)
  | illustrated {document : String} {entry : Entry (app rules)} {form : AddInfoViewController}
      {object : StoredObject rules} (entered : Entered world document entry form)
      (illustrates : Illustrates world document entry object) :
      ItemWrite world (.set document [("Image", object.url.string)] true)

section Writes

variable {world : PostingsWorld rules} {document : String} {write : Write}
  {entry : Entry (app rules)} {form : AddInfoViewController}

/-- An item was entered once. -/
theorem Entered.unique (ledger : Ledger world) {entry' : Entry (app rules)}
    {form' : AddInfoViewController} (entered : Entered world document entry form)
    (entered' : Entered world document entry' form') : entry = entry' ∧ form = form' := by
  obtain ⟨same, -⟩ := ledger.owner entered.answered entered'.answered
  cases same
  cases entered.began.symm.trans entered'.began
  exact ⟨rfl, rfl⟩

/-- The ID of an item is that of no posting. -/
theorem Entered.not_created (ledger : Ledger world) (entered : Entered world document entry form)
    {uid : String} (created : CreatedBy world.server document uid) : False := by
  obtain ⟨posting, user, -, added⟩ := created
  obtain ⟨other, answered⟩ := ledger.accounted added
  have same := (ledger.owner answered entered.answered).2
  have users := congrArg (Fields.value "User") same
  simp [Fields.value, UploadMarketPlaceViewController.posting, AddInfoViewController.item] at users

/-- Pictures of an item are uploaded in the flow that entered it. -/
theorem Entered.entry_of_pictures
    (reached : (system rules).Reaches (system rules).anyStep (start rules) world)
    (entered : Entered world document entry form) {past : Past (app rules)}
    {collection : CollectionName} {image : UIImage} (occurs : world.Occurs past)
    (pictures : Pictures False past collection document image) : past.entry = entry := by
  have ledger := ledger_of_reachable reached
  have traced := traced_of_reachable reached
  cases pictures with
  | posted began pressed =>
      exact (entered.not_created ledger (createdBy_of_handled ledger traced occurs)).elim
  | @informed entry' form' _ _ began pressed =>
      have answered : world.Answered ⟨entry', []⟩ _ := .handled (traced _ _ _ occurs)
      exact (Entered.unique ledger ⟨began, pressed, answered⟩ entered).1
  | @updated entry' screen _ began pressed complete =>
      have added := ledger.added entered.answered
      have named := addsNamed_of_reachable reached _ _ _ added
      have own := updatesOwn_of_reaches reached _ occurs screen began named
      exact (entered.not_created ledger own).elim

/-- Every write to the information collection is that of a submission. -/
theorem itemWrite_of_mem
    (reached : (system rules).Reaches (system rules).anyStep (start rules) world)
    (written : (.infoUpload, write) ∈ world.server.journal) : ItemWrite world write := by
  have ledger := ledger_of_reachable reached
  have traced := traced_of_reachable reached
  have origins := origins_of_reaches reached
  obtain ⟨past, ⟨request, response⟩, answered, writes⟩ := exists_applied ledger written
  have occurs := answered.occurs
  cases origins.answered answered with
  | inform began pressed =>
      obtain ⟨name, rfl, same⟩ := Option.map_eq_some_iff.mp writes
      cases same
      exact .entered ⟨began, pressed, answered⟩
  | @link past collection target image data url pictures encoded =>
      cases response <;> cases writes
      have located := traced _ _ _ occurs
      obtain ⟨object, stored, path, rfl⟩ := ledger.located (.handled located)
      obtain ⟨uploading, uploaded⟩ := ledger.uploaded stored
      obtain ⟨_, target', _, pictures', same, -⟩ := pictures_of_putData (origins.answered uploaded)
      obtain rfl : target = target' := by simpa using path.symm.trans same
      cases pictures with
      | @informed entry form document image began pressed =>
          have added := traced _ _ _ (occurs_older traced (occurs_older traced occurs))
          have entered : Entered world target entry form := ⟨began, pressed, .handled added⟩
          have own := entered.entry_of_pictures reached uploaded.occurs pictures'
          refine .illustrated entered ⟨path, ledger.version stored, uploading.trail, ?_⟩
          rw [← own]
          exact uploaded
  | refer => cases response <;> cases writes
  | update => cases response <;> cases writes
  | delete => cases response <;> cases writes
  | post => obtain ⟨name, rfl, same⟩ := Option.map_eq_some_iff.mp writes; cases same
  | _ => cases writes

end Writes

section Stored

variable {world : PostingsWorld rules} {document : String} {data : Doc}
  {moment : List (CollectionName × Write)} {entry : Entry (app rules)}
  {form : AddInfoViewController}

/-- A stored item was entered, before the moment at which it is stored. -/
theorem exists_entered
    (reached : (system rules).Reaches (system rules).anyStep (start rules) world)
    (past : moment <:+ world.server.journal)
    (found : (Server.replay .infoUpload moment)[document]? = some data) :
    ∃ entry form, Entered world document entry form ∧
      (.infoUpload, .add document form.item) ∈ moment := by
  have ledger := ledger_of_reachable reached
  obtain ⟨write, member, aimed⟩ := Server.exists_write_of_replay found
  obtain ⟨entry, form, entered⟩ : ∃ entry form, Entered world document entry form := by
    cases itemWrite_of_mem reached (past.mem member) with
    | entered entered =>
        obtain rfl := aimed
        exact ⟨_, _, entered⟩
    | illustrated entered illustrates =>
        obtain rfl := aimed
        exact ⟨_, _, entered⟩
  refine ⟨entry, form, entered, ?_⟩
  obtain ⟨newer, journal⟩ := past
  have added := ledger.added entered.answered
  have fresh := ledger.fresh
  rw [← journal] at added fresh
  rcases List.mem_append.mp added with later | earlier
  · -- A document is added under a name that no older write is addressed to.
    have apart := (List.pairwise_append.mp fresh).2.2 _ later _ member
    exact absurd aimed (apart document form.item rfl)
  · exact earlier

/-- A stored item has the texts that it was entered with. -/
theorem texts_of_replay
    (reached : (system rules).Reaches (system rules).anyStep (start rules) world)
    (entered : Entered world document entry form) (past : moment <:+ world.server.journal)
    (added : (.infoUpload, .add document form.item) ∈ moment) {key : String}
    (text : key ≠ "Image") :
    ∃ data, (Server.replay .infoUpload moment)[document]? = some data ∧
      data[key]? = Fields.value key form.item := by
  have ledger := ledger_of_reachable reached
  refine Server.exists_getElem?_replay added ?_ ?_ ?_
  · intro data member
    obtain ⟨other, answered⟩ := ledger.accounted (past.mem member)
    rw [(ledger.owner answered entered.answered).2]
  · intro data merge member
    cases itemWrite_of_mem reached (past.mem member) with
    | illustrated => exact ⟨rfl, by simp [Fields.value, Ne.symm text]⟩
  · intro member
    cases itemWrite_of_mem reached (past.mem member)

/-- The picture that a stored item links to was uploaded for it. -/
theorem picture_of_replay
    (reached : (system rules).Reaches (system rules).anyStep (start rules) world)
    (entered : Entered world document entry form) (past : moment <:+ world.server.journal)
    (found : (Server.replay .infoUpload moment)[document]? = some data) {image : String}
    (links : data["Image"]? = some image) :
    ∃ object, image = object.url.string ∧ Illustrates world document entry object := by
  have ledger := ledger_of_reachable reached
  rcases Server.written_of_replay found links with
    ⟨fields, member, named⟩ | ⟨fields, merge, member, named⟩
  · cases itemWrite_of_mem reached (past.mem member) with
    | entered => simp [Fields.value, AddInfoViewController.item] at named
  · cases itemWrite_of_mem reached (past.mem member) with
    | @illustrated _ other form' object entered' illustrates =>
        obtain ⟨rfl, -⟩ := Entered.unique ledger entered' entered
        exact ⟨object, by simpa [Fields.value] using named.symm, illustrates⟩

/-- The item is shown as it was entered: with its texts, and with a picture that was
uploaded for it or none. -/
structure ShownAsEntered (world : PostingsWorld rules) (item : Info) (document : String)
    (entry : Entry (app rules)) (form : AddInfoViewController) : Prop where
  entered : Entered world document entry form
  title : item.info = form.titleInfo
  description : item.title = form.infoView
  picture : item.uImage = "" ∨
    ∃ object, item.uImage = object.url.string ∧ Illustrates world document entry object

/-- In every run, each row of an information list shows one submission. -/
theorem items_show_submissions
    (reached : (system rules).Reaches (system rules).anyStep (start rules) world) :
    ∀ target ∈ world.objects, ∀ self : InformationViewController, target.object = .info self →
      ∀ item ∈ self.infoArray, ∃ document entry form,
        ShownAsEntered world item document entry form := by
  intro target placed self same item member
  have shows : Shows world.server (.info self) :=
    same ▸ (showing_of_reaches reached).objects target placed
  obtain ⟨moment, document, data, past, found, rfl⟩ := shows item member
  obtain ⟨entry, form, entered, added⟩ := exists_entered reached past found
  have text : ∀ key value, key ≠ "Image" → Fields.value key form.item = some value →
      data.text key = value := by
    intro key value other given
    obtain ⟨stored, found', present⟩ := texts_of_replay reached entered past added other
    obtain rfl := Option.some.inj (found.symm.trans found')
    exact Doc.text_of_getElem? (present.trans given)
  refine ⟨document, entry, form, entered, ?_, ?_, ?_⟩
  · exact text "Title-Info" form.titleInfo (by decide) (by simp [Fields.value,
      AddInfoViewController.item])
  · exact text "Description" form.infoView (by decide) (by simp [Fields.value,
      AddInfoViewController.item])
  · cases links : data["Image"]? with
    | none => exact .inl (by simp [Info.ofData, Doc.text, links])
    | some image =>
        obtain ⟨object, rfl, illustrates⟩ := picture_of_replay reached entered past found links
        exact .inr ⟨object, Doc.text_of_getElem? links, illustrates⟩

/-- In every run, an information item that is stored stays stored, with all of its fields
but the link to its picture as they are. -/
theorem items_are_kept {before : PostingsWorld rules}
    (began : (system rules).Reaches (system rules).anyStep (start rules) before)
    (reached : (system rules).Reaches (system rules).anyStep before world)
    (stored : (before.server.documents .infoUpload)[document]? = some data) :
    ∃ later, (world.server.documents .infoUpload)[document]? = some later ∧
      ∀ key, key ≠ "Image" → later[key]? = data[key]? := by
  have whole := began.trans reached
  have suffix := (loadsHeld_of_reachable reached).suffix
  obtain ⟨entry, form, entered, added⟩ := exists_entered whole suffix stored
  have kept : ∀ key, key ≠ "Image" → ∃ later,
      (world.server.documents .infoUpload)[document]? = some later ∧ later[key]? = data[key]? := by
    intro key text
    obtain ⟨same, found, present⟩ := texts_of_replay whole entered suffix added text
    obtain rfl := Option.some.inj (stored.symm.trans found)
    obtain ⟨later, found', present'⟩ :=
      texts_of_replay whole entered (List.suffix_refl _) (suffix.mem added) text
    exact ⟨later, found', present'.trans present.symm⟩
  obtain ⟨later, found, -⟩ := kept "Title-Info" (by decide)
  refine ⟨later, found, fun key text => ?_⟩
  obtain ⟨later', found', same⟩ := kept key text
  obtain rfl := Option.some.inj (found.symm.trans found')
  exact same

end Stored

section Schedules

/-- Two items are published and listed. -/
theorem items_show_submissions_listed :
    ∃ (world : PostingsWorld anyText) (item : Info) (document : String)
      (entry : Entry (app anyText)) (form : AddInfoViewController),
      (system anyText).Reaches (system anyText).anyStep (start anyText) world ∧
      ShownAsEntered world item document entry form := by
  obtain ⟨world, self, reached, placed, runs, rows, -⟩ := exists_listed
  have same : self.table = self.infoArray :=
    (tables_of_reaches reached).objects _ (List.mem_of_getElem? placed)
  rw [same] at rows
  have bound : 0 < self.infoArray.length := by omega
  obtain ⟨document, entry, form, shown⟩ := items_show_submissions reached _
    (List.mem_of_getElem? placed) self rfl self.infoArray[0] (List.getElem_mem bound)
  exact ⟨world, _, document, entry, form, reached, shown⟩

/-- The first item is stored. -/
def firstStored (before _ : PostingsWorld anyText) : Bool :=
  ((before.server.documents .infoUpload)["i1"]?).isSome

/-- The first item is stored and stays stored while the second one is published. -/
theorem items_are_kept_second :
    ∃ before world data later,
      (system anyText).Reaches (system anyText).anyStep (start anyText) before ∧
      (system anyText).Reaches (system anyText).anyStep before world ∧
      (before.server.documents .infoUpload)["i1"]? = some data ∧
      (world.server.documents .infoUpload)["i1"]? = some later ∧
      ∀ key, key ≠ "Image" → later[key]? = data[key]? := by
  obtain ⟨before, world, began, reached, shown⟩ := Machine.exists_reaches_later
    (m := system anyText) (system anyText).anyStep (start anyText)
    ([.launch 0 .addInfo] ++ publishingItem "Health" health "i1" firstURL)
    (publishingItem "Housing" housing "i2" secondURL) firstStored (by decide +kernel)
  obtain ⟨data, stored⟩ := Option.isSome_iff_exists.mp shown
  obtain ⟨later, found, same⟩ := items_are_kept began reached stored
  exact ⟨before, world, data, later, began, reached, stored, found, same⟩

end Schedules

end Postings

end Gbc
