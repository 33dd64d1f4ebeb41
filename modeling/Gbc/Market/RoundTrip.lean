import Mathlib.Data.List.Nodup
import Gbc.Market.Postings
import Gbc.Market.Submission

/-!
# Postings through the document format

A posting is spread over three writes of its form and over the merges of Update, and
three screens read it back with decoders of their own. `Records` is what the writes
leave in the document, in whatever order the merges are applied; `RoundTrips` is what
the screens make of a snapshot with that document.
-/

namespace Gbc

open Callback Handler World

variable {rules : URLRules}

namespace Postings

/-- The two categories of postings. -/
inductive Category where
  | job
  | rental

namespace Category

/-- What stands for the category in a document. -/
def title : Category → String
  | job => "Job"
  | rental => "Rental"

/-- The segment of the category in the two posting forms. -/
def segment : Category → Int
  | job => 0
  | rental => 1

/-- The fields that both posting forms write. -/
def entered (category : Category) (texts : PostingTexts) : Fields :=
  [("Poster-Name", texts.posterName),
   ("Title", category.title),
   ("Location", texts.location),
   ("Amount", texts.amount),
   ("Description", texts.uploadDesc),
   ("Mobile-Number", texts.mobileNumber)]

/-- The posting that a reader should decode. -/
def posting (category : Category) (texts : PostingTexts) (user : User) (image document : String) :
    Upload where
  amount := texts.amount
  loc := texts.location
  title := category.title
  pName := texts.posterName
  desc := texts.uploadDesc
  uimage := image
  mNumber := texts.mobileNumber
  user := user.uid
  refNo := document

end Category

/-- Whenever a load of these documents is completed by `decoder`, it turns `screen` into
`shown` and does not trap. -/
def Decodes (rules : URLRules) (decoder : Option Snapshot → Handler rules)
    (documents : Snapshot) (screen shown : Screen) : Prop :=
  ∀ (world next : PostingsWorld rules) (index self process : Nat) (past : Past (app rules)),
    world.pending[index]? = some ⟨self, past, .getDocuments .upload, decoder,
      some (some documents : Option Snapshot)⟩ →
    world.objects[self]? = some ⟨process, screen⟩ → world.step (.reply index) = some next →
    next.objects[self]? = some ⟨process, shown⟩ ∧ next.faults = world.faults

/-- The three readers show a posting as it was entered. -/
structure RoundTrips (documents : Snapshot) (category : Category) (texts : PostingTexts)
    (user : User) (image : URL rules) (document : String) : Prop where
  /-- The market place lists exactly one posting with this ID, and a Manage list has
  those postings of the market place that belong to its user. -/
  lists : ∀ (market : MarketPlaceViewController) (manage : ManagePostingsViewController),
    ∃ (market' : MarketPlaceViewController) (manage' : ManagePostingsViewController),
      Decodes rules MarketPlaceViewController.documentsLoaded documents
        (.market market) (.market market') ∧
      Decodes rules ManagePostingsViewController.documentsLoaded documents
        (.manage manage) (.manage manage') ∧
      market'.postingArray = market'.uploadArray ∧
      (market'.uploadArray.filter fun upload => upload.refNo == document) =
        [category.posting texts user image.string document] ∧
      manage'.manaageArray =
        market'.uploadArray.filter fun upload => upload.user == manage.currentUser.uid
  /-- An update screen that is opened for the posting shows its texts and its category. -/
  update : ∀ screen : UpdatePostingsViewController, screen.docPath = document →
    ∃ shown : UpdatePostingsViewController,
      Decodes rules UpdatePostingsViewController.documentsLoaded documents
        (.update screen) (.update shown) ∧
      shown.texts = texts ∧ shown.segmentControl = category.segment

/-- All operations of a posting flow have succeeded. -/
structure Published (world : PostingsWorld rules) (press : Entry (app rules))
    (form : UploadMarketPlaceViewController) (user : User) (document : String)
    (url : URL rules) : Prop where
  began : press.object = .upload form
  pressed : press.input = .uploadButton (some user)
  added : world.Answered ⟨press, []⟩
    ⟨.addDocument .upload (form.posting user), (some document : Option String)⟩
  referred : world.Answered
    (Past.answered ⟨press, []⟩ (.addDocument .upload (form.posting user))
      (some document : Option String))
    ⟨.setData .upload document [("Ref", document)] true, true⟩
  linked : ∃ picture, world.Answered
    (afterLookup (Past.answered ⟨press, []⟩ (.addDocument .upload (form.posting user))
      (some document : Option String)) document picture url)
    ⟨.setData .upload document [("Image", url.string)] true, true⟩

/-- Nothing else than the writes of its posting flow has been applied to a document. -/
def Undisturbed (server : Server rules) (document : String) (data : Fields) (url : URL rules) :
    Prop :=
  ∀ write, (CollectionName.upload, write) ∈ server.journal → write.document = document →
    write = .add document data ∨ write = .set document [("Ref", document)] true ∨
      write = .set document [("Image", url.string)] true

/-- An Update of a posting that is still there has been acknowledged, and since it was
applied only pictures have been linked to the document. -/
structure Updated (world : PostingsWorld rules) (press : Entry (app rules))
    (screen : UpdatePostingsViewController) (document : String) : Prop where
  began : press.object = .update screen
  pressed : press.input = .updateButton
  addressed : screen.docPath = document
  acknowledged : world.Answered ⟨press, []⟩
    ⟨.setData .upload document screen.changes true, true⟩
  latest : ∃ newer older, world.server.journal =
      newer ++ (.upload, .set document screen.changes true) :: older ∧
    ∀ write, (CollectionName.upload, write) ∈ newer → write.document = document →
      ∃ url : URL rules, write = .set document [("Image", url.string)] true
  kept : (CollectionName.upload, Write.delete document) ∉ world.server.journal

section Writes

variable {category : Category} {document : String}

/-- The posting form writes what was entered and the poster. -/
theorem posting_eq {form : UploadMarketPlaceViewController} {user : User}
    (chosen : form.segment = category.segment) :
    form.posting user = category.entered form.texts ++ [("User", user.uid)] := by
  cases category <;>
    simp [UploadMarketPlaceViewController.posting, UploadMarketPlaceViewController.chosenTitle,
      chosen, Category.entered, Category.segment, Category.title]

/-- The update form writes what was entered. -/
theorem changes_eq {screen : UpdatePostingsViewController}
    (chosen : screen.segmentControl = category.segment) :
    screen.changes = category.entered screen.texts := by
  cases category <;>
    simp [UpdatePostingsViewController.changes, UpdatePostingsViewController.chosenTitle, chosen,
      Category.entered, Category.segment, Category.title]

/-- What is entered names neither the poster nor the document nor its picture. -/
theorem Category.other_of_entered {texts : PostingTexts} {key value : String}
    (entered : Fields.value key (category.entered texts) = some value) :
    key ≠ "User" ∧ key ≠ "Ref" ∧ key ≠ "Image" := by
  refine ⟨?_, ?_, ?_⟩ <;>
  · rintro rfl
    simp [Category.entered, Fields.value] at entered

/-- What may be merged into the document of a posting. -/
inductive Merges (rules : URLRules) (document : String) : Fields → Prop where
  | refers : Merges rules document [("Ref", document)]
  | links (url : URL rules) : Merges rules document [("Image", url.string)]
  | changes (screen : UpdatePostingsViewController) : Merges rules document screen.changes

/-- No merge names the poster. -/
theorem Merges.user {fields : Fields} (merges : Merges rules document fields) :
    Fields.value "User" fields = none := by
  cases merges <;> rfl

/-- A merge that names the document names it right. -/
theorem Merges.ref {fields : Fields} {ref : String} (merges : Merges rules document fields)
    (named : Fields.value "Ref" fields = some ref) : ref = document := by
  cases merges with
  | refers => simpa [Fields.value, eq_comm] using named
  | links url => simp [Fields.value] at named
  | changes screen => simp [Fields.value, UpdatePostingsViewController.changes] at named

/-- What every run accounts for. -/
structure Accounted (world : PostingsWorld rules) : Prop where
  origins : (origins rules False).Holds world
  ledger : Ledger world
  recorded : Recorded world
  server : ServerOk world.server

theorem accounted_of_reaches {world : PostingsWorld rules}
    (reached : (system rules).Reaches (system rules).anyStep (start rules) world) :
    Accounted world where
  origins := origins_of_reaches reached
  ledger := ledger_of_reachable reached
  recorded := recorded_of_reachable reached
  server := (holds_of_reaches reached).server

variable {world : PostingsWorld rules}

/-- Documents of the market place are only merged into. -/
theorem Accounted.merged (accounted : Accounted world) {fields : Fields} {merge : Bool}
    (written : (CollectionName.upload, Write.set document fields merge) ∈ world.server.journal) :
    merge = true ∧ Merges rules document fields := by
  obtain ⟨past, set⟩ := accounted.ledger.accounted written
  have origin := accounted.origins.answered set
  generalize named : CollectionName.upload = collection at origin
  cases origin with
  | refer => exact ⟨rfl, .refers⟩
  | update => exact ⟨rfl, .changes _⟩
  | link => exact ⟨rfl, .links _⟩

/-- No document is added under a name that has been written to. -/
theorem Accounted.not_added (accounted : Accounted world)
    {newer older : List (CollectionName × Write)} {write : Write}
    (split : world.server.journal = newer ++ (.upload, write) :: older) {data : Fields} :
    (CollectionName.upload, Write.add write.document data) ∉ newer := by
  intro later
  have fresh := accounted.ledger.fresh
  rw [split] at fresh
  have apart := (List.pairwise_append.mp fresh).2.2 _ later _ List.mem_cons_self
  exact apart _ _ rfl rfl

/-- While a document is not deleted, a field that was written to it stays there, with the
value of that write or of a merge. -/
theorem Accounted.value_of_written (accounted : Accounted world) (write : Write) (key : String)
    {value : String} (written : (CollectionName.upload, write) ∈ world.server.journal)
    (given : Fields.value key write.fields = some value)
    (kept : (CollectionName.upload, Write.delete write.document) ∉ world.server.journal) :
    ∃ data latest, (world.server.documents .upload)[write.document]? = some data ∧
      data[key]? = some latest ∧ (latest = value ∨
        ∃ fields, (CollectionName.upload, Write.set write.document fields true) ∈
            world.server.journal ∧ Fields.value key fields = some latest) := by
  obtain ⟨newer, older, split⟩ := List.append_of_mem written
  have member : ∀ entry ∈ newer, entry ∈ world.server.journal := fun entry later =>
    split ▸ List.mem_append_left _ later
  obtain ⟨data, latest, found, present, origin⟩ :=
    Server.exists_value_of_replay .upload newer older rfl given fun later listed addressed => by
        cases later with
        | add name data =>
            obtain rfl : name = write.document := addressed
            exact absurd listed (accounted.not_added split)
        | set name data merge =>
            obtain rfl : name = write.document := addressed
            obtain ⟨rfl, -⟩ := accounted.merged (member _ listed)
            exact ⟨data, rfl⟩
        | delete name =>
            obtain rfl : name = write.document := addressed
            exact absurd (member _ listed) kept
  refine ⟨data, latest, ?_, present, origin.imp_right fun ⟨fields, listed, named⟩ =>
    ⟨fields, member _ listed, named⟩⟩
  rw [Server.documents, split]
  exact found

/-- A document that holds a posting as it was entered. -/
structure Records (server : Server rules) (document : String) (category : Category)
    (texts : PostingTexts) (user : User) (image : URL rules) (data : Doc) : Prop where
  found : (server.documents .upload)[document]? = some data
  entered : ∀ key value, Fields.value key (category.entered texts) = some value →
    data[key]? = some value
  user : data["User"]? = some user.uid
  ref : data["Ref"]? = some document
  image : data["Image"]? = some image.string

variable {press : Entry (app rules)} {form : UploadMarketPlaceViewController} {user : User}
  {url : URL rules}

/-- The poster and the reference of a published document stay what they were. -/
theorem Published.identity (published : Published world press form user document url)
    (accounted : Accounted world)
    (kept : (CollectionName.upload, Write.delete document) ∉ world.server.journal) :
    ∃ data, (world.server.documents .upload)[document]? = some data ∧
      data["User"]? = some user.uid ∧ data["Ref"]? = some document := by
  obtain ⟨data, poster, found, named, origin⟩ := accounted.value_of_written
    (.add document (form.posting user)) "User" (accounted.ledger.added published.added) rfl kept
  obtain ⟨data', ref, found', referred, origin'⟩ := accounted.value_of_written
    (.set document [("Ref", document)] true) "Ref"
    (accounted.recorded _ _ _ _ _ published.referred) rfl kept
  obtain rfl : data = data' := Option.some.inj (found.symm.trans found')
  refine ⟨data, found, ?_, ?_⟩
  · rcases origin with rfl | ⟨fields, merged, given⟩
    · exact named
    · rw [(accounted.merged merged).2.user] at given
      cases given
  · rcases origin' with rfl | ⟨fields, merged, given⟩
    · exact referred
    · rw [(accounted.merged merged).2.ref given] at referred
      exact referred

/-- Until it is written again, a published document holds what was entered, and the link
to the uploaded picture. -/
theorem Published.records (published : Published world press form user document url)
    (accounted : Accounted world) (chosen : form.segment = category.segment)
    (undisturbed : Undisturbed world.server document (form.posting user) url) :
    ∃ data, Records world.server document category form.texts user url data := by
  have kept : (CollectionName.upload, Write.delete document) ∉ world.server.journal := by
    intro deleted
    rcases undisturbed _ deleted rfl with same | same | same <;> cases same
  -- Every merge of the flow names one field, which was not entered.
  have merged : ∀ fields, (CollectionName.upload, Write.set document fields true) ∈
      world.server.journal → fields = [("Ref", document)] ∨ fields = [("Image", url.string)] := by
    intro fields written
    rcases undisturbed _ written rfl with same | same | same
    · cases same
    · cases same
      exact .inl rfl
    · cases same
      exact .inr rfl
  obtain ⟨data, found, poster, ref⟩ := published.identity accounted kept
  obtain ⟨picture, linked⟩ := published.linked
  refine ⟨data, found, ?_, poster, ref, ?_⟩
  · intro key value entered
    obtain ⟨notUser, notRef, notImage⟩ := Category.other_of_entered entered
    have given : Fields.value key (form.posting user) = some value := by
      rw [posting_eq chosen, Fields.value_append, entered]
      simp [Fields.value, notUser.symm]
    obtain ⟨data', latest, found', present, origin⟩ := accounted.value_of_written
      (.add document (form.posting user)) key (accounted.ledger.added published.added) given kept
    obtain rfl : data = data' := Option.some.inj (found.symm.trans found')
    rcases origin with rfl | ⟨fields, written, named⟩
    · exact present
    · rcases merged fields written with rfl | rfl
      · simp [Fields.value, notRef.symm] at named
      · simp [Fields.value, notImage.symm] at named
  · obtain ⟨data', image, found', shown, origin⟩ := accounted.value_of_written
      (.set document [("Image", url.string)] true) "Image"
      (accounted.recorded _ _ _ _ _ linked) rfl kept
    obtain rfl : data = data' := Option.some.inj (found.symm.trans found')
    rcases origin with rfl | ⟨fields, written, given⟩
    · exact shown
    · rcases merged fields written with rfl | rfl
      · simp [Fields.value] at given
      · cases given
        exact shown

/-- Until it is written again, an updated document holds what was entered last, and the
link to some picture. -/
theorem Updated.records {update : Entry (app rules)} {screen : UpdatePostingsViewController}
    (updated : Updated world update screen document)
    (published : Published world press form user document url) (accounted : Accounted world)
    (chosen : screen.segmentControl = category.segment) :
    ∃ image data, Records world.server document category screen.texts user image data := by
  obtain ⟨data, found, poster, ref⟩ := published.identity accounted updated.kept
  obtain ⟨picture, linked⟩ := published.linked
  obtain ⟨data', image, found', shown, -⟩ := accounted.value_of_written
    (.set document [("Image", url.string)] true) "Image"
    (accounted.recorded _ _ _ _ _ linked) rfl updated.kept
  obtain rfl : data = data' := Option.some.inj (found.symm.trans found')
  have accepted := (accounted.server.upload document data found).image image shown
  refine ⟨⟨image, accepted⟩, data, found, ?_, poster, ref, shown⟩
  intro key value entered
  obtain ⟨newer, older, split, pictures⟩ := updated.latest
  have given : Fields.value key (Write.set document screen.changes true).fields = some value := by
    rw [Write.fields, changes_eq chosen, entered]
  obtain ⟨data', latest, found', present, origin⟩ :=
    Server.exists_value_of_replay .upload newer older rfl given fun later listed addressed =>
        let ⟨url, same⟩ := pictures later listed addressed
        ⟨_, same⟩
  rw [← split] at found'
  obtain rfl : data = data' := Option.some.inj (found.symm.trans found')
  rcases origin with rfl | ⟨fields, written, named⟩
  · exact present
  · obtain ⟨other, same⟩ := pictures _ written rfl
    cases same
    simp [Fields.value, (Category.other_of_entered entered).2.2.symm] at named

end Writes

section Decoders

variable {server : Server rules} {document : String} {category : Category}
  {texts : PostingTexts} {user : User} {image : URL rules} {data : Doc}

/-- The market place and the Manage list decode the recorded posting. -/
theorem Records.upload (records : Records server document category texts user image data) :
    Upload.ofData data = category.posting texts user image.string document := by
  have text : ∀ key value, Fields.value key (category.entered texts) = some value →
      data.text key = value := fun key value entered =>
    Doc.text_of_getElem? (records.entered key value entered)
  simp only [Upload.ofData, Category.posting, Upload.mk.injEq]
  exact ⟨text "Amount" _ rfl, text "Location" _ rfl, text "Title" _ rfl, text "Poster-Name" _ rfl,
    text "Description" _ rfl, Doc.text_of_getElem? records.image, text "Mobile-Number" _ rfl,
    Doc.text_of_getElem? records.user, Doc.text_of_getElem? records.ref⟩

/-- The update form decodes the recorded texts. -/
theorem Records.postingTexts (records : Records server document category texts user image data) :
    PostingTexts.ofData data = texts := by
  have text : ∀ key value, Fields.value key (category.entered texts) = some value →
      data.text key = value := fun key value entered =>
    Doc.text_of_getElem? (records.entered key value entered)
  obtain ⟨posterName, location, amount, mobileNumber, uploadDesc⟩ := texts
  simp only [PostingTexts.ofData, PostingTexts.mk.injEq]
  exact ⟨text "Poster-Name" _ rfl, text "Location" _ rfl, text "Amount" _ rfl,
    text "Mobile-Number" _ rfl, text "Description" _ rfl⟩

/-- The update form decodes the recorded category. -/
theorem Records.segment (records : Records server document category texts user image data) :
    UpdatePostingsViewController.segmentOf data = category.segment := by
  have title : data.text "Title" = category.title :=
    Doc.text_of_getElem? (records.entered "Title" _ rfl)
  cases category <;>
    simp [UpdatePostingsViewController.segmentOf, title, Category.title, Category.segment]

/-- Exactly one document names a recorded posting. -/
theorem Records.filter_ref (records : Records server document category texts user image data)
    (valid : ServerOk server) :
    ((server.documents .upload).toList.filter fun entry => entry.2.text "Ref" == document) =
      [(document, data)] := by
  have distinct : (server.documents .upload).toList.Nodup :=
    Std.ExtTreeMap.ordered_keys_toList.imp fun before same => by simp [same] at before
  refine List.perm_singleton.mp ((List.perm_ext_iff_of_nodup (distinct.filter _)
    (List.nodup_singleton _)).mpr ?_)
  rintro ⟨other, data'⟩
  simp only [List.mem_filter, Std.ExtTreeMap.mem_toList_iff_getElem?_eq_some, beq_iff_eq,
    List.mem_singleton]
  constructor
  · rintro ⟨found, named⟩
    have nonempty := (valid.upload document data records.found).named
    have ref := Doc.getElem?_of_text named nonempty
    obtain rfl : document = other := (valid.upload other data' found).ref document ref
    rw [Option.some.inj (found.symm.trans records.found)]
  · rintro same
    cases same
    exact ⟨records.found, Doc.text_of_getElem? records.ref⟩

end Decoders

section Readers

/-- A decoder that runs to its end shows what it leaves. -/
theorem decodes_of_leaves {decoder : Option Snapshot → Handler rules} {documents : Snapshot}
    {screen shown : Screen} (ends : (decoder (some documents)).leaves screen = some shown) :
    Decodes rules decoder documents screen shown := by
  intro world next index self process past outstanding placed taken
  cases World.stepped_of_step taken with
  | completed found placed' =>
      cases outstanding.symm.trans found
      cases placed.symm.trans placed'
      let target : Instance (app rules) := ⟨process, screen⟩
      have ends' : (decoder (some documents)).leaves target.object = some shown := ends
      exact exec_leaves ends' placed

open UpdatePostingsViewController (fill segmentOf)

/-- An update form is left alone by documents that do not name its posting. -/
theorem leaves_fill_of_nil {documents : Snapshot} {screen : UpdatePostingsViewController}
    (none : (documents.filter fun entry => entry.2.text "Ref" == screen.docPath) = []) :
    (fill documents : Handler rules).leaves (.update screen) = some (.update screen) := by
  induction documents with
  | nil => rfl
  | cons document documents inductionHypothesis =>
      obtain ⟨documentID, data⟩ := document
      obtain ⟨other, rest⟩ := List.forall_mem_cons.mp (List.filter_eq_nil_iff.mp none)
      have different : data.text "Ref" ≠ screen.docPath := by simpa using other
      simp only [fill, this, Code.leaves, Controller.ofScreen, different, if_false]
      exact inductionHypothesis (List.filter_eq_nil_iff.mpr rest)

/-- An update form is filled from the one document that names its posting. -/
theorem leaves_fill {documents : Snapshot} {screen : UpdatePostingsViewController}
    {document : String} {data : Doc} {image : URL rules}
    (only : (documents.filter fun entry => entry.2.text "Ref" == screen.docPath) =
      [(document, data)])
    (linked : data["Image"]? = some image.string) :
    (fill documents : Handler rules).leaves (.update screen) = some (.update
      { screen with
        texts := PostingTexts.ofData data
        segmentControl := segmentOf data
        source := some (document, data) }) := by
  induction documents with
  | nil => cases only
  | cons first documents inductionHypothesis =>
      obtain ⟨documentID, data'⟩ := first
      by_cases named : data'.text "Ref" = screen.docPath
      · rw [List.filter_cons_of_pos (by simpa using named), List.cons.injEq] at only
        obtain ⟨same, rest⟩ := only
        cases same
        simp only [fill, this, assign, Code.leaves, Controller.ofScreen, Controller.screen, named,
          if_true, linked, Code.unwrap_some, URL.ofString_string]
        exact leaves_fill_of_nil rest
      · rw [List.filter_cons_of_neg (by simpa using named)] at only
        simp only [fill, this, Code.leaves, Controller.ofScreen, named, if_false]
        exact inductionHypothesis only

/-- A Manage list has the postings of the market place that belong to its user, in the
same order. -/
theorem owned_eq (manage : ManagePostingsViewController) (documents : Snapshot) :
    ((manage.owned documents).map fun entry => Upload.ofData entry.2) =
      (documents.map fun entry => Upload.ofData entry.2).filter
        fun upload => upload.user == manage.currentUser.uid := by
  rw [List.filter_map, ManagePostingsViewController.owned]
  refine congrArg (List.map _) (List.filter_congr fun entry _ => ?_)
  exact BEq.comm

/-- All readers of a snapshot show a posting that is recorded in it. -/
theorem Records.roundTrips {server : Server rules} {document : String} {category : Category}
    {texts : PostingTexts} {user : User} {image : URL rules} {data : Doc}
    (records : Records server document category texts user image data) (valid : ServerOk server) :
    RoundTrips (server.documents .upload).toList category texts user image document where
  lists market manage := by
    refine ⟨_, _, decodes_of_leaves rfl, decodes_of_leaves rfl, rfl, ?_, ?_⟩
    · have only := records.filter_ref valid
      calc ((server.documents .upload).toList.map fun entry => Upload.ofData entry.2).filter
            (fun upload => upload.refNo == document)
          = ((server.documents .upload).toList.filter fun entry =>
              entry.2.text "Ref" == document).map fun entry => Upload.ofData entry.2 :=
            List.filter_map
        _ = [category.posting texts user image.string document] := by
            rw [only, List.map_singleton, records.upload]
    · exact owned_eq manage _
  update := by
    rintro screen rfl
    exact ⟨_, decodes_of_leaves (leaves_fill (records.filter_ref valid) records.image),
      records.postingTexts, records.segment⟩

end Readers

/-- Every snapshot of a published posting, taken before the document is written again,
shows it in all three readers as it was entered; after an acknowledged Update it shows
what was entered there, with the same poster and the same reference. -/
theorem postings_round_trip {world : PostingsWorld rules} {press : Entry (app rules)}
    {form : UploadMarketPlaceViewController} {user : User} {document : String} {url : URL rules}
    {documents : Snapshot} {later : Server rules}
    (reached : (system rules).Reaches (system rules).anyStep (start rules) world)
    (published : Published world press form user document url)
    (loaded : world.server.Served (.getDocuments .upload) later
      (some documents : Option Snapshot)) :
    (∀ category : Category, form.segment = category.segment →
      Undisturbed world.server document (form.posting user) url →
      RoundTrips documents category form.texts user url document) ∧
    ∀ (update : Entry (app rules)) (screen : UpdatePostingsViewController) (category : Category),
      screen.segmentControl = category.segment → Updated world update screen document →
      ∃ image : URL rules, RoundTrips documents category screen.texts user image document := by
  have accounted := accounted_of_reaches reached
  cases loaded with
  | listed =>
      constructor
      · intro category chosen undisturbed
        obtain ⟨data, records⟩ := published.records accounted chosen undisturbed
        exact records.roundTrips accounted.server
      · intro update screen category chosen updated
        obtain ⟨image, data, records⟩ := updated.records published accounted chosen
        exact ⟨image, records.roundTrips accounted.server⟩

section Schedules

/-- The world that a schedule leads to. -/
def played (events : List (Event (app anyText) (firebase anyText))) : PostingsWorld anyText :=
  ((system anyText).runWhile (system anyText).anyStep (start anyText) events).getD (start anyText)

/-- A schedule that can be played is a run. -/
theorem reaches_played (events : List (Event (app anyText) (firebase anyText)))
    (runs : ((system anyText).runWhile (system anyText).anyStep (start anyText) events).isSome =
      true) :
    (system anyText).Reaches (system anyText).anyStep (start anyText) (played events) := by
  obtain ⟨world, replayed⟩ := Option.isSome_iff_exists.mp runs
  have same : played events = world := by
    rw [played, replayed]
    rfl
  rw [same]
  exact Machine.reaches_of_runWhile replayed

/-- What the poster enters in the update form. -/
def offer : PostingTexts := ⟨"Alicia", "Truro", "900", "902777", "Flat"⟩

/-- A posting is published as a job, then its poster makes another offer of it. -/
def offering : List (Event (app anyText) (firebase anyText)) :=
  publishing ++ managing ++ [.input 2 (.editTexts offer), .input 2 (.selectSegment 1),
    .input 2 .updateButton, .serve 1 .ok, .reply 1]

/-- The posting form of the schedules at its press. -/
def filledIn : UploadMarketPlaceViewController where
  imageView := some UpdatePostingsViewController.placeholder
  segment := 0
  texts := form
  uploadTitle := ""

/-- The update form of the schedules at its press. -/
def changed : UpdatePostingsViewController :=
  { UpdatePostingsViewController.prepared "d1" alice "d1" with
    texts := offer, segmentControl := 1 }

/-- The press of the posting form. -/
def posted : Entry (app anyText) := ⟨2, 0, .uploadButton (some alice), .upload filledIn⟩

/-- The press of the update form. -/
def pressed : Entry (app anyText) := ⟨7, 2, .updateButton, .update changed⟩

theorem published_publishing :
    Published (played publishing) posted filledIn alice "d1" firstURL where
  began := rfl
  pressed := rfl
  added := .handled (List.mem_of_getElem? (i := 4) rfl)
  referred := .handled (List.mem_of_getElem? (i := 2) rfl)
  linked := ⟨⟨"tray.and.arrow.up"⟩, .handled (List.mem_of_getElem? (i := 0) rfl)⟩

theorem published_offering : Published (played offering) posted filledIn alice "d1" firstURL where
  began := rfl
  pressed := rfl
  added := .handled (List.mem_of_getElem? (i := 7) rfl)
  referred := .handled (List.mem_of_getElem? (i := 5) rfl)
  linked := ⟨⟨"tray.and.arrow.up"⟩, .handled (List.mem_of_getElem? (i := 3) rfl)⟩

theorem undisturbed_publishing :
    Undisturbed (played publishing).server "d1" (filledIn.posting alice) firstURL := by
  have journal : (played publishing).server.journal =
      [(.upload, .set "d1" [("Image", firstURL.string)] true),
        (.upload, .set "d1" [("Ref", "d1")] true),
        (.upload, .add "d1" (filledIn.posting alice))] := rfl
  intro write written addressed
  rw [journal] at written
  simp only [List.mem_cons, Prod.mk.injEq, true_and, List.not_mem_nil, or_false] at written
  rcases written with rfl | rfl | rfl
  · exact .inr (.inr rfl)
  · exact .inr (.inl rfl)
  · exact .inl rfl

theorem updated_offering : Updated (played offering) pressed changed "d1" where
  began := rfl
  pressed := rfl
  addressed := rfl
  acknowledged := .handled (List.mem_of_getElem? (i := 0) rfl)
  latest := ⟨[], (played publishing).server.journal, rfl, fun _ written => nomatch written⟩
  kept := by decide +kernel

/-- A job is published, read back, and offered again as a rental. -/
theorem postings_round_trip_offered :
    RoundTrips ((played publishing).server.documents .upload).toList .job form alice firstURL
      "d1" ∧
    ∃ image : URL anyText, RoundTrips ((played offering).server.documents .upload).toList .rental
      offer alice image "d1" := by
  have first := reaches_played publishing (by decide +kernel)
  have second := reaches_played offering (by decide +kernel)
  refine ⟨(postings_round_trip first published_publishing .listed).1 .job rfl
    undisturbed_publishing, ?_⟩
  exact (postings_round_trip second published_offering .listed).2 pressed changed .rental rfl
    updated_offering

end Schedules

end Postings

end Gbc
