import Gbc.Market.Origin
import Gbc.Market.Publication
import Gbc.Platform.Ledger

/-!
# What the publishing forms store

Any number of posting and information forms, each submitted any number of times
while it is edited. The texts of a submission are read at the press; its picture is
read when `addDocument` is answered, so it is the submitted one only if the form
still shows it then.
-/

namespace Gbc

open Callback Handler World

variable {rules : URLRules}

namespace Postings

/-- The stored document and pictures of a submission have nothing else than what
stood in the form at the press. -/
structure StoredAs (submission : Submission) (document : String) (server : Server rules) :
    Prop where
  entered : ∀ key, key ≠ "Ref" → key ≠ "Image" →
    ∃ data, (server.documents submission.collection)[document]? = some data ∧
      data[key]? = Fields.value key submission.fields
  ref : ∀ (data : Doc) (ref : String),
    (server.documents submission.collection)[document]? = some data →
    data["Ref"]? = some ref → submission.refers = true ∧ ref = document
  image : ∀ (data : Doc) (image : String),
    (server.documents submission.collection)[document]? = some data →
    data["Image"]? = some image → ∃ (url : URL rules) (picture : ImageData), image = url.string ∧
      submission.picture = some picture ∧
      server.version url = some ⟨"Uploads/" ++ document, picture, url⟩
  picture : ∀ object ∈ server.storage, object.path = "Uploads/" ++ document →
    submission.picture = some object.data

/-- The presses that change a published posting. -/
def changes : Input → Bool
  | .updateButton => true
  | .confirmDelete => true
  | _ => false

/-- Every stored submission has nothing else than what stood in its form at the press. -/
def StoresSubmissions (world : PostingsWorld rules) : Prop :=
  ∀ (entry : Entry (app rules)) (trail : List (Exchange (remote rules)))
    (submission : Submission) (collection : CollectionName) (data : Fields) (document : String),
    world.Answered ⟨entry, trail⟩
      ⟨.addDocument collection data, (some document : Option String)⟩ →
    entry.object = submission.screen → entry.input = submission.press →
    StoredAs submission document world.server

/-- Nobody presses Update or Delete. -/
def submittingOnly (_ : PostingsWorld rules) (event : Event (app rules) (firebase rules)) :
    Bool :=
  match event with
  | .input _ input => !changes input
  | _ => true

/-- Nobody presses Update or Delete, and when `addDocument` is answered the form
still shows the picture it was submitted with. -/
def picturesKept (world : PostingsWorld rules) (event : Event (app rules) (firebase rules)) :
    Bool :=
  submittingOnly world event &&
    match event with
    | .reply index =>
        (world.pending[index]?).all fun pending =>
          (world.objects[pending.self]?).all fun target =>
            pictureKept target.object pending.past pending.request
    | _ => true

/-- What every world of such a run keeps. -/
structure Publishes (world : PostingsWorld rules) : Prop where
  origins : (origins rules True).Holds world
  ledger : Ledger world
  traced : world.Traced
  pressed : BeganWith (fun entry => changes entry.input = false) world

theorem publishes_of_reaches {world : PostingsWorld rules}
    (reached : (system rules).Reaches picturesKept (start rules) world) : Publishes world where
  origins := by
    refine origins_of_reachable (reached.weaken fun state event kept => ?_)
    cases event with
    | reply index =>
        intro pending response target found answered placed _
        simp only [picturesKept, submittingOnly, Bool.true_and, found, Option.all_some,
          placed] at kept
        exact kept
    | _ => simp [Contract.guard, Postings.origins]
  ledger := ledger_of_reachable reached
  traced := traced_of_reachable reached
  pressed := by
    refine beganWith_of_reachable (fun state self input target kept placed => ?_) reached
    simpa [picturesKept, submittingOnly] using kept

section Flows

variable {world : PostingsWorld rules} {entry : Entry (app rules)}
  {trail : List (Exchange (remote rules))} {submission : Submission} {collection : CollectionName}
  {data : Fields} {document : String}

/-- What `addDocument` is given is what stood in the form. -/
theorem Publishes.fields_of_added (publishes : Publishes world)
    (answered : world.Answered ⟨entry, trail⟩
      ⟨.addDocument collection data, (some document : Option String)⟩)
    (began : entry.object = submission.screen) (pressed : entry.input = submission.press) :
    collection = submission.collection ∧ data = submission.fields ∧ trail = [] := by
  have origin := publishes.origins.answered answered
  cases submission with
  | posting form user =>
      cases origin with
      | post began' pressed' _ =>
          cases began.symm.trans began'
          cases pressed.symm.trans pressed'
          exact ⟨rfl, rfl, rfl⟩
      | inform began' => cases began.symm.trans began'
  | info form =>
      cases origin with
      | post began' => cases began.symm.trans began'
      | inform began' pressed' =>
          cases began.symm.trans began'
          exact ⟨rfl, rfl, rfl⟩

/-- A picture that is uploaded for the document of a submission is its picture. -/
theorem Publishes.picture_of_pictures (publishes : Publishes world) {past : Past (app rules)}
    {other : CollectionName} {image : UIImage}
    (answered : world.Answered ⟨entry, trail⟩
      ⟨.addDocument collection data, (some document : Option String)⟩)
    (began : entry.object = submission.screen) (pressed : entry.input = submission.press)
    (occurs : world.Occurs past) (pictures : Pictures True past other document image) :
    submission.image = some image := by
  cases pictures with
  | posted began' pressed' shown =>
      have handled := publishes.traced _ _ _ occurs
      cases (publishes.ledger.owner answered (.handled handled)).1
      cases submission with
      | posting form user =>
          cases began.symm.trans began'
          exact shown trivial
      | info form => cases began.symm.trans began'
  | informed began' pressed' shown =>
      have handled := publishes.traced _ _ _ occurs
      cases (publishes.ledger.owner answered (.handled handled)).1
      cases submission with
      | posting form user => cases began.symm.trans began'
      | info form =>
          cases began.symm.trans began'
          exact shown trivial
  | updated began' pressed' =>
      have quiet := publishes.pressed _ occurs
      simp [changes, pressed'] at quiet

/-- Every version stored for a submission shows its picture. -/
theorem Publishes.picture_of_stored (publishes : Publishes world) {object : StoredObject rules}
    (answered : world.Answered ⟨entry, trail⟩
      ⟨.addDocument collection data, (some document : Option String)⟩)
    (began : entry.object = submission.screen) (pressed : entry.input = submission.press)
    (stored : object ∈ world.server.storage) (path : object.path = "Uploads/" ++ document) :
    submission.picture = some object.data := by
  obtain ⟨past, uploaded⟩ := publishes.ledger.uploaded stored
  have origin := publishes.origins.answered uploaded
  simp only [path] at origin
  generalize named : "Uploads/" ++ document = location at origin
  cases origin with
  | picture pictures encoded =>
      obtain rfl := (String.append_right_inj _).mp named
      have shown := publishes.picture_of_pictures answered began pressed uploaded.occurs pictures
      simp [Submission.picture, shown, encoded]

/-- The merges into the document of a submission name it or link its picture. -/
theorem Publishes.merged (publishes : Publishes world) {fields : Fields} {merge : Bool}
    (answered : world.Answered ⟨entry, trail⟩
      ⟨.addDocument collection data, (some document : Option String)⟩)
    (began : entry.object = submission.screen) (pressed : entry.input = submission.press)
    (written : (collection, Write.set document fields merge) ∈ world.server.journal) :
    merge = true ∧ (submission.refers = true ∧ fields = [("Ref", document)] ∨
      ∃ (url : URL rules) (picture : ImageData), fields = [("Image", url.string)] ∧
        submission.picture = some picture ∧
        world.server.version url = some ⟨"Uploads/" ++ document, picture, url⟩) := by
  obtain ⟨past, set⟩ := publishes.ledger.accounted written
  have origin := publishes.origins.answered set
  have occurs := set.occurs
  obtain ⟨same, -, -⟩ := publishes.fields_of_added answered began pressed
  cases origin with
  | refer =>
      refine ⟨rfl, .inl ⟨?_, rfl⟩⟩
      cases submission with
      | posting form user => rfl
      | info form => cases same
  | update began' pressed' =>
      have quiet := publishes.pressed _ occurs
      simp [changes, pressed'] at quiet
  | @link past _ _ image picture url pictures encoded =>
      have located : world.Answered (afterUpload past document picture)
          ⟨.downloadURL ("Uploads/" ++ document), (some url : Option (URL rules))⟩ :=
        .handled (publishes.traced _ _ _ occurs)
      obtain ⟨object, stored, path, rfl⟩ := publishes.ledger.located located
      have version := publishes.ledger.version stored
      have shown := publishes.picture_of_stored answered began pressed stored path
      refine ⟨rfl, .inr ⟨object.url, object.data, rfl, shown, ?_⟩⟩
      rw [version, ← path]

/-- No document of a submission is deleted. -/
theorem Publishes.undeleted (publishes : Publishes world) :
    (collection, Write.delete document) ∉ world.server.journal := by
  intro written
  obtain ⟨past, deleted⟩ := publishes.ledger.accounted written
  have occurs := deleted.occurs
  have origin := publishes.origins.answered deleted
  cases origin with
  | delete began pressed =>
      have quiet := publishes.pressed _ occurs
      simp [changes, pressed] at quiet

/-- The document of a submission is added once, with the entered fields. -/
theorem Publishes.fields_of_journal (publishes : Publishes world) {fields : Fields}
    (answered : world.Answered ⟨entry, trail⟩
      ⟨.addDocument collection data, (some document : Option String)⟩)
    (began : entry.object = submission.screen) (pressed : entry.input = submission.press)
    (written : (collection, Write.add document fields) ∈ world.server.journal) :
    fields = submission.fields := by
  obtain ⟨past, added⟩ := publishes.ledger.accounted written
  obtain ⟨rfl, rfl⟩ := publishes.ledger.owner answered added
  exact (publishes.fields_of_added added began pressed).2.1

/-- The entered fields name neither a `Ref` nor an `Image`. -/
theorem value_fields_ref : Fields.value "Ref" submission.fields = none := by
  cases submission <;> rfl

theorem value_fields_image : Fields.value "Image" submission.fields = none := by
  cases submission <;> rfl

/-- While the forms keep their pictures, what is stored for a submission is what stood
in the form at the press. -/
theorem Publishes.storesSubmissions (publishes : Publishes world) : StoresSubmissions world := by
  intro entry trail submission collection data document answered began pressed
  obtain ⟨rfl, rfl, rfl⟩ := publishes.fields_of_added answered began pressed
  refine ⟨?_, ?_, ?_, ?_⟩
  · intro key notRef notImage
    refine Server.exists_getElem?_replay (publishes.ledger.added answered) ?_ ?_
      publishes.undeleted
    · intro fields written
      rw [publishes.fields_of_journal answered began pressed written]
    · intro fields merge written
      obtain ⟨merges, ⟨-, rfl⟩ | ⟨url, picture, rfl, -, -⟩⟩ :=
        publishes.merged answered began pressed written
      · exact ⟨merges, by simp [Fields.value, Ne.symm notRef]⟩
      · exact ⟨merges, by simp [Fields.value, Ne.symm notImage]⟩
  · intro stored ref found present
    rcases Server.written_of_replay found present with
      ⟨fields, written, named⟩ | ⟨fields, merge, written, named⟩
    · rw [publishes.fields_of_journal answered began pressed written, value_fields_ref] at named
      cases named
    · obtain ⟨-, ⟨refers, rfl⟩ | ⟨url, picture, rfl, -, -⟩⟩ :=
        publishes.merged answered began pressed written
      · exact ⟨refers, by simpa [Fields.value, eq_comm] using named⟩
      · simp [Fields.value] at named
  · intro stored image found present
    rcases Server.written_of_replay found present with
      ⟨fields, written, named⟩ | ⟨fields, merge, written, named⟩
    · rw [publishes.fields_of_journal answered began pressed written, value_fields_image] at named
      cases named
    · obtain ⟨-, ⟨refers, rfl⟩ | ⟨url, picture, rfl, shown, version⟩⟩ :=
        publishes.merged answered began pressed written
      · simp [Fields.value] at named
      · exact ⟨url, picture, by simpa [Fields.value, eq_comm] using named, shown, version⟩
  · intro object stored path
    exact publishes.picture_of_stored answered began pressed stored path

end Flows

end Postings

end Gbc
