import Gbc.Market.App

/-!
# Publishing, all or nothing

One submission of a posting or of an information item, with every remote operation
of its flow resolved in advance by `Outcomes`. After `addDocument` the flow has two
threads: the picture (upload, lookup, merge of `Image`) and, for postings, the merge
of `Ref`. `Publishing` follows both through all interleavings; once nothing is
outstanding, what they leave behind is a function of the outcomes.
-/

namespace Gbc

open Callback Handler

variable {rules : URLRules}

namespace Postings

/-- A submission of one of the two publishing forms. -/
inductive Submission where
  | posting (form : UploadMarketPlaceViewController) (user : User)
  | info (form : AddInfoViewController)

namespace Submission

/-- The form that is submitted. -/
def screen : Submission → Screen
  | posting form _ => .upload form
  | info form => .addInfo form

/-- The press that submits it. -/
def press : Submission → Input
  | posting _ user => .uploadButton (some user)
  | info _ => .submitInfoButton

/-- The form passes its own validation. -/
def passes : Submission → Bool
  | posting form _ => !form.texts.incomplete form.segment
  | info form => form.titleInfo != "" && form.infoView != ""

def collection : Submission → CollectionName
  | posting _ _ => .upload
  | info _ => .infoUpload

/-- The fields that were entered, with the poster of a posting. -/
def fields : Submission → Fields
  | posting form user => form.posting user
  | info form => form.item

/-- The picture in the form. -/
def image : Submission → Option UIImage
  | posting form _ => form.imageView
  | info form => form.image

/-- Postings also name themselves. -/
def refers : Submission → Bool
  | posting _ _ => true
  | info _ => false

/-- The form after the press. -/
def pressed : Submission → Screen
  | posting form _ => .upload { form with uploadTitle := form.chosenTitle }
  | info form => .addInfo form

/-- The completion handler of `addDocument`. -/
def documentAdded : Submission → Option String → Handler rules
  | posting _ _ => UploadMarketPlaceViewController.documentAdded
  | info _ => AddInfoViewController.documentAdded

/-- The encoded picture of the form. -/
def picture (submission : Submission) : Option ImageData :=
  submission.image.bind UIImage.jpegData

/-- The entered fields with the merges of `Ref` and of `Image` that have been applied. -/
def contents (submission : Submission) (document : String) (referred : Bool)
    (image : Option (URL rules)) : Fields :=
  submission.fields ++ (if referred then [("Ref", document)] else []) ++
    (image.toList.map fun url => ("Image", url.string))

end Submission

/-- How the remote operations of a flow end. -/
structure Outcomes (rules : URLRules) where
  /-- The ID of the added document, if it is added. -/
  document : Option String
  /-- The merge of `Ref` succeeds. -/
  referred : Bool
  /-- The download URL of the uploaded picture, if the upload succeeds. -/
  version : Option (URL rules)
  /-- The lookup of the download URL succeeds. -/
  located : Bool
  /-- The merge of `Image` succeeds. -/
  linked : Bool

/-- The choice of the backend that gives an operation its outcome. -/
def Outcomes.choice (outcomes : Outcomes rules) : Request rules → Server.Choice rules
  | .addDocument _ _ => (outcomes.document.map .name).getD .fail
  | .setData _ _ data _ =>
      if (if data.any (·.1 == "Ref") then outcomes.referred else outcomes.linked) then .ok
      else .fail
  | .putData _ _ => (outcomes.version.map .token).getD .fail
  | .downloadURL _ => if outcomes.located then .ok else .fail
  | _ => .fail

/-- Nothing happens but the operations of the flow, and they end as planned. -/
def follows (outcomes : Outcomes rules) (world : PostingsWorld rules)
    (event : Event (app rules) (firebase rules)) : Bool :=
  match event with
  | .serve index choice =>
      (world.pending[index]?).all fun pending => choice == outcomes.choice pending.request
  | .reply _ => true
  | _ => false

/-- The form is open, over any backend. -/
def opened (server : Server rules) (submission : Submission) : PostingsWorld rules :=
  { World.initial (app rules) server with objects := [⟨0, submission.screen⟩] }

/-- The flow ends with a complete document. -/
def Outcomes.complete (outcomes : Outcomes rules) (submission : Submission) : Bool :=
  submission.picture.isSome && (!submission.refers || outcomes.referred) &&
    outcomes.version.isSome && outcomes.located && outcomes.linked

section Effects

variable (submission : Submission) (before after : Server rules)

/-- No document was touched. -/
def Untouched : Prop :=
  ∀ (collection : CollectionName) (document : String),
    (after.documents collection)[document]? = (before.documents collection)[document]?

/-- One new document has exactly the given fields, and no other was touched. -/
structure Added (document : String) (fields : Fields) : Prop where
  fresh : (before.documents submission.collection)[document]? = none
  others : ∀ (collection : CollectionName) (other : String),
    ¬(submission.collection = collection ∧ document = other) →
      (after.documents collection)[other]? = (before.documents collection)[other]?
  present : ∃ data, (after.documents submission.collection)[document]? = some data ∧
    ∀ key : String, data[key]? = Fields.value key fields

/-- The submission left one complete document, whose `Image` shows the picture of
the form, or no document. -/
def AllOrNothing : Prop :=
  Untouched before after ∨ ∃ (document : String) (url : URL rules) (data : ImageData),
    Added submission before after document
      (submission.contents document submission.refers (some url)) ∧
    submission.picture = some data ∧
    after.version url = some ⟨"Uploads/" ++ document, data, url⟩

end Effects

section Merges

variable {submission : Submission} {before server : Server rules} {document : String}

/-- A merge into the new document adds its fields. -/
theorem Added.merge {fields merged data : Fields}
    (added : Added submission before server document fields)
    (gains : ∀ key, Fields.value key merged =
      (Fields.value key data).or (Fields.value key fields)) :
    Added submission before
      (server.write submission.collection (.set document data true)) document merged where
  fresh := added.fresh
  others collection other elsewhere := by
    rw [Server.getElem?_documents_write _ elsewhere, added.others collection other elsewhere]
  present := by
    obtain ⟨old, found, values⟩ := added.present
    refine ⟨old.merge data, by simp [found], ?_⟩
    intro key
    rw [Doc.getElem?_merge, values, gains]

/-- Only the journal counts for the documents. -/
theorem Added.of_journal {later : Server rules} {fields : Fields}
    (added : Added submission before server document fields)
    (same : later.journal = server.journal) : Added submission before later document fields where
  fresh := added.fresh
  others := by simpa only [Server.documents, same] using added.others
  present := by simpa only [Server.documents, same] using added.present

theorem Added.refer {image : Option (URL rules)}
    (added : Added submission before server document (submission.contents document false image)) :
    Added submission before
      (server.write submission.collection (.set document [("Ref", document)] true)) document
      (submission.contents document true image) := by
  refine added.merge fun key => ?_
  cases image with
  | none => simp [Submission.contents, Fields.value_append, Fields.value]
  | some url =>
      by_cases same : "Ref" = key
      · subst same
        simp [Submission.contents, Fields.value_append, Fields.value]
      · simp [Submission.contents, Fields.value_append, Fields.value, same]

theorem Added.link {referred : Bool} {url : URL rules}
    (added : Added submission before server document
      (submission.contents document referred (none : Option (URL rules)))) :
    Added submission before
      (server.write submission.collection (.set document [("Image", url.string)] true)) document
      (submission.contents document referred (some url)) := by
  refine added.merge fun key => ?_
  simp [Submission.contents, Fields.value_append, Option.or_assoc]

end Merges

section Threads

variable (outcomes : Outcomes rules) (submission : Submission) (document : String)

/-- An uploaded picture is the current object of its path and the version of its
download URL. -/
def Stored (data : ImageData) (server : Server rules) : Prop :=
  ∀ url, outcomes.version = some url →
    server.stored ("Uploads/" ++ document) = some ⟨"Uploads/" ++ document, data, url⟩ ∧
    server.version url = some ⟨"Uploads/" ++ document, data, url⟩

/-- The picture thread: its outstanding operation, the merged `Image` and whether it
trapped. -/
inductive PictureAt (server : Server rules) :
    Option (Pending (app rules)) → Option (URL rules) → Bool → Prop where
  | unencoded (absent : submission.picture = none) : PictureAt server none none false
  | uploading {past : Past (app rules)} {title : String} {data : ImageData}
      (encoded : submission.picture = some data) :
      PictureAt server (some ⟨0, past, .putData ("Uploads/" ++ document) data,
        pictureUploaded submission.collection title document, none⟩) none false
  | uploaded {past : Past (app rules)} {title : String} {data : ImageData} {success : Bool}
      (encoded : submission.picture = some data) (stored : Stored outcomes document data server)
      (answer : success = outcomes.version.isSome) :
      PictureAt server (some ⟨0, past, .putData ("Uploads/" ++ document) data,
        pictureUploaded submission.collection title document, some success⟩) none false
  | locating {past : Past (app rules)} {title : String} {data : ImageData} {url : URL rules}
      (encoded : submission.picture = some data) (stored : Stored outcomes document data server)
      (version : outcomes.version = some url) :
      PictureAt server (some ⟨0, past, .downloadURL ("Uploads/" ++ document),
        pictureLocated submission.collection title document, none⟩) none false
  | located {past : Past (app rules)} {title : String} {data : ImageData} {url : URL rules}
      {found : Option (URL rules)} (encoded : submission.picture = some data)
      (stored : Stored outcomes document data server) (version : outcomes.version = some url)
      (answer : found = if outcomes.located then some url else none) :
      PictureAt server (some ⟨0, past, .downloadURL ("Uploads/" ++ document),
        pictureLocated submission.collection title document, some found⟩) none false
  | linking {past : Past (app rules)} {data : ImageData} {url : URL rules}
      (encoded : submission.picture = some data) (stored : Stored outcomes document data server)
      (version : outcomes.version = some url) (located : outcomes.located = true) :
      PictureAt server (some ⟨0, past,
        .setData submission.collection document [("Image", url.string)] true, fun _ => .done,
        none⟩) none false
  | linked {past : Past (app rules)} {data : ImageData} {url : URL rules} {success : Bool}
      {image : Option (URL rules)} (encoded : submission.picture = some data)
      (stored : Stored outcomes document data server) (version : outcomes.version = some url)
      (located : outcomes.located = true)
      (linked : image = if outcomes.linked then some url else none) :
      PictureAt server (some ⟨0, past,
        .setData submission.collection document [("Image", url.string)] true, fun _ => .done,
        some success⟩) image false
  | unstored {data : ImageData} (encoded : submission.picture = some data)
      (version : outcomes.version = none) : PictureAt server none none false
  | trapped {data : ImageData} {url : URL rules} (encoded : submission.picture = some data)
      (version : outcomes.version = some url) (located : outcomes.located = false) :
      PictureAt server none none true
  | finished {data : ImageData} {url : URL rules} {image : Option (URL rules)}
      (encoded : submission.picture = some data) (stored : Stored outcomes document data server)
      (version : outcomes.version = some url) (located : outcomes.located = true)
      (linked : image = if outcomes.linked then some url else none) :
      PictureAt server none image false

/-- The `Ref` thread: its outstanding operation and whether `Ref` has been merged. -/
inductive RefAt : Option (Pending (app rules)) → Bool → Prop where
  | absent (refers : submission.refers = false) : RefAt none false
  | merging {past : Past (app rules)} (refers : submission.refers = true) :
      RefAt (some ⟨0, past, .setData submission.collection document [("Ref", document)] true,
        fun _ => .done, none⟩) false
  | merged {past : Past (app rules)} {success referred : Bool}
      (refers : submission.refers = true) (merged : referred = outcomes.referred) :
      RefAt (some ⟨0, past, .setData submission.collection document [("Ref", document)] true,
        fun _ => .done, some success⟩) referred
  | finished {referred : Bool} (refers : submission.refers = true)
      (merged : referred = outcomes.referred) : RefAt none referred

end Threads

section Steps

variable {outcomes : Outcomes rules} {submission : Submission} {document : String}
  {before server later : Server rules} {self : Nat} {past : Past (app rules)}
  {request : Request rules} {completion : request.Response → Handler rules}
  {response : request.Response}

/-- The picture thread when its operation is served. -/
theorem PictureAt.serve {image : Option (URL rules)} {referred trapped : Bool}
    (stage : PictureAt outcomes submission document server
      (some ⟨self, past, request, completion, none⟩) image trapped)
    (serves : server.serve request (outcomes.choice request) = some (later, response))
    (added : Added submission before server document
      (submission.contents document referred image)) :
    ∃ image', PictureAt outcomes submission document later
        (some ⟨self, past, request, completion, some response⟩) image' trapped ∧
      Added submission before later document (submission.contents document referred image') := by
  cases stage with
  | @uploading _ title data encoded =>
      cases version : outcomes.version with
      | none =>
          simp only [Outcomes.choice, version, Option.map_none, Option.getD_none, Server.serve,
            Option.some.injEq] at serves
          cases serves
          refine ⟨none, .uploaded encoded ?_ (by simp [version]), added⟩
          simp [Stored, version]
      | some url =>
          simp only [Outcomes.choice, version, Option.map_some, Option.getD_some, Server.serve,
            Option.ite_none_right_eq_some, Option.some.injEq] at serves
          obtain ⟨fresh, served⟩ := serves
          cases served
          refine ⟨none, .uploaded encoded ?_ (by simp [version]), added.of_journal rfl⟩
          intro other same
          obtain rfl : url = other := by simpa [version] using same
          simp [Server.stored, Server.version]
  | @locating _ title data url encoded stored version =>
      cases located : outcomes.located with
      | false =>
          simp only [Outcomes.choice, located, Bool.false_eq_true, if_false, Server.serve,
            Option.some.injEq] at serves
          cases serves
          exact ⟨none, .located encoded stored version (by simp [located]), added⟩
      | true =>
          simp only [Outcomes.choice, located, if_true, Server.serve, Option.some.injEq] at serves
          cases serves
          refine ⟨none, .located encoded stored version ?_, added⟩
          simp [located, (stored url version).1]
  | @linking _ data url encoded stored version located =>
      cases linked : outcomes.linked with
      | false =>
          simp [Outcomes.choice, linked, Server.serve] at serves
          cases serves
          exact ⟨none, .linked encoded stored version located (by simp [linked]), added⟩
      | true =>
          simp [Outcomes.choice, linked, Server.serve] at serves
          cases serves
          exact ⟨some url, .linked encoded stored version located (by simp [linked]), added.link⟩

/-- The picture thread when its operation is handled. -/
theorem PictureAt.reply {image : Option (URL rules)} {trapped : Bool}
    (target : Instance (app rules)) (world : PostingsWorld rules) (after : Past (app rules))
    (named : document ≠ "")
    (stage : PictureAt outcomes submission document server
      (some ⟨self, past, request, completion, some response⟩) image trapped)
    (calm : world.faults = []) :
    ∃ next trapped', PictureAt outcomes submission document server next image trapped' ∧
      (World.exec self after (completion response) target world).pending =
        world.pending ++ next.toList ∧
      (World.exec self after (completion response) target world).faults.isEmpty = !trapped' := by
  cases stage with
  | @uploaded _ title data success encoded stored answer =>
      cases version : outcomes.version with
      | none =>
          obtain rfl : success = false := by simpa [version] using answer
          exact ⟨none, false, .unstored encoded version, by simp [pictureUploaded, World.exec],
            by simp [pictureUploaded, World.exec, calm]⟩
      | some url =>
          obtain rfl : success = true := by simpa [version] using answer
          exact ⟨_, false, .locating encoded stored version, rfl, by
            simp [pictureUploaded, World.exec, calm]⟩
  | @located _ title data url found encoded stored version answer =>
      cases located : outcomes.located with
      | false =>
          obtain rfl : found = none := by simpa [located] using answer
          exact ⟨none, true, .trapped encoded version located, by
            simp [pictureLocated, Handler.document, named, World.exec], by
            simp [pictureLocated, Handler.document, named, World.exec]⟩
      | true =>
          obtain rfl : found = some url := by simpa [located] using answer
          exact ⟨_, false, .linking encoded stored version located, by
            simp [pictureLocated, Handler.document, named, Code.fire, World.exec]
            rfl, by
            simp [pictureLocated, Handler.document, named, Code.fire, World.exec, calm]⟩
  | linked encoded stored version located linked =>
      exact ⟨none, false, .finished encoded stored version located linked, by
        simp [World.exec], by simp [World.exec, calm]⟩

/-- The picture thread does not depend on documents. -/
theorem PictureAt.of_storage {slot : Option (Pending (app rules))} {image : Option (URL rules)}
    {trapped : Bool} (stage : PictureAt outcomes submission document server slot image trapped)
    (same : later.storage = server.storage) :
    PictureAt outcomes submission document later slot image trapped := by
  have moved : ∀ {data}, Stored outcomes document data server →
      Stored outcomes document data later := by
    intro data stored url version
    simpa only [Server.stored, Server.version, same] using stored url version
  cases stage with
  | unencoded absent => exact .unencoded absent
  | uploading encoded => exact .uploading encoded
  | uploaded encoded stored answer => exact .uploaded encoded (moved stored) answer
  | locating encoded stored version => exact .locating encoded (moved stored) version
  | located encoded stored version answer =>
      exact .located encoded (moved stored) version answer
  | linking encoded stored version located =>
      exact .linking encoded (moved stored) version located
  | linked encoded stored version located linked =>
      exact .linked encoded (moved stored) version located linked
  | unstored encoded version => exact .unstored encoded version
  | trapped encoded version located => exact .trapped encoded version located
  | finished encoded stored version located linked =>
      exact .finished encoded (moved stored) version located linked

/-- The `Ref` thread when its operation is served. -/
theorem RefAt.serve {image : Option (URL rules)} {referred : Bool}
    (stage : RefAt outcomes submission document
      (some ⟨self, past, request, completion, none⟩) referred)
    (serves : server.serve request (outcomes.choice request) = some (later, response))
    (added : Added submission before server document
      (submission.contents document referred image)) :
    ∃ referred', RefAt outcomes submission document
        (some ⟨self, past, request, completion, some response⟩) referred' ∧
      later.storage = server.storage ∧
      Added submission before later document
        (submission.contents document referred' image) := by
  cases stage with
  | merging refers =>
      cases referred : outcomes.referred with
      | false =>
          simp [Outcomes.choice, referred, Server.serve] at serves
          cases serves
          exact ⟨false, .merged refers referred.symm, rfl, added⟩
      | true =>
          simp [Outcomes.choice, referred, Server.serve] at serves
          cases serves
          exact ⟨true, .merged refers referred.symm, rfl, added.refer⟩

/-- The `Ref` thread when its operation is handled. -/
theorem RefAt.reply {referred : Bool} (target : Instance (app rules))
    (world : PostingsWorld rules) (after : Past (app rules))
    (stage : RefAt outcomes submission document
      (some ⟨self, past, request, completion, some response⟩) referred) :
    RefAt outcomes submission document none referred ∧
      World.exec self after (completion response) target world = world := by
  cases stage with
  | merged refers merged => exact ⟨.finished refers merged, rfl⟩

end Steps

section Flow

variable (outcomes : Outcomes rules) (submission : Submission) (before : Server rules)

/-- Both threads of a flow that has added its document. -/
structure Running (world : PostingsWorld rules) (document : String)
    (picture ref : Option (Pending (app rules))) (image : Option (URL rules))
    (referred trapped : Bool) : Prop where
  named : document ≠ ""
  chosen : outcomes.document = some document
  pending : world.pending.Perm (picture.toList ++ ref.toList)
  picture : PictureAt outcomes submission document world.server picture image trapped
  ref : RefAt outcomes submission document ref referred
  added : Added submission before world.server document
    (submission.contents document referred image)
  faults : world.faults.isEmpty = !trapped

/-- How far a flow has got. -/
inductive FlowAt (world : PostingsWorld rules) : Prop where
  | adding {past : Past (app rules)}
      (pending : world.pending = [⟨0, past, .addDocument submission.collection submission.fields,
        submission.documentAdded, none⟩])
      (objects : world.objects = [⟨0, submission.pressed⟩]) (server : world.server = before)
      (calm : world.faults = [])
  | rejecting {past : Past (app rules)}
      (pending : world.pending = [⟨0, past, .addDocument submission.collection submission.fields,
        submission.documentAdded, some (none : Option String)⟩])
      (chosen : outcomes.document = none) (server : world.server = before)
      (calm : world.faults = [])
  | answered {past : Past (app rules)} {document : String}
      (pending : world.pending = [⟨0, past, .addDocument submission.collection submission.fields,
        submission.documentAdded, some (some document : Option String)⟩])
      (objects : world.objects = [⟨0, submission.pressed⟩])
      (chosen : outcomes.document = some document) (named : document ≠ "")
      (added : Added submission before world.server document
        (submission.contents document false (none : Option (URL rules))))
      (calm : world.faults = [])
  | rejected (pending : world.pending = []) (chosen : outcomes.document = none)
      (server : world.server = before) (calm : world.faults = [])
  | unpictured {document : String} (pending : world.pending = [])
      (chosen : outcomes.document = some document) (absent : submission.image = none)
      (trapped : world.faults ≠ [])
  | running {document : String} {picture ref : Option (Pending (app rules))}
      {image : Option (URL rules)} {referred trapped : Bool}
      (threads : Running outcomes submission before world document picture ref image referred
        trapped)

end Flow

section FlowSteps

variable {outcomes : Outcomes rules} {submission : Submission} {before : Server rules}
  {world : PostingsWorld rules} {document : String} {picture ref : Option (Pending (app rules))}
  {image : Option (URL rules)} {referred trapped : Bool}

/-- Serving an operation of a running flow. -/
theorem Running.serve {index self : Nat} {past : Past (app rules)} {request : Request rules}
    {completion : request.Response → Handler rules} {later : Server rules}
    {response : request.Response}
    (threads : Running outcomes submission before world document picture ref image referred
      trapped)
    (found : world.pending[index]? = some ⟨self, past, request, completion, none⟩)
    (serves : world.server.serve request (outcomes.choice request) = some (later, response)) :
    FlowAt outcomes submission before { world with
      server := later
      pending := world.pending.set index ⟨self, past, request, completion, some response⟩ } := by
  obtain ⟨split, replaced⟩ := World.perm_of_getElem? found threads.pending
  have member := split.symm.subset List.mem_cons_self
  rcases List.mem_append.mp member with isPicture | isRef
  · obtain rfl := Option.mem_toList.mp isPicture
    obtain ⟨image', stage, added⟩ := threads.picture.serve serves threads.added
    have rest : ref.toList.Perm (world.pending.eraseIdx index) := split.cons_inv
    exact .running { threads with
      pending := (replaced _).trans (rest.symm.cons _)
      picture := stage
      added := added }
  · obtain rfl := Option.mem_toList.mp isRef
    obtain ⟨referred', stage, storage, added⟩ := threads.ref.serve serves threads.added
    have rest : picture.toList.Perm (world.pending.eraseIdx index) :=
      (List.perm_append_comm.trans split).cons_inv
    exact .running { threads with
      pending := (replaced _).trans ((rest.symm.cons _).trans (List.perm_append_singleton _ _).symm)
      picture := threads.picture.of_storage storage
      ref := stage
      added := added }

/-- Handling an answer in a running flow; `idle` is the world without the operation. -/
theorem Running.reply {index self : Nat} {past after : Past (app rules)} {request : Request rules}
    {completion : request.Response → Handler rules} {response : request.Response}
    {target : Instance (app rules)} {idle : PostingsWorld rules}
    (threads : Running outcomes submission before world document picture ref image referred
      trapped)
    (found : world.pending[index]? = some ⟨self, past, request, completion, some response⟩)
    (pending : idle.pending = world.pending.eraseIdx index) (server : idle.server = world.server)
    (faults : idle.faults = world.faults) :
    FlowAt outcomes submission before
      (World.exec self after (completion response) target idle) := by
  obtain ⟨split, -⟩ := World.perm_of_getElem? found threads.pending
  rw [← pending] at split
  have member := split.symm.subset List.mem_cons_self
  rcases List.mem_append.mp member with isPicture | isRef
  · obtain rfl := Option.mem_toList.mp isPicture
    have calm : idle.faults = [] := by
      have before := threads.faults
      rw [faults]
      cases threads.picture <;> simpa using before
    have rest : ref.toList.Perm idle.pending := split.cons_inv
    obtain ⟨next, trapped', stage, started, faulted⟩ :=
      threads.picture.reply target idle after threads.named calm
    have same : (World.exec self after (completion response) target idle).server =
        world.server := by
      rw [World.exec_server, server]
    have outstanding := List.perm_append_comm.trans (rest.symm.append_left next.toList)
    exact .running { threads with
      pending := started ▸ outstanding
      picture := same ▸ stage
      added := same ▸ threads.added
      faults := faulted }
  · obtain rfl := Option.mem_toList.mp isRef
    have rest : picture.toList.Perm idle.pending :=
      (List.perm_append_comm.trans split).cons_inv
    obtain ⟨stage, same⟩ := threads.ref.reply target idle after
    rw [same]
    exact .running { threads with
      pending := by simpa using rest.symm
      picture := server ▸ threads.picture
      ref := stage
      added := server ▸ threads.added
      faults := faults ▸ threads.faults }

/-- A form without a picture traps once its document has been added. -/
theorem exec_documentAdded_unpictured {after : Past (app rules)} {idle : PostingsWorld rules}
    (absent : submission.image = none) :
    World.exec 0 after (submission.documentAdded (some document)) ⟨0, submission.pressed⟩ idle =
      { idle with faults := (0, .imageView) :: idle.faults } := by
  cases submission with
  | posting form user =>
      have shown : form.imageView = none := absent
      simp [Submission.documentAdded, Submission.pressed, this, Controller.ofScreen,
        UploadMarketPlaceViewController.documentAdded, World.exec, shown]
  | info form =>
      have shown : form.image = none := absent
      simp [Submission.documentAdded, Submission.pressed, this, Controller.ofScreen,
        AddInfoViewController.documentAdded, World.exec, shown]

/-- The operations that the completion handler of `addDocument` starts. -/
theorem exec_documentAdded {after : Past (app rules)} {idle : PostingsWorld rules}
    {shown : UIImage} (named : document ≠ "") (present : submission.image = some shown) :
    World.exec 0 after (submission.documentAdded (some document)) ⟨0, submission.pressed⟩ idle =
      { idle with
        pending := idle.pending ++
          (submission.picture.toList.map fun data =>
            ⟨0, after, .putData ("Uploads/" ++ document) data,
              pictureUploaded submission.collection "Upload Sucessfull" document, none⟩) ++
          (if submission.refers then
            [⟨0, after, .setData submission.collection document [("Ref", document)] true,
              fun _ => .done, none⟩]
          else []) } := by
  cases submission with
  | posting form user =>
      have image : form.imageView = some shown := present
      cases encoded : shown.jpegData <;>
      simp [Submission.documentAdded, Submission.pressed, Submission.picture, Submission.image,
        Submission.refers, Submission.collection, this, Controller.ofScreen, Handler.document,
        UploadMarketPlaceViewController.documentAdded, UploadMarketPlaceViewController.uploadImage,
        uploadPicture, Code.fire, World.exec, image, encoded, named]
  | info form =>
      have image : form.image = some shown := present
      cases encoded : shown.jpegData <;>
      simp [Submission.documentAdded, Submission.pressed, Submission.picture, Submission.image,
        Submission.refers, Submission.collection, this, Controller.ofScreen,
        AddInfoViewController.documentAdded, AddInfoViewController.uploadImage,
        uploadPicture, World.exec, image, encoded]

/-- The answer of `addDocument` starts both threads. -/
theorem FlowAt.start_threads {after : Past (app rules)} {idle : PostingsWorld rules}
    (pending : idle.pending = []) (chosen : outcomes.document = some document)
    (named : document ≠ "") (calm : idle.faults = [])
    (added : Added submission before idle.server document
      (submission.contents document false (none : Option (URL rules)))) :
    FlowAt outcomes submission before
      (World.exec 0 after (submission.documentAdded (some document)) ⟨0, submission.pressed⟩
        idle) := by
  cases present : submission.image with
  | none =>
      rw [exec_documentAdded_unpictured present]
      exact .unpictured pending chosen present (by simp)
  | some shown =>
      rw [exec_documentAdded named present, pending]
      cases encoded : submission.picture with
      | none =>
          cases refers : submission.refers with
          | false => exact .running ⟨named, chosen, .refl _, .unencoded encoded, .absent refers,
              added, by simp [calm]⟩
          | true => exact .running ⟨named, chosen, .refl _, .unencoded encoded, .merging refers,
              added, by simp [calm]⟩
      | some data =>
          cases refers : submission.refers with
          | false => exact .running ⟨named, chosen, .refl _, .uploading encoded, .absent refers,
              added, by simp [calm]⟩
          | true => exact .running ⟨named, chosen, .refl _, .uploading encoded, .merging refers,
              added, by simp [calm]⟩

/-- An added document has the entered fields. -/
theorem added_of_neverUsed (unused : before.neverUsed document = true) :
    Added submission before (before.write submission.collection (.add document submission.fields))
      document (submission.contents document false (none : Option (URL rules))) where
  fresh := before.getElem?_documents_of_neverUsed unused _
  others collection other elsewhere := before.getElem?_documents_write elsewhere
  present := ⟨Doc.merge ∅ submission.fields, by simp, by
    simp [Submission.contents, Doc.getElem?_merge]⟩

/-- Every planned step of a flow takes it further. -/
theorem FlowAt.step {next : PostingsWorld rules} {event : Event (app rules) (firebase rules)}
    (flow : FlowAt outcomes submission before world) (planned : follows outcomes world event = true)
    (taken : world.step event = some next) : FlowAt outcomes submission before next := by
  cases World.stepped_of_step taken with
  | launched => cases planned
  | began => cases planned
  | @served index self choice past request completion later response found serves =>
      obtain rfl : choice = outcomes.choice request := by
        simpa [follows, found] using planned
      cases flow with
      | adding pending objects server calm =>
          obtain ⟨rfl, same⟩ := World.eq_of_singleton pending found
          cases same
          cases chosen : outcomes.document with
          | none =>
              simp only [Outcomes.choice, chosen, Option.map_none, Option.getD_none, Server.serve,
                Option.some.injEq] at serves
              cases serves
              exact .rejecting (by rw [pending]; rfl) chosen server calm
          | some document =>
              simp only [Outcomes.choice, chosen, Option.map_some, Option.getD_some, Server.serve,
                Option.ite_none_right_eq_some, Option.some.injEq] at serves
              obtain ⟨unused, served⟩ := serves
              cases served
              rw [server] at unused
              refine .answered (by rw [pending]; rfl) objects chosen
                (before.neverUsed_iff.mp unused).1 ?_ calm
              rw [server]
              exact added_of_neverUsed unused
      | rejecting pending =>
          obtain ⟨-, same⟩ := World.eq_of_singleton pending found
          cases same
      | answered pending =>
          obtain ⟨-, same⟩ := World.eq_of_singleton pending found
          cases same
      | rejected pending => simp [pending] at found
      | unpictured pending => simp [pending] at found
      | running threads => exact threads.serve found serves
  | @completed index self past request completion response target found placed =>
      cases flow with
      | adding pending =>
          obtain ⟨-, same⟩ := World.eq_of_singleton pending found
          cases same
      | rejecting pending chosen server calm =>
          obtain ⟨rfl, same⟩ := World.eq_of_singleton pending found
          cases same
          have ends : submission.documentAdded none = (.done : Handler rules) := by
            cases submission <;> rfl
          rw [ends]
          exact .rejected (by simp [World.exec, pending]) chosen server calm
      | answered pending objects chosen named added calm =>
          obtain ⟨rfl, same⟩ := World.eq_of_singleton pending found
          cases same
          obtain rfl : target = ⟨0, submission.pressed⟩ := by
            simpa [objects, eq_comm] using placed
          exact .start_threads (by simp [pending]) chosen named calm added
      | rejected pending => simp [pending] at found
      | unpictured pending => simp [pending] at found
      | running threads => exact threads.reply found rfl rfl rfl

/-- A press of a form that passes validation asks for its document. -/
theorem flowAt_of_press {start : PostingsWorld rules} (passes : submission.passes = true)
    (pressed : (opened before submission).step (.input 0 submission.press) = some start) :
    FlowAt outcomes submission before start := by
  cases submission with
  | posting form user =>
      have complete : form.texts.incomplete form.segment = false := by
        simpa [Submission.passes] using passes
      simp [opened, World.step, World.crashed, World.initial, Submission.screen, Submission.press,
        Screen.handle, UploadMarketPlaceViewController.handle, this, assign, Controller.ofScreen,
        Controller.screen, UploadMarketPlaceViewController.uploadButton, World.exec,
        World.setObject, complete] at pressed
      cases pressed
      exact .adding rfl rfl rfl rfl
  | info form =>
      simp [Submission.passes] at passes
      simp [opened, World.step, World.crashed, World.initial, Submission.screen, Submission.press,
        Screen.handle, AddInfoViewController.handle, this, Controller.ofScreen,
        AddInfoViewController.submitInfoButton, World.exec, passes] at pressed
      cases pressed
      exact .adding rfl rfl rfl rfl

/-- A document that was added is not untouched. -/
theorem Added.not_untouched {fields : Fields} {after : Server rules}
    (added : Added submission before after document fields) : ¬ Untouched before after := by
  intro untouched
  obtain ⟨data, found, -⟩ := added.present
  rw [untouched, added.fresh] at found
  cases found

/-- The added document and its fields are determined. -/
theorem Added.unique {fields fields' : Fields} {after : Server rules} {document' : String}
    (added : Added submission before after document fields)
    (added' : Added submission before after document' fields') :
    document = document' ∧ ∀ key, Fields.value key fields = Fields.value key fields' := by
  have same : document = document' := by
    by_contra different
    obtain ⟨data, found, -⟩ := added.present
    have before := added'.others submission.collection document fun same => different same.2.symm
    rw [before, added.fresh] at found
    cases found
  subst same
  refine ⟨rfl, fun key => ?_⟩
  obtain ⟨data, found, values⟩ := added.present
  obtain ⟨data', found', values'⟩ := added'.present
  obtain rfl : data = data' := Option.some.inj (found.symm.trans found')
  rw [← values, values']

theorem value_image :
    Fields.value "Image" (submission.contents document referred image) =
      image.map (·.string) := by
  cases submission <;> cases referred <;> cases image <;>
    simp [Submission.contents, Submission.fields, UploadMarketPlaceViewController.posting,
      AddInfoViewController.item, Fields.value]

theorem value_ref :
    Fields.value "Ref" (submission.contents document referred image) =
      if referred then some document else none := by
  cases submission <;> cases referred <;> cases image <;>
    simp [Submission.contents, Submission.fields, UploadMarketPlaceViewController.posting,
      AddInfoViewController.item, Fields.value]

/-- What a flow leaves behind when both threads have ended without a trap. -/
theorem Running.finished_iff
    (threads : Running outcomes submission before world document none none image referred false) :
    AllOrNothing submission before world.server ↔ outcomes.complete submission = true := by
  obtain ⟨_, _, _, picture, ref, added, _⟩ := threads
  have decided : AllOrNothing submission before world.server →
      referred = submission.refers ∧ image.isSome = true := by
    rintro (untouched | ⟨document', url, data, added', _, _⟩)
    · exact absurd untouched added.not_untouched
    · obtain ⟨rfl, values⟩ := added.unique added'
      have refs := values "Ref"
      have images := values "Image"
      rw [value_ref, value_ref] at refs
      rw [value_image, value_image] at images
      refine ⟨?_, ?_⟩
      · cases referred <;> cases refers : submission.refers <;> simp_all
      · cases image <;> simp_all
  have refs : (!submission.refers || outcomes.referred) = true ↔ referred = submission.refers := by
    cases ref with
    | absent refers => simp [refers]
    | finished refers merged => simp [refers, merged]
  cases picture with
  | unencoded absent =>
      simp only [Outcomes.complete, absent, Option.isSome_none, Bool.false_and, Bool.false_eq_true,
        iff_false]
      exact fun holds => absurd (decided holds).2 (by simp)
  | unstored encoded version =>
      simp only [Outcomes.complete, version, Option.isSome_none, Bool.and_false, Bool.false_and,
        Bool.false_eq_true, iff_false]
      exact fun holds => absurd (decided holds).2 (by simp)
  | @finished data url _ encoded stored version located linked =>
      cases success : outcomes.linked with
      | false =>
          simp only [Outcomes.complete, success, Bool.and_false, Bool.false_eq_true, iff_false]
          exact fun holds => absurd (decided holds).2 (by simp [linked, success])
      | true =>
          obtain rfl : image = some url := by simpa [success] using linked
          have complete : outcomes.complete submission = true ↔ referred = submission.refers := by
            simp only [Outcomes.complete, encoded, version, located, success, Option.isSome_some,
              Bool.true_and, Bool.and_true]
            exact refs
          rw [complete]
          refine ⟨fun holds => (decided holds).1, ?_⟩
          rintro rfl
          exact .inr ⟨document, url, data, added, encoded, (stored url version).2⟩

/-- Once a flow has ended, it neither trapped nor left a part of a document behind
exactly if its document was refused or every operation after it succeeded. -/
theorem all_or_nothing_iff {start : PostingsWorld rules} (passes : submission.passes = true)
    (pressed : (opened before submission).step (.input 0 submission.press) = some start)
    (reached : (system rules).Reaches (follows outcomes) start world)
    (ended : world.pending = [] ∨ world.faults ≠ []) :
    (world.faults = [] ∧ AllOrNothing submission before world.server) ↔
      outcomes.document = none ∨ outcomes.complete submission = true := by
  have flow : FlowAt outcomes submission before world :=
    reached.invariant (flowAt_of_press passes pressed) FlowAt.step
  cases flow with
  | adding pending _ _ calm => simp [pending, calm] at ended
  | rejecting pending _ _ calm => simp [pending, calm] at ended
  | answered pending _ _ _ _ calm => simp [pending, calm] at ended
  | rejected _ chosen server calm =>
      simp only [chosen, true_or, iff_true]
      exact ⟨calm, .inl fun _ _ => by rw [server]⟩
  | unpictured _ chosen absent trapped =>
      simp [chosen, trapped, Outcomes.complete, Submission.picture, absent]
  | @running document picture ref image referred trapped threads =>
      simp only [threads.chosen, reduceCtorEq, false_or]
      cases trapped with
      | true =>
          have faults : world.faults ≠ [] := by
            simpa using threads.faults
          cases threads.picture with
          | trapped encoded version located =>
              simp [faults, Outcomes.complete, located]
      | false =>
          have calm : world.faults = [] := by simpa using threads.faults
          have nothing : [] = picture.toList ++ ref.toList := by
            have pending := threads.pending
            rw [ended.resolve_right (not_not.mpr calm)] at pending
            exact (List.nil_perm.mp pending).symm
          obtain ⟨noPicture, noRef⟩ := List.append_eq_nil_iff.mp nothing.symm
          obtain rfl := Option.toList_eq_nil_iff.mp noPicture
          obtain rfl := Option.toList_eq_nil_iff.mp noRef
          rw [threads.finished_iff]
          exact and_iff_right calm

end FlowSteps

section Schedules

/-- The world after a press, or the empty world where it has no effect. -/
def afterPress (submission : Submission) : PostingsWorld anyText :=
  ((opened (.empty anyText) submission).step (.input 0 submission.press)).getD (start anyText)

/-- A complete posting with a picture. -/
def sweeping : Submission :=
  .posting ⟨some ⟨"broom", true⟩, 0, form, ""⟩ alice

/-- Every operation succeeds. -/
def allSucceed : Outcomes anyText := ⟨some "d1", true, some firstURL, true, true⟩

/-- Every operation of a posting succeeds, the merge of `Ref` last. -/
theorem all_or_nothing_iff_published :
    ∃ world, (system anyText).Reaches (follows allSucceed) (afterPress sweeping) world ∧
      (world.pending.isEmpty && (world.server.documents .upload).contains "d1") = true ∧
      ((world.faults = [] ∧ AllOrNothing sweeping (.empty anyText) world.server) ↔
        allSucceed.document = none ∨ allSucceed.complete sweeping = true) := by
  obtain ⟨world, reached, ended⟩ := Machine.exists_reaches (m := system anyText)
    (follows allSucceed) (afterPress sweeping)
    [.serve 0 (.name "d1"), .reply 0, .serve 0 (.token firstURL), .reply 0, .serve 1 .ok,
      .reply 1, .serve 1 .ok, .reply 1, .serve 0 .ok, .reply 0]
    (fun world : PostingsWorld anyText =>
      world.pending.isEmpty && (world.server.documents .upload).contains "d1")
    (by decide +kernel)
  refine ⟨world, reached, ended, all_or_nothing_iff (by decide) rfl reached (.inl ?_)⟩
  simpa using (Bool.and_eq_true_iff.mp ended).1

/-- An information item is submitted without a picture: its document stays and the
process traps. -/
theorem half_published :
    ¬ ∀ (rules : URLRules) (before : Server rules) (submission : Submission)
        (outcomes : Outcomes rules) (start world : PostingsWorld rules),
      submission.passes = true →
      (opened before submission).step (.input 0 submission.press) = some start →
      (system rules).Reaches (follows outcomes) start world →
      world.pending = [] ∨ world.faults ≠ [] →
      world.faults = [] ∧ AllOrNothing submission before world.server := by
  intro complete
  obtain ⟨world, reached, trapped⟩ := Machine.exists_reaches (m := system anyText)
    (follows allSucceed) (afterPress (.info ⟨none, "Rights", "Minimum wage"⟩))
    [.serve 0 (.name "d1"), .reply 0]
    (fun world : PostingsWorld anyText => !world.faults.isEmpty) (by decide +kernel)
  have faults : world.faults ≠ [] := by simpa using trapped
  exact faults (complete anyText _ (.info ⟨none, "Rights", "Minimum wage"⟩) _ _ world (by decide)
    rfl reached (.inr faults)).1

end Schedules

end Postings

end Gbc
