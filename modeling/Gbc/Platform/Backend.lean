import Gbc.Callback.Code
import Gbc.Platform.Firestore
import Gbc.Platform.Foundation
import Gbc.Platform.Lowercase

/-!
# The backend

The remote operations of the program with the completion values it looks at, and
a backend that answers them: Firestore collections, Storage objects and accounts.
A `Choice` resolves what the program cannot know, in particular every failure. A load that
does not fail is answered by the server: what Firestore delivers from the cache of a device
that is offline is left out.
-/

namespace Gbc

/-- The collections the program uses. -/
inductive CollectionName where
  | upload
  | infoUpload
  | users
  deriving DecidableEq

/-- A signed-in user. -/
structure User where
  uid : String
  uid_ne : uid ≠ ""
  deriving DecidableEq

/-- The error codes that failures of `createUser` and `signIn` are told apart by. -/
inductive AuthErrorCode where
  | emailAlreadyInUse
  | invalidEmail
  | weakPassword
  | wrongPassword
  | other
  deriving DecidableEq

/-- The remote operations. -/
inductive Request (rules : URLRules) where
  | addDocument (collection : CollectionName) (data : Fields)
  | setData (collection : CollectionName) (document : String) (data : Fields) (merge : Bool)
  | delete (collection : CollectionName) (document : String)
  | getDocuments (collection : CollectionName)
  /-- `collection(collection).whereField(field, isEqualTo: value).getDocuments`. -/
  | query (collection : CollectionName) (field value : String)
  | putData (path : String) (data : ImageData)
  | downloadURL (path : String)
  | loadFrom (url : URL rules)
  /-- `URLSession.shared.dataTask(with: url)`, whose data is made an image of. -/
  | dataTask (url : URL rules)
  | createUser (email password : String)

/-- The document that a write other than `addDocument` is addressed to. -/
def Request.writes {rules : URLRules} : Request rules → Option (CollectionName × String)
  | .setData collection document _ _ => some (collection, document)
  | .delete collection document => some (collection, document)
  | _ => none

/-- What the completion handlers look at. An added document answers with its ID;
a missing value stands for an error. The data of a data task may be no image, as that of an
error page is not. -/
def Request.Response {rules : URLRules} : Request rules → Type
  | .addDocument _ _ => Option String
  | .setData _ _ _ _ => Bool
  | .delete _ _ => Bool
  | .getDocuments _ => Option Snapshot
  | .query _ _ _ => Option Snapshot
  | .putData _ _ => Bool
  | .downloadURL _ => Option (URL rules)
  | .loadFrom _ => Option UIImage
  | .dataTask _ => Option (Option UIImage)
  | .createUser _ _ => Except AuthErrorCode User

/-- The remote interface of the program. -/
abbrev remote (rules : URLRules) : Callback.Interface where
  Request := Request rules
  Response := Request.Response

/-- The documents that an answered load is about to deliver. -/
def delivered {rules : URLRules} {app : Callback.App (remote rules)}
    (pending : Callback.Pending app) : Snapshot :=
  match pending with
  | ⟨_, _, .getDocuments _, _, some (snapshot : Option Snapshot)⟩ => snapshot.getD []
  | _ => []

/-- One version of a Storage object. Its download URL names this version. -/
structure StoredObject (rules : URLRules) where
  path : String
  data : ImageData
  url : URL rules
  deriving DecidableEq

/-- An account of the authentication service. -/
structure Account where
  uid : String
  email : String
  password : String

/-- The backend. `journal` and `storage` list writes and uploads, newest first. -/
structure Server (rules : URLRules) where
  journal : List (CollectionName × Write)
  storage : List (StoredObject rules)
  accounts : List Account

namespace Server

variable {rules : URLRules}

/-- The backend before its first use. -/
def empty (rules : URLRules) : Server rules where
  journal := []
  storage := []
  accounts := []

/-- Apply a write to a collection. -/
def write (server : Server rules) (collection : CollectionName) (write : Write) :
    Server rules :=
  { server with journal := (collection, write) :: server.journal }

/-- The documents that the writes of a journal leave in a collection. -/
def replay (collection : CollectionName) : List (CollectionName × Write) → Collection
  | [] => ∅
  | (written, write) :: journal =>
      if written = collection then write.apply (replay collection journal)
      else replay collection journal

/-- The present content of a collection. -/
def documents (server : Server rules) (collection : CollectionName) : Collection :=
  replay collection server.journal

/-- The documents of a collection with this value of a field, in ascending ID order. -/
def matching (server : Server rules) (collection : CollectionName) (field value : String) :
    Snapshot :=
  (server.documents collection).toList.filter fun document => document.2[field]? == some value

/-- The data that an entry of a journal replaces a document by. -/
def replacement (collection : CollectionName) (document : String) :
    CollectionName × Write → Option Fields
  | (written, .set name data false) =>
      if written = collection ∧ name = document then some data else none
  | _ => none

theorem replacement_eq_some {collection : CollectionName} {document : String}
    {entry : CollectionName × Write} {data : Fields} :
    replacement collection document entry = some data ↔
      entry = (collection, .set document data false) := by
  obtain ⟨written, write⟩ := entry
  cases write with
  | set name fields merge => cases merge <;> simp [replacement, and_assoc]
  | _ => simp [replacement]

/-- The data a document was last replaced by. -/
def lastSet (server : Server rules) (collection : CollectionName) (document : String) :
    Option Fields :=
  server.journal.findSome? (replacement collection document)

/-- A name that no document ever had. -/
def neverUsed (server : Server rules) (name : String) : Bool :=
  name != "" && server.journal.all fun entry => entry.2.document != name

/-- A delete of the document has been applied. -/
def deleted (server : Server rules) (collection : CollectionName) (document : String) : Bool :=
  server.journal.any fun entry =>
    match entry.2 with
    | .delete name => entry.1 == collection && name == document
    | _ => false

/-- The current version of a Storage object. -/
def stored (server : Server rules) (path : String) : Option (StoredObject rules) :=
  server.storage.find? fun object => object.path == path

/-- The version a download URL was issued for. -/
def version (server : Server rules) (url : URL rules) : Option (StoredObject rules) :=
  server.storage.find? fun object => object.url == url

/-- How the backend resolves one operation. -/
inductive Choice (rules : URLRules) where
  | fail
  | refuse (code : AuthErrorCode)
  | ok
  | name (name : String)
  | token (url : URL rules)
  | image (image : UIImage)
  deriving DecidableEq

/-- The operation ends without an error. -/
def Choice.succeeds : Choice rules → Bool
  | .fail => false
  | .refuse _ => false
  | _ => true

/-- Serve one operation. `addDocument` picks a name never used before, an upload
replaces the object at its path and gets a new download URL. -/
def serve (server : Server rules) : (request : Request rules) → Choice rules →
    Option (Server rules × request.Response)
  | .addDocument collection data, .name name =>
      if server.neverUsed name then
        some (server.write collection (.add name data), (some name : Option String))
      else none
  | .addDocument _ _, .fail => some (server, (none : Option String))
  | .setData collection document data merge, .ok =>
      some (server.write collection (.set document data merge), true)
  | .setData _ _ _ _, .fail => some (server, false)
  | .delete collection document, .ok => some (server.write collection (.delete document), true)
  | .delete _ _, .fail => some (server, false)
  | .getDocuments collection, .ok =>
      some (server, (some (server.documents collection).toList : Option Snapshot))
  | .getDocuments _, .fail => some (server, (none : Option Snapshot))
  | .query collection field value, .ok =>
      some (server, (some (server.matching collection field value) : Option Snapshot))
  | .query _ _ _, .fail => some (server, (none : Option Snapshot))
  | .putData path data, .token url =>
      if (server.version url).isNone then
        some ({ server with storage := ⟨path, data, url⟩ :: server.storage }, true)
      else none
  | .putData _ _, .fail => some (server, false)
  | .downloadURL path, .ok =>
      some (server, ((server.stored path).map (·.url) : Option (URL rules)))
  | .downloadURL _, .fail => some (server, (none : Option (URL rules)))
  | .loadFrom url, .image image =>
      match server.version url with
      | some object =>
          if image.picture = object.data.picture then
            some (server, (some image : Option UIImage))
          else none
      | none => none
  | .loadFrom _, .fail => some (server, (none : Option UIImage))
  | .dataTask url, .image image =>
      match server.version url with
      | some object =>
          if image.picture = object.data.picture then
            some (server, (some (some image) : Option (Option UIImage)))
          else none
      | none => none
  | .dataTask _, .ok => some (server, (some none : Option (Option UIImage)))
  | .dataTask _, .fail => some (server, (none : Option (Option UIImage)))
  | .createUser email password, .name uid =>
      if uid_ne : uid ≠ "" then
        if server.accounts.all fun account =>
            account.uid != uid && lowercased account.email != lowercased email then
          some ({ server with accounts := ⟨uid, email, password⟩ :: server.accounts },
            (.ok ⟨uid, uid_ne⟩ : Except AuthErrorCode User))
        else none
      else none
  | .createUser _ _, .refuse code => some (server, (.error code : Except AuthErrorCode User))
  | _, _ => none

end Server

/-- What serving an operation can do: one case for each way it is resolved. -/
inductive Server.Served {rules : URLRules} (server : Server rules) :
    (request : Request rules) → Server rules → request.Response → Prop where
  | added {collection data name} (unused : server.neverUsed name = true) :
      Served server (.addDocument collection data) (server.write collection (.add name data))
        (some name : Option String)
  | addFailed {collection data} :
      Served server (.addDocument collection data) server (none : Option String)
  | set {collection document data merge} :
      Served server (.setData collection document data merge)
        (server.write collection (.set document data merge)) true
  | setFailed {collection document data merge} :
      Served server (.setData collection document data merge) server false
  | deleted {collection document} :
      Served server (.delete collection document) (server.write collection (.delete document)) true
  | deleteFailed {collection document} : Served server (.delete collection document) server false
  | listed {collection} :
      Served server (.getDocuments collection) server
        (some (server.documents collection).toList : Option Snapshot)
  | listFailed {collection} :
      Served server (.getDocuments collection) server (none : Option Snapshot)
  | matched {collection field value} :
      Served server (.query collection field value) server
        (some (server.matching collection field value) : Option Snapshot)
  | matchFailed {collection field value} :
      Served server (.query collection field value) server (none : Option Snapshot)
  | uploaded {path data url} (fresh : (server.version url).isNone = true) :
      Served server (.putData path data)
        { server with storage := ⟨path, data, url⟩ :: server.storage } true
  | uploadFailed {path data} : Served server (.putData path data) server false
  | located {path} :
      Served server (.downloadURL path) server
        ((server.stored path).map (·.url) : Option (URL rules))
  | locateFailed {path} :
      Served server (.downloadURL path) server (none : Option (URL rules))
  | loaded {url object image} (found : server.version url = some object)
      (shows : image.picture = object.data.picture) :
      Served server (.loadFrom url) server (some image : Option UIImage)
  | loadFailed {url} : Served server (.loadFrom url) server (none : Option UIImage)
  | downloaded {url object image} (found : server.version url = some object)
      (shows : image.picture = object.data.picture) :
      Served server (.dataTask url) server (some (some image) : Option (Option UIImage))
  | noImage {url} :
      Served server (.dataTask url) server (some none : Option (Option UIImage))
  | downloadFailed {url} :
      Served server (.dataTask url) server (none : Option (Option UIImage))
  | registered {email password uid} (uid_ne : uid ≠ "")
      (fresh : ∀ account ∈ server.accounts,
        account.uid ≠ uid ∧ lowercased account.email ≠ lowercased email) :
      Served server (.createUser email password)
        { server with accounts := ⟨uid, email, password⟩ :: server.accounts }
        (.ok ⟨uid, uid_ne⟩ : Except AuthErrorCode User)
  | refused {email password code} :
      Served server (.createUser email password) server (.error code : Except AuthErrorCode User)

theorem Server.served_of_serve {rules : URLRules} {server later : Server rules}
    {request : Request rules} {choice : Server.Choice rules} {response : request.Response}
    (served : server.serve request choice = some (later, response)) :
    server.Served request later response := by
  cases request with
  | addDocument collection data =>
      cases choice <;> simp only [Server.serve, reduceCtorEq, Option.some.injEq,
        Option.ite_none_right_eq_some] at served
      · cases served; exact .addFailed
      · obtain ⟨unused, same⟩ := served; cases same; exact .added unused
  | setData collection document data merge =>
      cases choice <;> simp only [Server.serve, reduceCtorEq, Option.some.injEq] at served
      · cases served; exact .setFailed
      · cases served; exact .set
  | delete collection document =>
      cases choice <;> simp only [Server.serve, reduceCtorEq, Option.some.injEq] at served
      · cases served; exact .deleteFailed
      · cases served; exact .deleted
  | getDocuments collection =>
      cases choice <;> simp only [Server.serve, reduceCtorEq, Option.some.injEq] at served
      · cases served; exact .listFailed
      · cases served; exact .listed
  | query collection field value =>
      cases choice <;> simp only [Server.serve, reduceCtorEq, Option.some.injEq] at served
      · cases served; exact .matchFailed
      · cases served; exact .matched
  | putData path data =>
      cases choice <;> simp only [Server.serve, reduceCtorEq, Option.some.injEq,
        Option.ite_none_right_eq_some] at served
      · cases served; exact .uploadFailed
      · obtain ⟨fresh, same⟩ := served; cases same; exact .uploaded fresh
  | downloadURL path =>
      cases choice <;> simp only [Server.serve, reduceCtorEq, Option.some.injEq] at served
      · cases served; exact .locateFailed
      · cases served; exact .located
  | loadFrom url =>
      cases choice <;> simp only [Server.serve, reduceCtorEq, Option.some.injEq] at served
      · cases served; exact .loadFailed
      · split at served
        · rename_i object found
          simp only [Option.ite_none_right_eq_some, Option.some.injEq] at served
          obtain ⟨shows, same⟩ := served
          cases same
          exact .loaded found shows
        · cases served
  | dataTask url =>
      cases choice <;> simp only [Server.serve, reduceCtorEq, Option.some.injEq] at served
      · cases served; exact .downloadFailed
      · cases served; exact .noImage
      · split at served
        · rename_i object found
          simp only [Option.ite_none_right_eq_some, Option.some.injEq] at served
          obtain ⟨shows, same⟩ := served
          cases same
          exact .downloaded found shows
        · cases served
  | createUser email password =>
      cases choice <;> simp only [Server.serve, reduceCtorEq, Option.some.injEq] at served
      · cases served; exact .refused
      · split at served
        · rename_i uid_ne
          simp only [Option.ite_none_right_eq_some, Option.some.injEq] at served
          obtain ⟨fresh, same⟩ := served
          cases same
          exact .registered uid_ne (by simpa using fresh)
        · cases served

/-- The write that an answered operation has applied. -/
def applied {rules : URLRules} (exchange : Callback.Exchange (remote rules)) :
    Option (CollectionName × Write) :=
  match exchange with
  | ⟨.addDocument collection data, (ref : Option String)⟩ =>
      ref.map fun name => (collection, .add name data)
  | ⟨.setData collection document data merge, (written : Bool)⟩ =>
      if written then some (collection, .set document data merge) else none
  | ⟨.delete collection document, (deleted : Bool)⟩ =>
      if deleted then some (collection, .delete document) else none
  | _ => none

/-- The journal grows by the write of the operation that is served. -/
theorem Server.Served.journal {rules : URLRules} {server later : Server rules}
    {request : Request rules} {response : request.Response}
    (served : server.Served request later response) :
    later.journal = (applied ⟨request, response⟩).toList ++ server.journal := by
  cases served <;> rfl

/-- The journal is never shortened. -/
theorem Server.Served.suffix {rules : URLRules} {server later : Server rules}
    {request : Request rules} {response : request.Response}
    (served : server.Served request later response) : server.journal <:+ later.journal :=
  ⟨_, served.journal.symm⟩

/-- An added document has a name that was never used. -/
theorem Server.Served.unused {rules : URLRules} {server later : Server rules}
    {request : Request rules} {response : request.Response}
    (served : server.Served request later response) {collection : CollectionName} {write : Write}
    (writes : applied ⟨request, response⟩ = some (collection, write)) :
    ∀ name data, write = .add name data → server.neverUsed name = true := by
  rintro name data rfl
  cases served with
  | added unused =>
      cases writes
      exact unused
  | set => cases writes
  | deleted => cases writes
  | _ => cases writes

/-- The backend as a service. -/
abbrev firebase (rules : URLRules) : Callback.Service (remote rules) where
  State := Server rules
  Choice := Server.Choice rules
  serve := Server.serve

namespace Server

variable {rules : URLRules} (server : Server rules)

@[simp] theorem write_journal (collection : CollectionName) (write : Write) :
    (server.write collection write).journal = (collection, write) :: server.journal := rfl

theorem write_ne_self (collection : CollectionName) (write : Write) :
    server.write collection write ≠ server :=
  fun same => List.cons_ne_self _ _ (congrArg Server.journal same)

@[simp] theorem write_documents (collection : CollectionName) (write : Write) :
    (server.write collection write).documents collection =
      write.apply (server.documents collection) := by
  simp [Server.write, documents, replay]

theorem write_documents_of_ne {collection other : CollectionName} (write : Write)
    (different : other ≠ collection) :
    (server.write collection write).documents other = server.documents other := by
  simp [Server.write, documents, replay, different.symm]

/-- A write leaves every other document alone. -/
theorem getElem?_documents_write {collection other : CollectionName} {write : Write}
    {document : String} (elsewhere : ¬(collection = other ∧ write.document = document)) :
    ((server.write collection write).documents other)[document]? =
      (server.documents other)[document]? := by
  by_cases same : collection = other
  · subst same
    rw [write_documents, Write.getElem?_apply_of_ne _ _ fun aimed => elsewhere ⟨rfl, aimed⟩]
  · rw [write_documents_of_ne _ _ (Ne.symm same)]

@[simp] theorem empty_documents (collection : CollectionName) :
    (Server.empty rules).documents collection = ∅ := rfl

theorem neverUsed_iff {name : String} : server.neverUsed name = true ↔
    name ≠ "" ∧ ∀ entry ∈ server.journal, entry.2.document ≠ name := by
  simp [neverUsed]

@[simp] theorem deleted_write_add (collection other : CollectionName) (name document : String)
    (data : Fields) : (server.write collection (.add name data)).deleted other document =
      server.deleted other document := by
  simp [deleted]

@[simp] theorem deleted_write_set (collection other : CollectionName) (name document : String)
    (data : Fields) (merge : Bool) :
    (server.write collection (.set name data merge)).deleted other document =
      server.deleted other document := by
  simp [deleted]

@[simp] theorem deleted_write_delete (collection other : CollectionName)
    (name document : String) : (server.write collection (.delete name)).deleted other document =
      (collection == other && name == document || server.deleted other document) := by
  simp [deleted]

/-- A document that was deleted has been used. -/
theorem ne_of_neverUsed_of_deleted {collection : CollectionName} {name document : String}
    (unused : server.neverUsed name = true)
    (deleted : server.deleted collection document = true) : name ≠ document := by
  obtain ⟨entry, member, deletes⟩ := List.any_eq_true.mp deleted
  have different := ((server.neverUsed_iff).mp unused).2 entry member
  obtain ⟨written, write⟩ := entry
  cases write with
  | delete removed =>
      simp only [Bool.and_eq_true, beq_iff_eq] at deletes
      rintro rfl
      exact different deletes.2
  | _ => cases deletes

/-- A document that no write was addressed to is absent. -/
theorem getElem?_replay_eq_none {journal : List (CollectionName × Write)} {name : String}
    (untouched : ∀ entry ∈ journal, entry.2.document ≠ name) (collection : CollectionName) :
    (replay collection journal)[name]? = none := by
  induction journal with
  | nil => simp [replay]
  | cons entry journal inductionHypothesis =>
      have older := inductionHypothesis fun other member =>
        untouched other (List.mem_cons_of_mem _ member)
      simp only [replay]
      split
      · rw [Write.getElem?_apply_of_ne _ _ (untouched entry List.mem_cons_self), older]
      · exact older

/-- The name of an added document is new to every collection. -/
theorem getElem?_documents_of_neverUsed {name : String}
    (unused : server.neverUsed name = true) (collection : CollectionName) :
    (server.documents collection)[name]? = none :=
  getElem?_replay_eq_none ((server.neverUsed_iff).mp unused).2 collection

section Replay

variable {journal : List (CollectionName × Write)} {collection : CollectionName}
  {document key : String}

/-- A write leaves the replay of every other document alone. -/
theorem getElem?_replay_cons {written : CollectionName} {write : Write}
    (elsewhere : ¬(written = collection ∧ write.document = document)) :
    (replay collection ((written, write) :: journal))[document]? =
      (replay collection journal)[document]? := by
  simp only [replay]
  split
  · rename_i same
    exact Write.getElem?_apply_of_ne _ _ fun other => elsewhere ⟨same, other⟩
  · rfl

/-- A document that is there was written to. -/
theorem exists_write_of_replay {stored : Doc}
    (found : (replay collection journal)[document]? = some stored) :
    ∃ write, (collection, write) ∈ journal ∧ write.document = document := by
  induction journal generalizing stored with
  | nil => simp [replay] at found
  | cons entry journal inductionHypothesis =>
      obtain ⟨written, write⟩ := entry
      by_cases aimed : written = collection ∧ write.document = document
      · obtain ⟨rfl, named⟩ := aimed
        exact ⟨write, List.mem_cons_self, named⟩
      · rw [getElem?_replay_cons aimed] at found
        obtain ⟨older, member, named⟩ := inductionHypothesis found
        exact ⟨older, List.mem_cons_of_mem _ member, named⟩

/-- Where nothing is merged, a document is one of the literals that were written to it. -/
theorem literal_of_replay {stored : Doc}
    (replaces : ∀ name data, (collection, Write.set name data true) ∉ journal)
    (found : (replay collection journal)[document]? = some stored) :
    ∃ data, stored = Doc.merge ∅ data ∧ ((collection, Write.add document data) ∈ journal ∨
      (collection, Write.set document data false) ∈ journal) := by
  induction journal generalizing stored with
  | nil => simp [replay] at found
  | cons entry journal inductionHypothesis =>
      obtain ⟨written, write⟩ := entry
      by_cases aimed : written = collection ∧ write.document = document
      · obtain ⟨rfl, rfl⟩ := aimed
        simp only [replay, if_true] at found
        cases write with
        | add name data =>
            refine ⟨data, ?_, .inl List.mem_cons_self⟩
            exact Option.some.inj (found.symm.trans (Write.getElem?_apply_add _ _ _))
        | set name data merge =>
            cases merge with
            | true => exact absurd List.mem_cons_self (replaces name data)
            | false =>
                refine ⟨data, ?_, .inr List.mem_cons_self⟩
                exact Option.some.inj (found.symm.trans (Write.getElem?_apply_set _ _ _))
        | delete name =>
            have gone : ((Write.delete name).apply (replay written journal))[name]? = some stored :=
              found
            rw [Write.getElem?_apply_delete] at gone
            cases gone
      · rw [getElem?_replay_cons aimed] at found
        obtain ⟨data, same, older⟩ := inductionHypothesis
          (fun name data member => replaces name data (List.mem_cons_of_mem _ member)) found
        exact ⟨data, same, older.imp (List.mem_cons_of_mem _) (List.mem_cons_of_mem _)⟩

/-- A document that was added and never deleted is there, and a field that no merge
names keeps the value it was added with. -/
theorem exists_getElem?_replay {data : Fields} {value : Option String}
    (added : (collection, Write.add document data) ∈ journal)
    (adds : ∀ data, (collection, Write.add document data) ∈ journal →
      Fields.value key data = value)
    (sets : ∀ data merge, (collection, Write.set document data merge) ∈ journal →
      merge = true ∧ Fields.value key data = none)
    (kept : (collection, Write.delete document) ∉ journal) :
    ∃ stored, (replay collection journal)[document]? = some stored ∧ stored[key]? = value := by
  induction journal with
  | nil => cases added
  | cons entry journal inductionHypothesis =>
      have older : (collection, Write.add document data) ∈ journal →
          ∃ stored, (replay collection journal)[document]? = some stored ∧ stored[key]? = value :=
        fun added => inductionHypothesis added
          (fun data member => adds data (List.mem_cons_of_mem _ member))
          (fun data merge member => sets data merge (List.mem_cons_of_mem _ member))
          (fun member => kept (List.mem_cons_of_mem _ member))
      obtain ⟨written, write⟩ := entry
      by_cases aimed : written = collection ∧ write.document = document
      · obtain ⟨rfl, rfl⟩ := aimed
        cases write with
        | add name fields =>
            refine ⟨Doc.merge ∅ fields, by simp [replay, Write.document], ?_⟩
            rw [Doc.getElem?_merge, adds fields List.mem_cons_self]
            simp
        | set name fields merge =>
            obtain ⟨rfl, silent⟩ := sets fields merge List.mem_cons_self
            obtain ⟨stored, found, same⟩ := older ((List.mem_cons.mp added).resolve_left (by simp))
            refine ⟨stored.merge fields, ?_, ?_⟩
            · simp only [Write.document] at found ⊢
              simp [replay, found]
            · rw [Doc.getElem?_merge, silent, same, Option.none_or]
        | delete name => exact absurd List.mem_cons_self kept
      · rw [getElem?_replay_cons aimed]
        refine older ((List.mem_cons.mp added).resolve_left ?_)
        rintro same
        cases same
        exact aimed ⟨rfl, rfl⟩

/-- A field of a document was written to it. -/
theorem written_of_replay {stored : Doc} {value : String}
    (found : (replay collection journal)[document]? = some stored)
    (present : stored[key]? = some value) :
    (∃ data, (collection, Write.add document data) ∈ journal ∧
      Fields.value key data = some value) ∨
    ∃ data merge, (collection, Write.set document data merge) ∈ journal ∧
      Fields.value key data = some value := by
  induction journal generalizing stored with
  | nil => simp [replay] at found
  | cons entry journal inductionHypothesis =>
      have older : ∀ {stored : Doc}, (replay collection journal)[document]? = some stored →
          stored[key]? = some value →
          (∃ data, (collection, Write.add document data) ∈ entry :: journal ∧
            Fields.value key data = some value) ∨
          ∃ data merge, (collection, Write.set document data merge) ∈ entry :: journal ∧
            Fields.value key data = some value := by
        intro stored found present
        rcases inductionHypothesis found present with
          ⟨data, member, same⟩ | ⟨data, merge, member, same⟩
        · exact .inl ⟨data, List.mem_cons_of_mem _ member, same⟩
        · exact .inr ⟨data, merge, List.mem_cons_of_mem _ member, same⟩
      obtain ⟨written, write⟩ := entry
      by_cases aimed : written = collection ∧ write.document = document
      · obtain ⟨rfl, rfl⟩ := aimed
        cases write with
        | add name fields =>
            obtain rfl : Doc.merge ∅ fields = stored := by
              simpa [replay, Write.document] using found
            rw [Doc.getElem?_merge] at present
            exact .inl ⟨fields, List.mem_cons_self, by simpa using present⟩
        | set name fields merge =>
            cases named : Fields.value key fields with
            | some new =>
                refine .inr ⟨fields, merge, List.mem_cons_self, ?_⟩
                cases merge <;>
                · simp only [replay, if_true, Write.document, Write.getElem?_apply_merge,
                    Write.getElem?_apply_set, Option.some.injEq] at found
                  subst found
                  simpa [Doc.getElem?_merge, named] using present
            | none =>
                cases merge with
                | false =>
                    simp only [replay, if_true, Write.document, Write.getElem?_apply_set,
                      Option.some.injEq] at found
                    subst found
                    simp [Doc.getElem?_merge, named] at present
                | true =>
                    simp only [replay, if_true, Write.document, Write.getElem?_apply_merge,
                      Option.some.injEq] at found
                    subst found
                    rw [Doc.getElem?_merge, named, Option.none_or] at present
                    cases before : (replay written journal)[name]? with
                    | none => simp [before] at present
                    | some old =>
                        rw [before] at present
                        exact older before present
        | delete name => simp [replay, Write.document] at found
      · rw [getElem?_replay_cons aimed] at found
        exact older found present

/-- A field that a write gives to a document stays there while the document is only merged
into, with the value of that write or of a later merge. -/
theorem exists_value_of_replay (collection : CollectionName)
    (newer older : List (CollectionName × Write)) {write : Write} {value : String}
    (addressed : write.document = document)
    (given : Fields.value key write.fields = some value)
    (merges : ∀ later, (collection, later) ∈ newer → later.document = document →
      ∃ data, later = .set document data true) :
    ∃ stored latest,
      (replay collection (newer ++ (collection, write) :: older))[document]? = some stored ∧
      stored[key]? = some latest ∧ (latest = value ∨
        ∃ data, (collection, Write.set document data true) ∈ newer ∧
          Fields.value key data = some latest) := by
  induction newer with
  | nil =>
      obtain rfl := addressed
      obtain ⟨stored, found, present⟩ := write.exists_getElem?_apply (replay collection older) given
      exact ⟨stored, value, by simpa [replay] using found, present, .inl rfl⟩
  | cons entry newer inductionHypothesis =>
      obtain ⟨stored, latest, found, present, origin⟩ := inductionHypothesis
        fun later member => merges later (List.mem_cons_of_mem _ member)
      have kept : latest = value ∨ ∃ data, (collection, Write.set document data true) ∈
          entry :: newer ∧ Fields.value key data = some latest :=
        origin.imp_right fun ⟨data, member, named⟩ =>
          ⟨data, List.mem_cons_of_mem _ member, named⟩
      obtain ⟨written, later⟩ := entry
      by_cases aimed : written = collection ∧ later.document = document
      · obtain ⟨rfl, addressed⟩ := aimed
        obtain ⟨data, rfl⟩ := merges later List.mem_cons_self addressed
        have merged : (replay written ((written, Write.set document data true) ::
            (newer ++ (written, write) :: older)))[document]? = some (stored.merge data) := by
          simp [replay, found]
        cases named : Fields.value key data with
        | none =>
            refine ⟨_, latest, merged, ?_, kept⟩
            rw [Doc.getElem?_merge, named, Option.none_or, present]
        | some new =>
            refine ⟨_, new, merged, ?_, .inr ⟨data, List.mem_cons_self, named⟩⟩
            rw [Doc.getElem?_merge, named, Option.some_or]
      · refine ⟨stored, latest, ?_, present, kept⟩
        rw [List.cons_append, getElem?_replay_cons aimed]
        exact found

/-- A document that was replaced and not written since has exactly the new fields. -/
theorem getElem?_replay_of_lastSet {server : Server rules} {data : Fields}
    (replaced : server.lastSet collection document = some data)
    (adds : server.journal.Pairwise fun newer older => ∀ name data, newer.2 = .add name data →
      older.2.document ≠ name)
    (sets : ∀ data merge, (collection, Write.set document data merge) ∈ server.journal →
      merge = false)
    (kept : (collection, Write.delete document) ∉ server.journal) :
    (server.documents collection)[document]? = some (Doc.merge ∅ data) := by
  obtain ⟨journal, storage, accounts⟩ := server
  simp only [lastSet, documents] at *
  induction journal with
  | nil => cases replaced
  | cons entry journal inductionHypothesis =>
      obtain ⟨fresh, adds⟩ := List.pairwise_cons.mp adds
      have older := fun replaced => inductionHypothesis replaced adds
        (fun data merge member => sets data merge (List.mem_cons_of_mem _ member))
        (fun member => kept (List.mem_cons_of_mem _ member))
      obtain ⟨written, write⟩ := entry
      by_cases aimed : written = collection ∧ write.document = document
      · obtain ⟨rfl, rfl⟩ := aimed
        cases write with
        | add name fields =>
            -- An older replacement would have used the name of the added document.
            obtain ⟨entry, member, found⟩ := List.exists_of_findSome?_eq_some replaced
            obtain rfl := replacement_eq_some.mp found
            have earlier := (List.mem_cons.mp member).resolve_left (by simp)
            exact absurd rfl (fresh _ earlier name fields rfl)
        | set name fields merge =>
            obtain rfl := sets fields merge List.mem_cons_self
            have newest : fields = data := by
              simpa [replacement, Write.document] using replaced
            simp [replay, Write.document, newest]
        | delete name => exact absurd List.mem_cons_self kept
      · rw [getElem?_replay_cons aimed]
        refine older ?_
        rw [List.findSome?_cons] at replaced
        cases found : replacement collection document (written, write) with
        | none => rwa [found] at replaced
        | some fields =>
            obtain ⟨rfl, rfl⟩ := Prod.mk.inj (replacement_eq_some.mp found)
            exact absurd ⟨rfl, rfl⟩ aimed

/-- A document that was added and never replaced has exactly the fields it was added
with. -/
theorem getElem?_replay_of_added {server : Server rules} {data : Fields}
    (added : (collection, Write.add document data) ∈ server.journal)
    (adds : ∀ other, (collection, Write.add document other) ∈ server.journal → other = data)
    (sets : ∀ data merge, (collection, Write.set document data merge) ∉ server.journal)
    (kept : (collection, Write.delete document) ∉ server.journal) :
    (server.documents collection)[document]? = some (Doc.merge ∅ data) := by
  obtain ⟨journal, storage, accounts⟩ := server
  simp only [documents] at *
  induction journal with
  | nil => cases added
  | cons entry journal inductionHypothesis =>
      obtain ⟨written, write⟩ := entry
      by_cases aimed : written = collection ∧ write.document = document
      · obtain ⟨rfl, rfl⟩ := aimed
        cases write with
        | add name fields =>
            obtain rfl := adds fields List.mem_cons_self
            simp [replay, Write.document]
        | set name fields merge => exact absurd List.mem_cons_self (sets fields merge)
        | delete name => exact absurd List.mem_cons_self kept
      · rw [getElem?_replay_cons aimed]
        refine inductionHypothesis ((List.mem_cons.mp added).resolve_left ?_)
          (fun other member => adds other (List.mem_cons_of_mem _ member))
          (fun data merge member => sets data merge (List.mem_cons_of_mem _ member))
          (fun member => kept (List.mem_cons_of_mem _ member))
        rintro same
        cases same
        exact aimed ⟨rfl, rfl⟩

end Replay

/-- The last document with this value of a field, by document ID. -/
theorem getLast?_matching {collection : CollectionName} {field value document : String}
    {data : Doc} (found : (server.documents collection)[document]? = some data)
    (matching : data[field]? = some value)
    (maximal : ∀ (other : String) (data' : Doc),
      (server.documents collection)[other]? = some data' → data'[field]? = some value →
      other ≤ document) :
    (server.matching collection field value).getLast? = some (document, data) := by
  have ordered := (Std.ExtTreeMap.ordered_keys_toList (t := server.documents collection)).filter
    fun document => document.2[field]? == some value
  refine getLast?_of_pairwise ordered ?_ ?_
  · exact List.mem_filter.mpr
      ⟨Std.ExtTreeMap.mem_toList_iff_getElem?_eq_some.mpr found, by simp [matching]⟩
  · rintro ⟨other, data'⟩ member before
    obtain ⟨listed, same⟩ := List.mem_filter.mp member
    have bounded := maximal other data'
      (Std.ExtTreeMap.mem_toList_iff_getElem?_eq_some.mp listed) (by simpa using same)
    exact String.not_lt.mpr bounded (compareOfLessAndEq_eq_lt.mp before)

end Server

end Gbc
