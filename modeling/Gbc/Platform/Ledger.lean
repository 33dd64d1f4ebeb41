import Gbc.Callback.History
import Gbc.Platform.Backend

/-!
# The ledger of a run

What the backend stores is accounted for by answered operations: every write of the
journal, every Storage object and every located download URL belongs to exactly the
operations that a world has seen answered. The ledger holds in every run of every
program over the backend.
-/

namespace Gbc

open Callback World

variable {rules : URLRules} {app : App (remote rules)}

/-- The operation behind a write. -/
def AccountedFor (world : World app (firebase rules)) (collection : CollectionName) :
    Write → Prop
  | .add document data => ∃ past,
      world.Answered past ⟨.addDocument collection data, (some document : Option String)⟩
  | .set document data merge => ∃ past,
      world.Answered past ⟨.setData collection document data merge, true⟩
  | .delete document => ∃ past, world.Answered past ⟨.delete collection document, true⟩

/-- Every added document has a name that no older write is addressed to. -/
def FreshAdds (journal : List (CollectionName × Write)) : Prop :=
  journal.Pairwise fun newer older => ∀ name data, newer.2 = .add name data →
    older.2.document ≠ name

/-- The backend holds what has been answered. -/
structure Ledger (world : World app (firebase rules)) : Prop where
  added : ∀ {past collection data} {document : String},
    world.Answered past ⟨.addDocument collection data, (some document : Option String)⟩ →
    (collection, Write.add document data) ∈ world.server.journal
  /-- A document ID is the answer of one operation only. -/
  owner : ∀ {past other collection collection' data data'} {document : String},
    world.Answered past ⟨.addDocument collection data, (some document : Option String)⟩ →
    world.Answered other ⟨.addDocument collection' data', (some document : Option String)⟩ →
    past = other ∧ data = data'
  accounted : ∀ {collection write}, (collection, write) ∈ world.server.journal →
    AccountedFor world collection write
  /-- A document is added under a name that no write was addressed to. -/
  fresh : FreshAdds world.server.journal
  /-- Every version can be told by its download URL. -/
  version : ∀ {object}, object ∈ world.server.storage →
    world.server.version object.url = some object
  uploaded : ∀ {object}, object ∈ world.server.storage →
    ∃ past, world.Answered past ⟨.putData object.path object.data, true⟩
  located : ∀ {past path} {url : URL rules},
    world.Answered past ⟨.downloadURL path, (some url : Option (URL rules))⟩ →
    ∃ object ∈ world.server.storage, object.path = path ∧ object.url = url
  account : ∀ {past email password} {user : User},
    world.Answered past ⟨.createUser email password, (.ok user : Except AuthErrorCode User)⟩ →
    ⟨user.uid, email, password⟩ ∈ world.server.accounts
  /-- A user ID is the answer of one operation only. -/
  registrant : ∀ {past other email email' password password'} {user user' : User},
    world.Answered past ⟨.createUser email password, (.ok user : Except AuthErrorCode User)⟩ →
    world.Answered other
      ⟨.createUser email' password', (.ok user' : Except AuthErrorCode User)⟩ →
    user.uid = user'.uid → past = other

variable {world next : World app (firebase rules)} {event : Event app (firebase rules)}

theorem AccountedFor.step {collection : CollectionName} {write : Write}
    (accounted : AccountedFor world collection write) (taken : world.step event = some next) :
    AccountedFor next collection write := by
  cases write with
  | add document data => exact accounted.imp fun _ answered => answered.step taken
  | set document data merge => exact accounted.imp fun _ answered => answered.step taken
  | delete document => exact accounted.imp fun _ answered => answered.step taken

/-- An answer that names neither a document nor a URL nor a user. -/
def Silent : Exchange (remote rules) → Prop
  | ⟨.addDocument _ _, (ref : Option String)⟩ => ref = none
  | ⟨.downloadURL _, (url : Option (URL rules))⟩ => url = none
  | ⟨.createUser _ _, (user : Except AuthErrorCode User)⟩ => user.toOption = none
  | _ => True

/-- A step whose only new answers are silent keeps the ledger when it keeps the
accounts of journal and storage. -/
theorem Ledger.silent (ledger : Ledger world)
    (answers : ∀ past exchange, next.Answered past exchange →
      world.Answered past exchange ∨ Silent exchange)
    (journal : world.server.journal ⊆ next.server.journal)
    (storage : world.server.storage ⊆ next.server.storage)
    (accounts : world.server.accounts ⊆ next.server.accounts)
    (accounted : ∀ {collection write}, (collection, write) ∈ next.server.journal →
      AccountedFor next collection write)
    (fresh : FreshAdds next.server.journal)
    (version : ∀ {object}, object ∈ next.server.storage →
      next.server.version object.url = some object)
    (uploaded : ∀ {object}, object ∈ next.server.storage →
      ∃ past, next.Answered past ⟨.putData object.path object.data, true⟩) : Ledger next where
  added answered := by
    rcases answers _ _ answered with older | silent
    · exact journal (ledger.added older)
    · exact absurd silent (by simp [Silent])
  owner first second := by
    rcases answers _ _ first with older | silent
    · rcases answers _ _ second with older' | silent
      · exact ledger.owner older older'
      · exact absurd silent (by simp [Silent])
    · exact absurd silent (by simp [Silent])
  accounted := accounted
  fresh := fresh
  version := version
  uploaded := uploaded
  located answered := by
    rcases answers _ _ answered with older | silent
    · obtain ⟨object, member, same⟩ := ledger.located older
      exact ⟨object, storage member, same⟩
    · exact absurd silent (by simp [Silent])
  account answered := by
    rcases answers _ _ answered with older | silent
    · exact accounts (ledger.account older)
    · exact absurd silent (by simp [Silent, Except.toOption])
  registrant first second same := by
    rcases answers _ _ first with older | silent
    · rcases answers _ _ second with older' | silent
      · exact ledger.registrant older older' same
      · exact absurd silent (by simp [Silent, Except.toOption])
    · exact absurd silent (by simp [Silent, Except.toOption])

/-- A step that leaves the backend alone and answers silently keeps the ledger. -/
theorem Ledger.idle (ledger : Ledger world) (taken : world.step event = some next)
    (server : next.server = world.server)
    (answers : ∀ past exchange, next.Answered past exchange →
      world.Answered past exchange ∨ Silent exchange) : Ledger next := by
  refine ledger.silent answers ?_ ?_ ?_ ?_ ?_ ?_ ?_
  · rw [server]; exact List.Subset.refl _
  · rw [server]; exact List.Subset.refl _
  · rw [server]; exact List.Subset.refl _
  · intro collection write member
    exact (ledger.accounted (server ▸ member)).step taken
  · rw [server]; exact ledger.fresh
  · intro object member
    rw [server] at member ⊢
    exact ledger.version member
  · intro object member
    exact (ledger.uploaded (server ▸ member)).imp fun _ answered => answered.step taken

/-- An applied write keeps the ledger when it is accounted for. -/
theorem Ledger.write (ledger : Ledger world) (taken : world.step event = some next)
    {collection : CollectionName} {write : Write}
    (server : next.server = world.server.write collection write)
    (here : AccountedFor next collection write) (kept : ∀ name data, write ≠ .add name data)
    (answers : ∀ past exchange, next.Answered past exchange →
      world.Answered past exchange ∨ Silent exchange) : Ledger next := by
  refine ledger.silent answers ?_ ?_ ?_ ?_ ?_ ?_ ?_
  · rw [server]; exact List.subset_cons_self _ _
  · rw [server]; exact List.Subset.refl _
  · rw [server]; exact List.Subset.refl _
  · intro collection' write' member
    rw [server] at member
    rcases List.mem_cons.mp member with same | older
    · cases same
      exact here
    · exact (ledger.accounted older).step taken
  · rw [server]
    exact List.pairwise_cons.mpr
      ⟨fun _ _ name data same => absurd same (kept name data), ledger.fresh⟩
  · intro object member
    rw [server] at member ⊢
    exact ledger.version member
  · intro object member
    rw [server] at member
    exact (ledger.uploaded member).imp fun _ answered => answered.step taken

/-- A stored version keeps the ledger. -/
theorem Ledger.store (ledger : Ledger world) (taken : world.step event = some next)
    {path : String} {data : ImageData} {url : URL rules}
    (fresh : (world.server.version url).isNone = true)
    (server : next.server =
      { world.server with storage := ⟨path, data, url⟩ :: world.server.storage })
    (here : ∃ past, next.Answered past ⟨.putData path data, true⟩)
    (answers : ∀ past exchange, next.Answered past exchange →
      world.Answered past exchange ∨ Silent exchange) : Ledger next := by
  refine ledger.silent answers ?_ ?_ ?_ ?_ ?_ ?_ ?_
  · rw [server]; exact List.Subset.refl _
  · rw [server]; exact List.subset_cons_self _ _
  · rw [server]; exact List.Subset.refl _
  · intro collection write member
    rw [server] at member
    exact (ledger.accounted member).step taken
  · rw [server]; exact ledger.fresh
  · intro object member
    rw [server] at member ⊢
    rcases List.mem_cons.mp member with rfl | older
    · simp [Server.version]
    · have found := ledger.version older
      have different : url ≠ object.url := by
        rintro rfl
        simp [found] at fresh
      simpa [Server.version, different] using found
  · intro object member
    rw [server] at member
    rcases List.mem_cons.mp member with rfl | older
    · exact here
    · exact (ledger.uploaded older).imp fun _ answered => answered.step taken

/-- The current object of a path is one of its versions. -/
theorem Server.mem_of_stored {server : Server rules} {path : String}
    {object : StoredObject rules} (found : server.stored path = some object) :
    object ∈ server.storage ∧ object.path = path :=
  ⟨List.mem_of_find?_eq_some found, by simpa using List.find?_some found⟩

/-- An added document keeps the ledger: its ID is new. -/
theorem Ledger.add (ledger : Ledger world) (taken : world.step event = some next)
    {past : Past app} {collection : CollectionName} {data : Fields} {name : String}
    (unused : world.server.neverUsed name = true)
    (server : next.server = world.server.write collection (.add name data))
    (here : next.Answered past ⟨.addDocument collection data, (some name : Option String)⟩)
    (answers : ∀ other exchange, next.Answered other exchange → world.Answered other exchange ∨
      other = past ∧ exchange = ⟨.addDocument collection data, (some name : Option String)⟩) :
    Ledger next := by
  have old : ∀ {past collection data},
      ¬ world.Answered past ⟨.addDocument collection data, (some name : Option String)⟩ := by
    intro past collection data answered
    exact (world.server.neverUsed_iff.mp unused).2 _ (ledger.added answered) rfl
  refine ⟨?_, ?_, ?_, ?_, ?_, ?_, ?_, ?_, ?_⟩
  · intro past' collection' data' document answered
    rw [server]
    rcases answers _ _ answered with older | ⟨-, same⟩
    · exact List.mem_cons_of_mem _ (ledger.added older)
    · cases same
      exact List.mem_cons_self
  · intro first second _ _ _ _ document answered answered'
    rcases answers _ _ answered with older | ⟨rfl, same⟩
    · rcases answers _ _ answered' with older' | ⟨-, same⟩
      · exact ledger.owner older older'
      · cases same
        exact absurd older old
    · cases same
      rcases answers _ _ answered' with older' | ⟨rfl, same⟩
      · exact absurd older' old
      · cases same
        exact ⟨rfl, rfl⟩
  · intro collection' write member
    rw [server] at member
    rcases List.mem_cons.mp member with same | older
    · cases same
      exact ⟨past, here⟩
    · exact (ledger.accounted older).step taken
  · rw [server]
    refine List.pairwise_cons.mpr ⟨?_, ledger.fresh⟩
    intro entry member name' data' same
    cases same
    exact (world.server.neverUsed_iff.mp unused).2 entry member
  · intro object member
    rw [server] at member ⊢
    exact ledger.version member
  · intro object member
    rw [server] at member
    exact (ledger.uploaded member).imp fun _ answered => answered.step taken
  · intro past' path url answered
    rw [server]
    rcases answers _ _ answered with older | ⟨-, same⟩
    · exact ledger.located older
    · cases same
  · intro past' email password user answered
    rw [server]
    rcases answers _ _ answered with older | ⟨-, same⟩
    · exact ledger.account older
    · cases same
  · intro first second _ _ _ _ user user' answered answered' same
    rcases answers _ _ answered with older | ⟨-, here⟩
    · rcases answers _ _ answered' with older' | ⟨-, here⟩
      · exact ledger.registrant older older' same
      · cases here
    · cases here

/-- A located download URL keeps the ledger: it belongs to the current object. -/
theorem Ledger.locate (ledger : Ledger world) (taken : world.step event = some next)
    {past : Past app} {path : String} (server : next.server = world.server)
    (answers : ∀ other exchange, next.Answered other exchange → world.Answered other exchange ∨
      other = past ∧ exchange = ⟨.downloadURL path,
        ((world.server.stored path).map (·.url) : Option (URL rules))⟩) :
    Ledger next := by
  refine ⟨?_, ?_, ?_, ?_, ?_, ?_, ?_, ?_, ?_⟩
  · intro past' collection data document answered
    rw [server]
    rcases answers _ _ answered with older | ⟨-, same⟩
    · exact ledger.added older
    · cases same
  · intro first second _ _ _ _ document answered answered'
    rcases answers _ _ answered with older | ⟨-, same⟩
    · rcases answers _ _ answered' with older' | ⟨-, same⟩
      · exact ledger.owner older older'
      · cases same
    · cases same
  · intro collection write member
    exact (ledger.accounted (server ▸ member)).step taken
  · rw [server]; exact ledger.fresh
  · intro object member
    rw [server] at member ⊢
    exact ledger.version member
  · intro object member
    exact (ledger.uploaded (server ▸ member)).imp fun _ answered => answered.step taken
  · intro past' path' url answered
    rw [server]
    rcases answers _ _ answered with older | ⟨-, same⟩
    · exact ledger.located older
    · injection same with asked found
      injection asked with samePath
      subst samePath
      obtain ⟨object, stored, rfl⟩ := Option.map_eq_some_iff.mp found.symm
      exact ⟨object, (Server.mem_of_stored stored).1, (Server.mem_of_stored stored).2, rfl⟩
  · intro past' email password user answered
    rw [server]
    rcases answers _ _ answered with older | ⟨-, same⟩
    · exact ledger.account older
    · cases same
  · intro first second _ _ _ _ user user' answered answered' same
    rcases answers _ _ answered with older | ⟨-, here⟩
    · rcases answers _ _ answered' with older' | ⟨-, here⟩
      · exact ledger.registrant older older' same
      · cases here
    · cases here

/-- A new account keeps the ledger: its user ID is new. -/
theorem Ledger.register (ledger : Ledger world) (taken : world.step event = some next)
    {past : Past app} {email password : String} {user : User}
    (fresh : ∀ account ∈ world.server.accounts, account.uid ≠ user.uid)
    (server : next.server =
      { world.server with accounts := ⟨user.uid, email, password⟩ :: world.server.accounts })
    (answers : ∀ other exchange, next.Answered other exchange → world.Answered other exchange ∨
      other = past ∧ exchange =
        ⟨.createUser email password, (.ok user : Except AuthErrorCode User)⟩) :
    Ledger next := by
  refine ⟨?_, ?_, ?_, ?_, ?_, ?_, ?_, ?_, ?_⟩
  · intro past' collection data document answered
    rw [server]
    rcases answers _ _ answered with older | ⟨-, same⟩
    · exact ledger.added older
    · cases same
  · intro first second _ _ _ _ document answered answered'
    rcases answers _ _ answered with older | ⟨-, same⟩
    · rcases answers _ _ answered' with older' | ⟨-, same⟩
      · exact ledger.owner older older'
      · cases same
    · cases same
  · intro collection write member
    rw [server] at member
    exact (ledger.accounted member).step taken
  · rw [server]; exact ledger.fresh
  · intro object member
    rw [server] at member ⊢
    exact ledger.version member
  · intro object member
    rw [server] at member
    exact (ledger.uploaded member).imp fun _ answered => answered.step taken
  · intro past' path url answered
    rw [server]
    rcases answers _ _ answered with older | ⟨-, same⟩
    · exact ledger.located older
    · cases same
  · intro past' email' password' user' answered
    rw [server]
    rcases answers _ _ answered with older | ⟨-, same⟩
    · exact List.mem_cons_of_mem _ (ledger.account older)
    · cases same
      exact List.mem_cons_self
  · intro first second _ _ _ _ user' user'' answered answered' same
    rcases answers _ _ answered with older | ⟨rfl, here⟩
    · rcases answers _ _ answered' with older' | ⟨rfl, here⟩
      · exact ledger.registrant older older' same
      · cases here
        exact absurd same (fresh _ (ledger.account older))
    · cases here
      rcases answers _ _ answered' with older' | ⟨rfl, -⟩
      · exact absurd same.symm (fresh _ (ledger.account older'))
      · rfl

/-- Serving one operation keeps the ledger. -/
theorem Ledger.serve (ledger : Ledger world) (taken : world.step event = some next)
    {past : Past app} {request : Request rules} {later : Server rules}
    {response : request.Response} (server : next.server = later)
    (served : world.server.Served request later response)
    (here : next.Answered past ⟨request, response⟩)
    (answers : ∀ other exchange, next.Answered other exchange →
      world.Answered other exchange ∨ other = past ∧ exchange = ⟨request, response⟩) :
    Ledger next := by
  have silent : Silent ⟨request, response⟩ → ∀ other exchange, next.Answered other exchange →
      world.Answered other exchange ∨ Silent exchange := by
    intro silent other exchange answered
    rcases answers other exchange answered with older | ⟨-, rfl⟩
    · exact .inl older
    · exact .inr silent
  cases served with
  | set => exact ledger.write taken server ⟨past, here⟩ nofun (silent trivial)
  | deleted => exact ledger.write taken server ⟨past, here⟩ nofun (silent trivial)
  | uploaded fresh => exact ledger.store taken fresh server ⟨past, here⟩ (silent trivial)
  | added unused => exact ledger.add taken unused server here answers
  | located => exact ledger.locate taken server answers
  | registered uid_ne fresh =>
      exact ledger.register taken (fun account member => (fresh account member).1) server answers
  | addFailed => exact ledger.idle taken server (silent rfl)
  | locateFailed => exact ledger.idle taken server (silent rfl)
  | refused => exact ledger.idle taken server (silent rfl)
  | _ => exact ledger.idle taken server (silent trivial)

/-- Every step keeps the ledger. -/
theorem Ledger.step (ledger : Ledger world) (taken : world.step event = some next) :
    Ledger next := by
  rcases answers_of_step taken with
    ⟨server, answers⟩ | ⟨past, request, response, choice, serves, _, here, answers⟩
  · exact ledger.idle taken server fun past exchange answered =>
      .inl (answers past exchange answered)
  · exact ledger.serve taken rfl (Server.served_of_serve serves) here answers

/-- The ledger holds in every run. -/
theorem ledger_of_reachable {guard : (machine app (firebase rules)).Guard}
    (reached : Machine.Reachable guard (World.initial app (.empty rules)) world) :
    Ledger world := by
  refine reached.invariant ?_ fun ledger _ taken => ledger.step taken
  have nothing : ∀ {past exchange}, ¬(World.initial app (Server.empty rules) :
      World app (firebase rules)).Answered past exchange := by
    intro past exchange answered
    cases answered with
    | handled member => cases member
    | awaiting member => cases member
  exact ⟨fun answered => absurd answered nothing, fun answered => absurd answered nothing,
    nofun, .nil, nofun, nofun, fun answered => absurd answered nothing,
    fun answered => absurd answered nothing, fun answered => absurd answered nothing⟩

/-- Added documents have names. -/
def AddsNamed (world : World app (firebase rules)) : Prop :=
  ∀ collection document data, (collection, Write.add document data) ∈ world.server.journal →
    document ≠ ""

/-- Added documents have names in every run. -/
theorem addsNamed_of_reachable {guard : (machine app (firebase rules)).Guard}
    (reached : Machine.Reachable guard (World.initial app (.empty rules)) world) :
    AddsNamed world := by
  refine reached.invariant ?_ ?_
  · intro collection document data added
    cases added
  · intro world event next named _ taken collection document data added
    rcases answers_of_step taken with ⟨same, _⟩ | ⟨past, request, response, choice, serves, _⟩
    · exact named collection document data (same ▸ added)
    · have served := Server.served_of_serve serves
      rw [served.journal] at added
      rcases List.mem_append.mp added with here | older
      · have unused := served.unused (Option.mem_toList.mp here) document data rfl
        exact ((Server.neverUsed_iff _).mp unused).1
      · exact named collection document data older

/-- Every account was created by a sign-up that has been answered. -/
def Registered (world : World app (firebase rules)) : Prop :=
  ∀ account ∈ world.server.accounts, ∃ (past : Past app) (user : User),
    user.uid = account.uid ∧
      world.Answered past ⟨.createUser account.email account.password,
        (.ok user : Except AuthErrorCode User)⟩

theorem Registered.step (registered : Registered world) (taken : world.step event = some next) :
    Registered next := by
  have older : ∀ account ∈ world.server.accounts, ∃ (past : Past app) (user : User),
      user.uid = account.uid ∧
        next.Answered past ⟨.createUser account.email account.password,
          (.ok user : Except AuthErrorCode User)⟩ := by
    intro account member
    obtain ⟨past, user, same, answered⟩ := registered account member
    exact ⟨past, user, same, answered.step taken⟩
  intro account member
  rcases answers_of_step taken with
    ⟨server, _⟩ | ⟨past, request, response, choice, serves, _, here, _⟩
  · exact older account (server ▸ member)
  · generalize next.server = later at serves member
    cases Server.served_of_serve serves with
    | @registered email password uid uid_ne fresh =>
        rcases List.mem_cons.mp member with rfl | before
        · exact ⟨past, ⟨uid, uid_ne⟩, rfl, here⟩
        · exact older account before
    | _ => exact older account member

/-- Every account was created by a sign-up in every run. -/
theorem registered_of_reachable {guard : (machine app (firebase rules)).Guard}
    (reached : Machine.Reachable guard (World.initial app (.empty rules)) world) :
    Registered world := by
  refine reached.invariant ?_ fun registered _ taken => registered.step taken
  intro account member
  cases member

/-- Every `setData` that was answered without an error has been applied. -/
def Recorded (world : World app (firebase rules)) : Prop :=
  ∀ (past : Past app) (collection : CollectionName) (document : String) (data : Fields)
    (merge : Bool), world.Answered past ⟨.setData collection document data merge, true⟩ →
    (collection, Write.set document data merge) ∈ world.server.journal

theorem Recorded.step (recorded : Recorded world) (taken : world.step event = some next) :
    Recorded next := by
  intro past collection document data merge answered
  rcases answers_of_step taken with
    ⟨server, older⟩ | ⟨other, request, response, choice, serves, _, _, older⟩
  · rw [server]
    exact recorded _ _ _ _ _ (older _ _ answered)
  · have served := Server.served_of_serve serves
    generalize next.server = later at served
    rcases older _ _ answered with before | ⟨-, same⟩
    · have applied := recorded _ _ _ _ _ before
      cases served with
      | added => exact List.mem_cons_of_mem _ applied
      | set => exact List.mem_cons_of_mem _ applied
      | deleted => exact List.mem_cons_of_mem _ applied
      | _ => exact applied
    · cases same
      cases served with
      | set => exact List.mem_cons_self

/-- Every answered `setData` has been applied in every run. -/
theorem recorded_of_reachable {guard : (machine app (firebase rules)).Guard}
    (reached : Machine.Reachable guard (World.initial app (.empty rules)) world) :
    Recorded world := by
  refine reached.invariant ?_ fun recorded _ taken => recorded.step taken
  intro past collection document data merge answered
  cases answered with
  | handled member => cases member
  | awaiting member => cases member

/-- The picture of this version is stored. -/
def Server.Shows (server : Server rules) (url : URL rules) (image : UIImage) : Prop :=
  ∃ object, server.version url = some object ∧ image.picture = object.data.picture

/-- A stored version stays the version of its URL. -/
theorem Server.Shows.served {server later : Server rules} {request : Request rules}
    {response : request.Response} {url : URL rules} {image : UIImage}
    (shows : server.Shows url image) (served : server.Served request later response) :
    later.Shows url image := by
  obtain ⟨object, found, same⟩ := shows
  cases served with
  | @uploaded path data fresh_url fresh =>
      refine ⟨object, ?_, same⟩
      have different : fresh_url ≠ url := by
        rintro rfl
        simp [found] at fresh
      simpa [Server.version, different] using found
  | _ => exact ⟨object, found, same⟩

/-- The image of a data task's data shows what is stored. -/
theorem Server.Served.shows {server later : Server rules} {url : URL rules} {image : UIImage}
    (served : server.Served (.dataTask url) later (some (some image) : Option (Option UIImage))) :
    later.Shows url image := by
  cases served with
  | downloaded found shows => exact ⟨_, found, shows⟩

/-- A downloaded picture is the one stored under the URL it was downloaded from. -/
def DownloadsShow (world : World app (firebase rules)) : Prop :=
  ∀ (past : Past app) (url : URL rules) (image : UIImage),
    world.Answered past ⟨.dataTask url, (some (some image) : Option (Option UIImage))⟩ →
    world.server.Shows url image

theorem DownloadsShow.step (shows : DownloadsShow world) (taken : world.step event = some next) :
    DownloadsShow next := by
  intro past url image loaded
  rcases answers_of_step taken with
    ⟨server, older⟩ | ⟨served, request, response, choice, serves, _, _, older⟩
  · rw [server]
    exact shows _ _ _ (older _ _ loaded)
  · have resolved := Server.served_of_serve serves
    rcases older _ _ loaded with before | ⟨-, same⟩
    · exact (shows _ _ _ before).served resolved
    · cases same
      exact resolved.shows

/-- Downloads show what is stored in every run. -/
theorem downloadsShow_of_reachable {guard : (machine app (firebase rules)).Guard}
    {server : Server rules}
    (reached : Machine.Reachable guard (World.initial app server) world) : DownloadsShow world := by
  refine reached.invariant ?_ fun shows _ taken => shows.step taken
  intro past url image loaded
  cases loaded with
  | handled member => cases member
  | awaiting member => cases member

end Gbc
