import Gbc.Account.ReadBack
import Gbc.Account.Reports
import Gbc.Account.Steady
import Gbc.Callback.Chain

/-!
# Every account has a profile

A sign-up creates its account first and adds the document of the user last. It gets
there if every operation in between succeeds and the form still shows a picture when
the creation of the account is handled; afterwards the form is left without one.
-/

namespace Gbc

open Callback Handler World

variable {rules : URLRules}

namespace Account

/-- Only sign-up screens open. -/
def signUpScreens (_ : AccountWorld rules) : Event (app rules) (firebase rules) → Bool
  | .launch _ .signUp => true
  | .launch _ _ => false
  | _ => true

/-- The form shows a picture that can be encoded. -/
def encodes : Screen → Bool
  | .signUp form => (form.imageView.bind UIImage.jpegData).isSome
  | _ => false

/-- The creation of an account. -/
def creates : Request rules → Bool
  | .createUser _ _ => true
  | _ => false

/-- Every operation after the creation of an account succeeds, and the form shows a
picture that can be encoded when that creation is handled. -/
def signUpsComplete (world : AccountWorld rules) (event : Event (app rules) (firebase rules)) :
    Bool :=
  signUpScreens world event &&
    match event with
    | .serve index choice =>
        (world.pending[index]?).all fun pending => creates pending.request || choice.succeeds
    | .reply index =>
        match world.pending[index]? with
        | some ⟨self, _, request, _, some response⟩ =>
            !registers request response ||
              (world.objects[self]?).all fun target => encodes target.object
        | _ => true
    | _ => true

/-- One document of `users` has this user ID. -/
def HasProfile (server : Server rules) (uid : String) : Prop :=
  ∃! document : String, ∃ data : Doc, (server.documents .users)[document]? = some data ∧
    data["userId"]? = some uid

/-- Nothing has trapped, and when nothing is outstanding every account has exactly one
document. -/
structure Profiled (world : AccountWorld rules) : Prop where
  runs : world.faults = []
  profiles : world.pending = [] → ∀ account ∈ world.server.accounts,
    HasProfile world.server account.uid

/-- The answer of an operation after the creation of an account is no error. -/
def Succeeds (server : Server rules) : (request : Request rules) → request.Response → Prop
  | .putData path _, (uploaded : Bool) => uploaded = true ∧ (server.stored path).isSome = true
  | .downloadURL _, (url : Option (URL rules)) => url.isSome = true
  | .addDocument _ _, (ref : Option String) => ref.isSome = true
  | _, _ => True

/-- A sign-up that succeeds does not trap. -/
def completing (rules : URLRules) : Contract (app rules) (firebase rules) where
  Evolves server later := ∀ path, (server.stored path).isSome = true →
    (later.stored path).isSome = true
  Server _ := True
  Object _ _ := True
  Request server _ request := ∀ path, request = .downloadURL path →
    (server.stored path).isSome = true
  Response server _ request response := Succeeds server request response
  Fault _ := False
  InputGuard screen _ := ∃ form, screen = .signUp form
  ServeGuard _ _ request choice := creates request = true ∨ choice.succeeds = true
  ReplyGuard screen _ request response := registers request response = true →
    encodes screen = true

section Handlers

variable {server : Server rules} {past : Past (app rules)} {form : SignUpViewController}

theorem pictureLocated_completing {uid : String} {url : Option (URL rules)} {screen : Screen}
    (found : url.isSome = true) :
    (completing rules).Safe server past (SignUpViewController.pictureLocated uid url) screen := by
  refine Contract.safe_unwrap.mpr ⟨fun missing => by simp [missing] at found, ?_⟩
  rintro url rfl
  exact safe_this.mpr fun now _ => Contract.safe_fire.mpr ⟨nofun, trivial, trivial⟩

theorem uploadProfileImage_completing {image : UIImage} {uid : String} {screen : Screen} :
    (completing rules).Safe server past (SignUpViewController.uploadProfileImage image uid)
      screen := by
  unfold SignUpViewController.uploadProfileImage
  split
  · trivial
  · refine ⟨nofun, ?_, trivial⟩
    rintro later uploaded target - - ⟨rfl, stored⟩ - -
    refine ⟨fun path same => ?_, ?_, trivial⟩
    · cases same
      exact stored
    · intro _ url target _ _ found _ _
      exact pictureLocated_completing found

theorem signUpButton_completing :
    (completing rules).Safe server past SignUpViewController.signUpButton (.signUp form) := by
  refine safe_this.mpr fun self shown => ?_
  split
  · trivial
  · refine ⟨nofun, ?_, trivial⟩
    intro _ result screen _ _ _ _ encoding
    cases result with
    | error code => trivial
    | ok user =>
        refine safe_this.mpr fun now showing => Contract.safe_unwrap.mpr ⟨fun missing => ?_, ?_⟩
        · have shows := encoding rfl
          rw [LawfulController.eq_screen showing] at shows
          simp [Controller.screen, encodes, missing] at shows
        · exact fun image _ => uploadProfileImage_completing

theorem handle_completing {input : Input} :
    (completing rules).Safe server past ((app rules).handler input) (.signUp form) := by
  cases input with
  | editSignUp userName eMail passWord pNumber => exact ⟨trivial, trivial⟩
  | pick image => exact ⟨trivial, trivial⟩
  | signUpButton => exact signUpButton_completing
  | _ => trivial

end Handlers

section Service

variable {server later : Server rules} {request : Request rules} {response : request.Response}
  {choice : Server.Choice rules}

/-- Uploads keep the path of every object in use. -/
theorem isSome_stored_of_served {path : String} (served : server.Served request later response)
    (stored : (server.stored path).isSome = true) : (later.stored path).isSome = true := by
  cases served with
  | @uploaded other data url fresh =>
      simp only [Server.stored, List.find?_cons]
      split
      · rfl
      · exact stored
  | _ => exact stored

/-- An operation that ends without an error answers without one. -/
theorem succeeds_of_serve (serves : server.serve request choice = some (later, response))
    (ends : creates request = true ∨ choice.succeeds = true)
    (located : ∀ path, request = .downloadURL path → (server.stored path).isSome = true) :
    Succeeds later request response := by
  cases request with
  | addDocument collection data =>
      cases choice with
      | name name =>
          obtain ⟨_, same⟩ := Option.ite_none_right_eq_some.mp serves
          cases same
          rfl
      | fail => simp [creates, Server.Choice.succeeds] at ends
      | _ => cases serves
  | putData path data =>
      cases choice with
      | token url =>
          obtain ⟨_, same⟩ := Option.ite_none_right_eq_some.mp serves
          cases same
          exact ⟨rfl, by simp [Server.stored]⟩
      | fail => simp [creates, Server.Choice.succeeds] at ends
      | _ => cases serves
  | downloadURL path =>
      cases choice with
      | ok => cases serves; simpa [Succeeds] using located path rfl
      | fail => simp [creates, Server.Choice.succeeds] at ends
      | _ => cases serves
  | _ => trivial

end Service

/-- Sign-ups that succeed do not trap, in all interleavings. -/
theorem completing_sound : (completing rules).Sound where
  refl _ _ stored := stored
  trans former latter path stored := latter path (former path stored)
  object _ _ := trivial
  request evolves asked path same := evolves path (asked path same)
  response {_ _ _ request _} evolves succeeds := by
    cases request with
    | putData path data => exact ⟨succeeds.1, evolves path succeeds.2⟩
    | _ => exact succeeds
  root _ _ _ := trivial
  input server past screen input _ _ signUp _ _ _ := by
    obtain ⟨form, rfl⟩ := signUp
    exact handle_completing
  serve _ asked ends serves :=
    ⟨fun _ stored => isSome_stored_of_served (Server.served_of_serve serves) stored, trivial,
      succeeds_of_serve serves ends asked⟩

/-- What the completion handlers of a sign-up start next. -/
def follows : Exchange (remote rules) → List (Request rules) → Prop
  | ⟨.createUser _ _, (.ok user : Except AuthErrorCode User)⟩, started =>
      ∃ data, .putData ("user/" ++ user.uid) data ∈ started
  | ⟨.putData path _, _⟩, started => .downloadURL path ∈ started
  | ⟨.downloadURL path, _⟩, started => ∃ (uid url : String) (form : SignUpViewController),
      path = "user/" ++ uid ∧ .addDocument .users (form.profile uid url) ∈ started
  | ⟨.addDocument _ _, (ref : Option String)⟩, _ => ref.isSome = true
  | _, _ => True

/-- On a sign-up form, an answer without an error starts what follows. -/
def Continues (request : Request rules) (completion : request.Response → Handler rules) : Prop :=
  ∀ (server : Server rules) response form, Succeeds server request response →
    (registers request response = true → encodes (.signUp form) = true) →
    follows ⟨request, response⟩ ((completion response).requests (.signUp form))

section Chains

variable {uid : String} {screen : Screen}

theorem pictureLocated_continues :
    Continues (.downloadURL ("user/" ++ uid) : Request rules)
      (SignUpViewController.pictureLocated uid) := by
  intro server url form found _
  obtain ⟨url, rfl⟩ := Option.isSome_iff_exists.mp found
  exact ⟨uid, url.string, form, rfl, List.mem_cons_self⟩

theorem calls_uploadProfileImage {image : UIImage} :
    (SignUpViewController.uploadProfileImage image uid : Handler rules).Calls Continues screen := by
  unfold SignUpViewController.uploadProfileImage
  split
  · trivial
  · refine ⟨?_, ?_, trivial⟩
    · rintro server uploaded form ⟨rfl, -⟩ -
      exact List.mem_cons_self
    · rintro (_ | _) target
      · trivial
      · refine ⟨pictureLocated_continues, fun url target => ?_, trivial⟩
        refine Code.calls_unwrap fun found _ => calls_this fun now _ => ?_
        exact ⟨fun server ref form added _ => added, fun _ _ => trivial, trivial⟩

theorem userCreated_continues {email password : String} :
    Continues (.createUser email password : Request rules) SignUpViewController.userCreated := by
  rintro server (code | user) form - encoding
  · trivial
  · obtain ⟨data, encoded⟩ := Option.isSome_iff_exists.mp (encoding rfl)
    obtain ⟨image, shown, encoded⟩ := Option.bind_eq_some_iff.mp encoded
    refine ⟨data, ?_⟩
    simp [SignUpViewController.userCreated, SignUpViewController.uploadProfileImage, this,
      Controller.ofScreen, Code.requests, shown, encoded]

theorem calls_signUpButton (screen : Screen) :
    (SignUpViewController.signUpButton : Handler rules).Calls Continues screen := by
  refine calls_this fun self _ => ?_
  split
  · trivial
  · refine ⟨userCreated_continues, ?_, trivial⟩
    rintro (code | user) target
    · trivial
    · exact calls_this fun (now : SignUpViewController) _ => Code.calls_unwrap fun image _ =>
        calls_uploadProfileImage

/-- The chain of a sign-up goes on. -/
theorem calls_signUp {form : SignUpViewController} {input : Input} :
    ((app rules).handler input).Calls Continues (.signUp form) := by
  cases input with
  | signUpButton => exact calls_signUpButton (.signUp form)
  | _ => trivial

end Chains

/-- The screen is a sign-up screen. -/
def Screen.IsSignUp (screen : Screen) : Prop := ∃ form, screen = .signUp form

/-- Only sign-up screens are open in these runs. -/
theorem inhabited_of_reaches {world : AccountWorld rules}
    (reached : (system rules).Reaches signUpsComplete (start rules) world) :
    Inhabited Screen.IsSignUp world := by
  have kept : ∀ {before after}, sessions.keeps before after → before.IsSignUp → after.IsSignUp := by
    rintro before after within ⟨form, rfl⟩
    cases after with
    | signUp form => exact ⟨form, rfl⟩
    | _ => exact within.elim
  refine inhabited_of_reachable kept (fun _ => False.elim)
    (fun input screen => screen.steady_handle input) ?_ reached
  intro world process root passes
  cases root with
  | signUp => exact ⟨_, rfl⟩
  | _ => cases passes

/-- What every world keeps when all sign-ups get to their end. -/
structure SignUps (world : AccountWorld rules) : Prop where
  accounts : Accounts world
  registered : Registered world
  followed : Followed follows world
  began : BeganWith (fun entry : Entry (app rules) => entry.object.IsSignUp) world
  runs : world.faults = []

section Runs

variable {world : AccountWorld rules} {event : Event (app rules) (firebase rules)}

theorem completing_guard (screens : Inhabited Screen.IsSignUp world)
    (passes : signUpsComplete world event = true) : (completing rules).guard world event := by
  obtain ⟨_, passes⟩ := Bool.and_eq_true_iff.mp passes
  cases event with
  | launch process root => trivial
  | input self input => exact fun target placed => screens target (List.mem_of_getElem? placed)
  | serve index choice =>
      intro pending found
      show creates pending.request = true ∨ choice.succeeds = true
      simpa [found] using passes
  | reply index =>
      rintro ⟨self, past, request, completion, _ | response⟩ answer target found answered placed
      · cases answered
      cases answered
      show registers request response = true → encodes target.object = true
      intro registered
      simpa [found, placed, registered] using passes

/-- All steps happen on sign-up screens. -/
theorem onSignUps_of_reaches
    (reached : (system rules).Reaches signUpsComplete (start rules) world) :
    Machine.Reachable (m := system rules) (fun world _ => Inhabited Screen.IsSignUp world)
      (start rules) world :=
  reached.weakenWith fun prior _ _ => inhabited_of_reaches prior

theorem completing_of_reaches
    (reached : (system rules).Reaches signUpsComplete (start rules) world) :
    (completing rules).Holds world := by
  have initial : (completing rules).Holds (start rules) := Contract.holds_initial trivial
  refine Contract.Holds.reachable completing_sound initial ?_
  exact reached.weakenWith fun prior passes _ =>
    completing_guard (inhabited_of_reaches prior) passes

theorem followed_of_reaches
    (reached : (system rules).Reaches signUpsComplete (start rules) world) :
    Followed follows world := by
  refine followed_of_reachable (fun {world event} prior passes => ?_) reached
  rintro index self past request completion response target rfl found placed
  have outstanding := List.mem_of_getElem? found
  have calls : CallsPending Continues world := by
    refine callsPending_of_reachable (fun {world self input target} screens placed => ?_)
      (onSignUps_of_reaches prior)
    obtain ⟨form, shown⟩ := screens target (List.mem_of_getElem? placed)
    rw [shown]
    exact calls_signUp
  have screens := inhabited_of_reaches prior
  obtain ⟨form, shown⟩ := screens target (List.mem_of_getElem? placed)
  have answered := ((completing_of_reaches prior).pending _ outstanding).answer response rfl
  have guarded := completing_guard screens passes _ response target found rfl placed
  rw [shown] at guarded ⊢
  exact (calls _ outstanding).1 _ response form answered guarded

theorem signUps_of_reaches (reached : (system rules).Reaches signUpsComplete (start rules) world) :
    SignUps world where
  accounts := accounts_of_reachable reached
  registered := registered_of_reachable reached
  followed := followed_of_reaches reached
  began := beganWith_of_reachable (fun _ _ _ target screens placed =>
    screens target (List.mem_of_getElem? placed)) (onSignUps_of_reaches reached)
  runs := List.eq_nil_iff_forall_not_mem.mpr (completing_of_reaches reached).faults

end Runs

section Profiles

variable {world : AccountWorld rules}

/-- When nothing is outstanding, the chain of every account has added its document. -/
theorem SignUps.added (signUps : SignUps world) (settled : world.pending = [])
    {account : Account} (member : account ∈ world.server.accounts) :
    ∃ (document url : String) (form : SignUpViewController),
      (CollectionName.users, Write.add document (form.profile account.uid url)) ∈
        world.server.journal := by
  obtain ⟨past, user, same, created⟩ := signUps.registered account member
  obtain ⟨_, ⟨data, upload⟩, issued⟩ := signUps.followed _ (created.settled settled)
  obtain ⟨uploaded, handled⟩ := (issued _ upload).settled settled
  obtain ⟨_, lookup, issued⟩ := signUps.followed _ handled
  obtain ⟨url, handled⟩ := (issued _ lookup).settled settled
  obtain ⟨_, ⟨uid, text, form, path, adding⟩, issued⟩ := signUps.followed _ handled
  obtain ⟨ref, handled⟩ := (issued _ adding).settled settled
  obtain ⟨_, added, _⟩ := signUps.followed _ handled
  obtain ⟨document, rfl⟩ := Option.isSome_iff_exists.mp added
  obtain rfl := (String.append_right_inj _).mp path
  exact ⟨document, text, form, same ▸ signUps.accounts.ledger.added (.handled handled)⟩

/-- No document of `users` is replaced in such a run. -/
theorem SignUps.not_set (signUps : SignUps world) {document : String} {data : Fields}
    {merge : Bool} :
    (CollectionName.users, Write.set document data merge) ∉ world.server.journal := by
  intro written
  obtain ⟨past, set⟩ := signUps.accounts.ledger.accounted written
  obtain ⟨form, began⟩ := signUps.began past set.occurs
  cases signUps.accounts.origins.answered set with
  | update updating => cases began.symm.trans updating

/-- When nothing is outstanding, every account has exactly one document. -/
theorem SignUps.hasProfile (signUps : SignUps world) (settled : world.pending = [])
    {account : Account} (member : account ∈ world.server.accounts) :
    HasProfile world.server account.uid := by
  obtain ⟨document, url, form, added⟩ := signUps.added settled member
  have owner : Fields.value "userId" (form.profile account.uid url) = some account.uid := rfl
  have kept : world.server.lastSet .users document = none := by
    refine List.findSome?_eq_none_iff.mpr fun entry written => ?_
    refine Option.eq_none_iff_forall_ne_some.mpr fun data replaced => ?_
    rw [Server.replacement_eq_some.mp replaced] at written
    exact signUps.not_set written
  refine ⟨document, ⟨_, signUps.accounts.document_of_added added kept, ?_⟩, ?_⟩
  · rw [Doc.getElem?_merge, owner]
    rfl
  · rintro other ⟨data, found, owned⟩
    rcases Server.written_of_replay found owned with
      ⟨fields, written, named⟩ | ⟨fields, merge, written, named⟩
    · exact (signUps.accounts.added_unique written named added owner).1
    · exact absurd written signUps.not_set

end Profiles

/-- If every sign-up that creates an account succeeds from there on, and shows a picture
by then, nothing traps and every account ends with exactly one document. -/
theorem accounts_have_profiles (rules : URLRules) (world : AccountWorld rules)
    (reached : (system rules).Reaches signUpsComplete (start rules) world) : Profiled world :=
  have signUps := signUps_of_reaches reached
  ⟨signUps.runs, fun settled _ member => signUps.hasProfile settled member⟩

/-- A sign-up gets to its end. -/
theorem accounts_have_profiles_signedUp :
    ∃ world : AccountWorld anyText,
      ((world.pending.isEmpty && !world.server.accounts.isEmpty) = true) ∧ Profiled world := by
  obtain ⟨world, reached, settled⟩ := Machine.exists_reaches (m := system anyText)
    signUpsComplete (start anyText) (signingUp "d1")
    (fun world => world.pending.isEmpty && !world.server.accounts.isEmpty) (by decide +kernel)
  exact ⟨world, settled, accounts_have_profiles _ world reached⟩

/-- The second sign-up on a form finds no picture and traps. -/
theorem second_sign_up_traps :
    ¬ ∀ (rules : URLRules) (world : AccountWorld rules),
      (system rules).Reaches signUpScreens (start rules) world → Profiled world := by
  intro profiled
  obtain ⟨world, reached, trapped⟩ := Machine.exists_reaches (m := system anyText)
    signUpScreens (start anyText) signingUpTwice (fun world => !world.faults.isEmpty)
    (by decide +kernel)
  simp [(profiled _ world reached).runs] at trapped

end Account

end Gbc
