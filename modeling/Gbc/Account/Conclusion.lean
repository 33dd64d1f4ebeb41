import Gbc.Account.ReadBack
import Gbc.Account.Steady
import Gbc.Platform.Settling

/-!
# Every sign-up and every profile update is concluded

Once the users stop, every sign-up comes to its end and has reported how the creation of
its account went, and every profile update has reported how its write went. A handler reports
by calling `present` with an alert, whether or not the screen can still show it.
-/

namespace Gbc.Account

open Callback Handler World

variable {rules : URLRules}

/-- A chain of handlers that began on a sign-up screen. -/
def OnSignUp (past : Past (app rules)) : Prop := ∃ form, past.entry.object = .signUp form

/-- A relation between the operations of the account screens and their completion handlers.
Loads may have any completion handlers. -/
structure Relates (related : Past (app rules) → Screen → (request : Request rules) →
    (request.Response → Handler rules) → Prop) : Prop where
  query {past screen value completion} :
    related past screen (.query .users "userId" value) completion
  display {past screen url completion} : related past screen (.dataTask url) completion
  register {past form email password} : related past (.signUp form) (.createUser email password)
    SignUpViewController.userCreated
  store {past form uid data} : related past (.signUp form) (.putData ("user/" ++ uid) data)
    (SignUpViewController.pictureUploaded uid)
  locate {past form uid} : related past (.signUp form) (.downloadURL ("user/" ++ uid))
    (SignUpViewController.pictureLocated uid)
  add {past screen data} : related past screen (.addDocument .users data) fun _ => .done
  pick {past self path data image} (began : ¬ OnSignUp past) : related past (.profile self)
    (.putData path data) (ProfileViewController.pictureUploaded image)
  lookup {past self path image} (began : ¬ OnSignUp past) : related past (.profile self)
    (.downloadURL path) (ProfileViewController.pictureLocated image)
  update {past self document data} : related past (.profile self)
    (.setData .users document data false) ProfileViewController.userWritten

/-- A sign-up form that is shown later is a sign-up form. -/
theorem signUp_of_kept {form : SignUpViewController} {target : Screen}
    (kept : sessions.keeps (.signUp form) target) : ∃ now, target = .signUp now := by
  cases target with
  | signUp now => exact ⟨now, rfl⟩
  | _ => exact kept.elim

namespace Relates

variable {related : Past (app rules) → Screen → (request : Request rules) →
    (request.Response → Handler rules) → Prop}
  {past : Past (app rules)} {screen : Screen}

theorem issues_uploadProfileImage (relates : Relates related) {image : UIImage} {uid : String}
    {form : SignUpViewController} :
    Code.Issues sessions related past (SignUpViewController.uploadProfileImage image uid)
      (.signUp form) := by
  unfold SignUpViewController.uploadProfileImage
  split
  · trivial
  · refine ⟨relates.store, fun (uploaded : Bool) target kept => ?_, trivial⟩
    obtain ⟨now, rfl⟩ := signUp_of_kept kept
    cases uploaded with
    | false => trivial
    | true =>
        refine ⟨relates.locate, fun url target kept => ?_, trivial⟩
        exact Code.issues_unwrap fun url => issues_this fun self _ =>
          ⟨relates.add, fun _ _ _ => trivial, trivial⟩

theorem issues_signUpButton (relates : Relates related) :
    Code.Issues sessions related past SignUpViewController.signUpButton screen := by
  refine issues_this fun self shown => ?_
  subst shown
  split
  · trivial
  · refine ⟨relates.register, ?_, trivial⟩
    rintro (code | user) target kept
    · trivial
    · refine issues_this fun now shown => Code.issues_unwrap fun image => ?_
      subst shown
      exact relates.issues_uploadProfileImage

theorem issues_picked (relates : Relates related) (began : ¬ OnSignUp past) {image : UIImage} :
    Code.Issues sessions related past (ProfileViewController.picked image) screen := by
  unfold ProfileViewController.picked
  split
  · trivial
  · refine issues_this fun self shown => ?_
    subst shown
    refine ⟨relates.pick began, fun (uploaded : Bool) target kept => ?_, trivial⟩
    cases uploaded with
    | false => trivial
    | true =>
        refine issues_this fun now shown => ?_
        subst shown
        refine ⟨relates.lookup began, ?_, trivial⟩
        rintro (_ | url) target - <;> trivial

theorem issues_profileUsers (relates : Relates related) (documents : Snapshot) :
    Code.Issues sessions related past (ProfileViewController.showUsers documents) screen := by
  induction documents generalizing screen with
  | nil => trivial
  | cons document documents inductionHypothesis =>
      refine Code.issues_unwrap fun userName => Code.issues_unwrap fun phone => ?_
      refine Code.issues_unwrap fun image => Code.issues_unwrap fun eMail => ?_
      show Code.Issues sessions related past (ProfileViewController.downloadImage image _) _
      unfold ProfileViewController.downloadImage
      split
      · exact inductionHypothesis
      · refine ⟨relates.display, ?_, inductionHypothesis⟩
        rintro (_ | image) target - <;> trivial

theorem issues_homeUsers (documents : Snapshot) :
    Code.Issues sessions related past (HomeTabViewController.showUsers documents) screen := by
  induction documents generalizing screen with
  | nil => trivial
  | cons document documents inductionHypothesis =>
      exact Code.issues_unwrap fun userName => inductionHypothesis

theorem issues_profileState (relates : Relates related) {listener : Nat}
    {currentUser : Option User} :
    Code.Issues sessions related past (ProfileViewController.authState listener currentUser)
      screen := by
  refine issues_this fun self _ => ?_
  cases currentUser with
  | none => trivial
  | some user =>
      dsimp only
      split
      · refine ⟨relates.query, ?_, trivial⟩
        rintro (_ | documents) target -
        · trivial
        · exact relates.issues_profileUsers documents
      · trivial

theorem issues_homeState (relates : Relates related) {listener : Nat}
    {currentUser : Option User} :
    Code.Issues sessions related past (HomeTabViewController.authState listener currentUser)
      screen := by
  refine issues_this fun self _ => ?_
  cases currentUser with
  | none => trivial
  | some user =>
      dsimp only
      split
      · refine ⟨relates.query, ?_, trivial⟩
        rintro (_ | documents) target -
        · trivial
        · exact issues_homeUsers documents
      · trivial

theorem issues_updateUserData (relates : Relates related) :
    Code.Issues sessions related past ProfileViewController.updateUserData screen := by
  refine issues_this fun self shown => Code.issues_unwrap fun userId => issues_document ?_
  subst shown
  refine Code.issues_unwrap fun email => Code.issues_unwrap fun imageUrl => ?_
  exact ⟨relates.update, fun _ _ _ => trivial, trivial⟩

/-- All operations of the account screens are related to their completion handlers. -/
theorem issues (relates : Relates related) (past : Past (app rules)) :
    Code.Issues sessions related past ((app rules).handler past.entry.input)
      past.entry.object := by
  show Code.Issues sessions related past (past.entry.object.handle past.entry.input)
    past.entry.object
  cases began : past.entry.object with
  | signUp self =>
      cases past.entry.input with
      | signUpButton => exact relates.issues_signUpButton
      | _ => trivial
  | profile self =>
      cases past.entry.input with
      | viewWillDisappear =>
          exact issues_this fun now _ => Code.issues_unwrap fun handle => trivial
      | authState listener currentUser => exact relates.issues_profileState
      | pick image =>
          refine relates.issues_picked ?_
          rintro ⟨form, other⟩
          cases began.symm.trans other
      | updateUserData => exact relates.issues_updateUserData
      | _ => trivial
  | home self =>
      cases past.entry.input with
      | authState listener currentUser => exact relates.issues_homeState
      | _ => trivial

end Relates

/-- The alert that is presented after the creation of an account. -/
def registrationAlert : Except AuthErrorCode User → String
  | .ok _ => "Sign Up Sucessfull!"
  | .error code => SignUpViewController.errorAlert code

/-- The alert that is presented after the write of a profile. -/
def updateAlert (written : Bool) : String := if written then "Success" else "Error"

/-- What the completion handlers of a sign-up and of a profile update do next. The pictures
of the profile screen are left to themselves. -/
def onward (past : Past (app rules)) :
    Exchange (remote rules) → List (Request rules) → List String → Prop
  | ⟨.createUser _ _, (result : Except AuthErrorCode User)⟩, _, shown =>
      registrationAlert result ∈ shown
  | ⟨.putData path _, (uploaded : Bool)⟩, started, _ =>
      OnSignUp past → uploaded = true → .downloadURL path ∈ started
  | ⟨.downloadURL path, (url : Option (URL rules))⟩, started, _ => OnSignUp past →
      ∃ found uid now, url = some found ∧ path = "user/" ++ uid ∧
        .addDocument .users (SignUpViewController.profile now uid found.string) ∈ started
  | ⟨.setData _ _ _ _, (written : Bool)⟩, _, shown => updateAlert written ∈ shown
  | _, _, _ => True

/-- The answers of the account screens are followed up. -/
theorem relates_followsUp :
    Relates (Code.FollowsUp sessions (onward : Past (app rules) → _)) where
  query _ _ _ := .inr trivial
  display _ _ _ := .inr trivial
  register result _ _ := by
    right
    cases result with
    | ok user => exact List.mem_cons_self
    | error code => exact List.mem_cons_self
  store uploaded target _ := by
    refine .inr fun _ success => ?_
    cases success
    exact List.mem_cons_self
  locate {_ _ uid} url target kept := by
    obtain ⟨now, rfl⟩ := signUp_of_kept kept
    cases url with
    | none => exact .inl trivial
    | some url => exact .inr fun _ => ⟨url, uid, now, rfl, rfl, List.mem_cons_self⟩
  add _ _ _ := .inr trivial
  pick began _ _ _ := .inr fun other => absurd other began
  lookup began _ _ _ := .inr fun other => absurd other began
  update written _ _ := .inr List.mem_cons_self

section Conclusions

variable {world : AccountWorld rules} {entry : Entry (app rules)} {form : SignUpViewController}
  {user : User}

/-- What every world of a run without new inputs keeps. -/
theorem pursues_of_reachable {guard : (system rules).Guard}
    (reached : Machine.Reachable guard (start rules) world) :
    Pursues sessions onward world :=
  World.pursues_of_reachable (fun input screen => screen.steady_handle input)
    (fun past _ => relates_followsUp.issues past) reached

/-- An uploaded picture has been located, and the document of the user has been answered. -/
structure Documented (world : AccountWorld rules) (entry : Entry (app rules))
    (form : SignUpViewController) (user : User) (data : ImageData) (url : URL rules) : Prop where
  located : (afterUpload entry form user data,
    ⟨.downloadURL ("user/" ++ user.uid), (some url : Option (URL rules))⟩) ∈ world.acknowledged
  added : ∃ (now : SignUpViewController) (document : Option String),
    (afterLookup entry form user data url,
      ⟨.addDocument .users (now.profile user.uid url.string), document⟩) ∈ world.acknowledged

/-- A sign-up has gone through all its operations: the alert about the creation of its account
has been presented, and every picture it has uploaded is followed by the document of the user. -/
structure Concluded (world : AccountWorld rules) (entry : Entry (app rules))
    (form : SignUpViewController) (result : Except AuthErrorCode User) : Prop where
  answered : (⟨entry, []⟩, ⟨.createUser form.eMail form.passWord, result⟩) ∈ world.acknowledged
  reported : (Past.answered ⟨entry, []⟩ (.createUser form.eMail form.passWord) result,
    registrationAlert result) ∈ world.alerts
  documented : ∀ user data, result = .ok user →
    (afterSignUp entry form user, ⟨.putData ("user/" ++ user.uid) data, (true : Bool)⟩) ∈
      world.acknowledged → ∃ url, Documented world entry form user data url

/-- When nothing goes on, an uploaded picture is followed by the document of the user. -/
theorem documented_of_settled (pursues : Pursues sessions onward world)
    (settled : (system rules).Settled answering world) (began : entry.object = .signUp form)
    (runs : ¬ world.Stopped entry) {data : ImageData}
    (uploaded : (afterSignUp entry form user,
      ⟨.putData ("user/" ++ user.uid) data, (true : Bool)⟩) ∈ world.acknowledged) :
    ∃ url, Documented world entry form user data url := by
  obtain ⟨_, _, asks, handled, -⟩ := pursues.onward settled runs uploaded
  obtain ⟨found, lookup⟩ := handled _ (asks ⟨form, began⟩ rfl)
  obtain ⟨_, _, follows, handled, -⟩ := pursues.onward settled runs lookup
  obtain ⟨url, uid, now, rfl, path, asked⟩ := follows ⟨form, began⟩
  obtain rfl := (String.append_right_inj _).mp path
  obtain ⟨document, added⟩ := handled _ asked
  exact ⟨url, lookup, now, document, added⟩

/-- Once the users stop, every sign-up comes to its end, in whatever order the backend
answers and the completion handlers run: then its process has trapped, or it is concluded
and nothing of it is outstanding. -/
theorem sign_ups_conclude
    (reached : (system rules).Reaches (system rules).anyStep (start rules) world)
    (pressed : Pressed entry form)
    (issued : world.Issued ⟨entry, []⟩ (.createUser form.eMail form.passWord)) :
    (system rules).Inevitably answering (fun later => later.Stopped entry ∨
      (∃ result, Concluded later entry form result) ∧
        ∀ pending ∈ later.pending, pending.past.entry ≠ entry) world := by
  refine (terminates (app rules) (firebase rules)).inevitably fun later after settled => ?_
  have pursues := pursues_of_reachable (reached.trans (after.weaken fun _ _ _ => rfl))
  by_cases stopped : later.Stopped entry
  · exact .inl stopped
  refine .inr ⟨?_, fun pending member same => ?_⟩
  · obtain ⟨result, answered⟩ := ((issued.later after).ended pursues.homed firebase_responsive
      settled).resolve_left stopped
    obtain ⟨_, _, shows, -, shown⟩ := pursues.onward settled stopped answered
    refine ⟨result, answered, shown _ shows, ?_⟩
    rintro user data rfl uploaded
    exact documented_of_settled pursues settled pressed.began stopped uploaded
  · exact stopped (same ▸ pursues.homed.stopped firebase_responsive settled member)

/-- Once the users stop, every profile update presents the alert about its write, unless its
process has trapped: success if the document of the user has been replaced, or else an error. -/
theorem updates_conclude
    (reached : (system rules).Reaches (system rules).anyStep (start rules) world)
    {past : Past (app rules)} {uid : String} {data : Fields}
    (issued : world.Issued past (.setData .users uid data false)) :
    (system rules).Inevitably answering (fun later => later.Stopped past.entry ∨
      ∃ written : Bool, (past, ⟨.setData .users uid data false, written⟩) ∈ later.acknowledged ∧
        (past.answered (.setData .users uid data false) written, updateAlert written) ∈
          later.alerts ∧
        (written = true → (.users, .set uid data false) ∈ later.server.journal)) world := by
  refine (terminates (app rules) (firebase rules)).inevitably fun later after settled => ?_
  have run := reached.trans (after.weaken fun _ _ _ => rfl)
  have pursues := pursues_of_reachable run
  by_cases stopped : later.Stopped past.entry
  · exact .inl stopped
  obtain ⟨written, answered⟩ := ((issued.later after).ended pursues.homed firebase_responsive
    settled).resolve_left stopped
  obtain ⟨_, _, shows, -, shown⟩ := pursues.onward settled stopped answered
  refine .inr ⟨written, answered, shown _ shows, ?_⟩
  rintro rfl
  exact recorded_of_reachable run _ _ _ _ _ (.handled answered)

end Conclusions

section Schedules

/-- A complete sign-up form has been submitted and nothing has been handled. -/
def signsUp (world : AccountWorld anyText) : Bool :=
  world.pending.any fun pending =>
    match pending.past, pending.request with
    | ⟨⟨_, _, .signUpButton, .signUp form⟩, []⟩, .createUser email password =>
        !form.incomplete && email == form.eMail && password == form.passWord
    | _, _ => false

theorem pressed_of_signsUp {world : AccountWorld anyText} (submitted : signsUp world = true) :
    ∃ entry form, Pressed entry form ∧
      world.Issued ⟨entry, []⟩ (.createUser form.eMail form.passWord) := by
  obtain ⟨⟨self, past, request, completion, answer⟩, member, asked⟩ :=
    List.any_eq_true.mp submitted
  dsimp only at asked
  split at asked
  · rename_i form email password
    simp only [Bool.and_eq_true, beq_iff_eq] at asked
    obtain ⟨⟨-, rfl⟩, rfl⟩ := asked
    exact ⟨_, form, ⟨rfl, rfl⟩, .outstanding member rfl rfl⟩
  · cases asked

/-- The write of an updated profile has been started and not yet been handled. -/
def rewrites (world : AccountWorld anyText) : Bool :=
  world.pending.any fun pending =>
    match pending.request with
    | .setData .users uid data false => uid == "u1" && data == updatedFields
    | _ => false

theorem issued_of_rewrites {world : AccountWorld anyText} (started : rewrites world = true) :
    ∃ past, world.Issued past (.setData .users "u1" updatedFields false) := by
  obtain ⟨⟨self, past, request, completion, answer⟩, member, asked⟩ :=
    List.any_eq_true.mp started
  dsimp only at asked
  split at asked
  · rename_i uid data
    obtain ⟨named, entered⟩ := Bool.and_eq_true_iff.mp asked
    obtain rfl := beq_iff_eq.mp named
    obtain rfl := beq_iff_eq.mp entered
    exact ⟨past, .outstanding member rfl rfl⟩
  · cases asked

theorem sign_ups_conclude_pressed :
    ∃ world entry form, signsUp world = true ∧
      (system anyText).Inevitably answering (fun later => later.Stopped entry ∨
        (∃ result, Concluded later entry form result) ∧
          ∀ pending ∈ later.pending, pending.past.entry ≠ entry) world := by
  obtain ⟨world, reached, submitted⟩ := Machine.exists_reaches (m := system anyText)
    (system anyText).anyStep (start anyText)
    [.launch 0 .signUp, .input 0 (.editSignUp "Alice" "alice@mail" "secret" "902555"),
      .input 0 .signUpButton] signsUp (by decide +kernel)
  obtain ⟨entry, form, pressed, issued⟩ := pressed_of_signsUp submitted
  exact ⟨world, entry, form, submitted, sign_ups_conclude reached pressed issued⟩

theorem updates_conclude_pressed :
    ∃ (world : AccountWorld anyText) (past : Past (app anyText)), rewrites world = true ∧
      (system anyText).Inevitably answering (fun later => later.Stopped past.entry ∨
        ∃ written : Bool,
          (past, ⟨.setData .users "u1" updatedFields false, written⟩) ∈ later.acknowledged ∧
          (past.answered (.setData .users "u1" updatedFields false) written,
            updateAlert written) ∈ later.alerts ∧
          (written = true →
            (.users, .set "u1" updatedFields false) ∈ later.server.journal)) world := by
  obtain ⟨world, reached, started⟩ := Machine.exists_reaches (m := system anyText)
    (system anyText).anyStep (start anyText) ((updating "d1").take 19) rewrites
    (by decide +kernel)
  obtain ⟨past, issued⟩ := issued_of_rewrites started
  exact ⟨world, past, started, updates_conclude reached issued⟩

end Schedules

end Gbc.Account
