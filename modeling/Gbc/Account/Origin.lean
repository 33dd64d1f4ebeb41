import Gbc.Account.App

/-!
# Where each request of the account screens comes from

As in the two tabs, `Originates` lists every way in which a handler issues a
request. A sign-up reads its picture when `createUser` is answered and its texts when
the picture is located; under `kept` both are those of the press.
-/

namespace Gbc.Account

open Callback Handler

variable {rules : URLRules}

/-- A press of the sign-up button on this form. -/
structure Pressed (entry : Entry (app rules)) (form : SignUpViewController) : Prop where
  began : entry.object = .signUp form
  pressed : entry.input = .signUpButton

/-- The past of the handler that runs after an account has been created. -/
def afterSignUp (entry : Entry (app rules)) (form : SignUpViewController) (user : User) :
    Past (app rules) :=
  Past.answered ⟨entry, []⟩ (.createUser form.eMail form.passWord)
    (.ok user : Except AuthErrorCode User)

/-- The past of the handler that runs after its picture has been uploaded. -/
def afterUpload (entry : Entry (app rules)) (form : SignUpViewController) (user : User)
    (data : ImageData) : Past (app rules) :=
  (afterSignUp entry form user).answered (.putData ("user/" ++ user.uid) data) true

/-- The past of the handler that runs after the picture has been located. -/
def afterLookup (entry : Entry (app rules)) (form : SignUpViewController) (user : User)
    (data : ImageData) (url : URL rules) : Past (app rules) :=
  (afterUpload entry form user data).answered (.downloadURL ("user/" ++ user.uid))
    (some url : Option (URL rules))

@[simp] theorem afterUpload_entry (entry : Entry (app rules)) (form : SignUpViewController)
    (user : User) (data : ImageData) : (afterUpload entry form user data).entry = entry := rfl

/-- A sign-up uploads this picture; under `kept` it is the one shown at the press. -/
structure Uploads (kept : Prop) (entry : Entry (app rules)) (form : SignUpViewController)
    (data : ImageData) : Prop extends Pressed entry form where
  shown : kept → form.imageView.bind UIImage.jpegData = some data

/-- How the handlers of the account screens issue their requests. -/
inductive Originates (kept : Prop) : Past (app rules) → Request rules → Prop where
  | display {past : Past (app rules)} {url : URL rules} : Originates kept past (.dataTask url)
  | query {past : Past (app rules)} {uid : String} :
      Originates kept past (.query .users "userId" uid)
  | register {entry : Entry (app rules)} {form : SignUpViewController}
      (pressed : Pressed entry form) :
      Originates kept ⟨entry, []⟩ (.createUser form.eMail form.passWord)
  | picture {entry : Entry (app rules)} {form : SignUpViewController} {user : User}
      {data : ImageData} (uploads : Uploads kept entry form data) :
      Originates kept (afterSignUp entry form user) (.putData ("user/" ++ user.uid) data)
  | lookup {entry : Entry (app rules)} {form : SignUpViewController} {user : User}
      {data : ImageData} (uploads : Uploads kept entry form data) :
      Originates kept (afterUpload entry form user data) (.downloadURL ("user/" ++ user.uid))
  | profile {entry : Entry (app rules)} {form now : SignUpViewController} {user : User}
      {data : ImageData} {url : URL rules} (uploads : Uploads kept entry form data)
      (same : kept → now.profile = form.profile) :
      Originates kept (afterLookup entry form user data url)
        (.addDocument .users (now.profile user.uid url.string))
  | pick {past : Past (app rules)} {self : ProfileViewController} {path : String}
      {data : ImageData} (began : past.entry.object = .profile self) :
      Originates kept past (.putData path data)
  | pickLookup {past : Past (app rules)} {self : ProfileViewController} {path : String}
      (began : past.entry.object = .profile self) : Originates kept past (.downloadURL path)
  | update {past : Past (app rules)} {self : ProfileViewController}
      {userId email imageUrl : String} (began : past.entry.object = .profile self) :
      Originates kept past (.setData .users userId (self.changes userId email imageUrl) false)

/-- The form still shows what the completion handlers of a sign-up read, as it was at
the press. -/
def formKept (screen : Screen) (past : Past (app rules)) : Request rules → Bool
  | .createUser _ _ =>
      match past.entry.object, screen with
      | .signUp form, .signUp self => self.imageView == form.imageView
      | _, _ => true
  | .downloadURL _ =>
      match past.entry.object, screen with
      | .signUp form, .signUp self =>
          self.userName == form.userName && self.eMail == form.eMail &&
            self.pNumber == form.pNumber
      | _, _ => true
  | _ => true

/-- Every request originates as `Originates` says. -/
def origins (rules : URLRules) (kept : Prop) : Contract (app rules) (firebase rules) where
  Evolves _ _ := True
  Server _ := True
  Object _ _ := True
  Request _ past request := Originates kept past request
  Response _ _ _ _ := True
  Fault _ := True
  InputGuard _ _ := True
  ServeGuard _ _ _ _ := True
  ReplyGuard screen past request _ := kept → formKept screen past request = true

variable {kept : Prop} {server : Server rules} {past : Past (app rules)}
  {entry : Entry (app rules)}

section SignUp

variable {form : SignUpViewController} {user : User} {data : ImageData}

theorem pictureLocated_originates {url : Option (URL rules)} {screen : Screen}
    (uploads : Uploads kept entry form data)
    (same : kept → formKept screen (afterUpload entry form user data)
      (.downloadURL ("user/" ++ user.uid) : Request rules) = true) :
    (origins rules kept).Safe server
      ((afterUpload entry form user data).answered (.downloadURL ("user/" ++ user.uid)) url)
      (SignUpViewController.pictureLocated user.uid url) screen := by
  refine Contract.safe_unwrap.mpr ⟨fun _ => trivial, ?_⟩
  rintro url rfl
  refine safe_this.mpr fun now shown => ?_
  refine Contract.safe_fire.mpr ⟨.profile uploads fun keeps => ?_, trivial, trivial⟩
  obtain rfl : screen = .signUp now := by
    cases screen <;> simp_all [Controller.ofScreen]
  have unchanged := same keeps
  simp only [formKept, afterUpload_entry, uploads.began, Bool.and_eq_true,
    beq_iff_eq] at unchanged
  obtain ⟨⟨userName, eMail⟩, pNumber⟩ := unchanged
  funext uid url
  simp only [SignUpViewController.profile, userName, eMail, pNumber]

theorem uploadProfileImage_originates {image : UIImage} {screen : Screen}
    (pressed : Pressed entry form) (shown : kept → form.imageView = some image) :
    (origins rules kept).Safe server (afterSignUp entry form user)
      (SignUpViewController.uploadProfileImage image user.uid) screen := by
  unfold SignUpViewController.uploadProfileImage
  cases encoded : image.jpegData with
  | none => trivial
  | some imageData =>
      have uploads : Uploads kept entry form imageData :=
        { pressed with shown := fun keeps => by rw [shown keeps]; exact encoded }
      refine ⟨.picture uploads, ?_, trivial⟩
      intro _ success _ _ _ _ _ _
      cases success with
      | false => trivial
      | true =>
          refine ⟨.lookup uploads, ?_, trivial⟩
          intro _ url target _ _ _ _ same
          exact pictureLocated_originates uploads same

theorem signUpButton_originates (pressed : Pressed entry form) :
    (origins rules kept).Safe server ⟨entry, []⟩ SignUpViewController.signUpButton
      (.signUp form) := by
  refine safe_this.mpr fun self shown => ?_
  obtain rfl : form = self := Option.some.inj shown
  split
  · trivial
  · refine ⟨.register pressed, ?_, trivial⟩
    intro _ result screen _ _ _ _ (same : kept → formKept screen _ _ = true)
    cases result with
    | error code => trivial
    | ok user =>
        refine safe_this.mpr fun now showing => ?_
        refine Contract.safe_unwrap.mpr ⟨fun _ => trivial, fun image present => ?_⟩
        refine uploadProfileImage_originates pressed fun keeps => ?_
        obtain rfl : screen = .signUp now := by
          cases screen <;> simp_all [Controller.ofScreen]
        have unchanged := same keeps
        simp only [formKept, pressed.began, beq_iff_eq] at unchanged
        exact unchanged ▸ present

end SignUp

section Readers

variable {screen : Screen}

theorem profileUsers_originates {documents : Snapshot} :
    (origins rules kept).Safe server past (ProfileViewController.showUsers documents)
      screen := by
  induction documents generalizing screen with
  | nil => trivial
  | cons document documents inductionHypothesis =>
      obtain ⟨documentID, data⟩ := document
      refine Contract.safe_unwrap.mpr ⟨fun _ => trivial, fun userName _ => ⟨trivial, ?_⟩⟩
      refine Contract.safe_unwrap.mpr ⟨fun _ => trivial, fun phone _ => ⟨trivial, ?_⟩⟩
      refine Contract.safe_unwrap.mpr ⟨fun _ => trivial, fun image _ => ⟨trivial, ?_⟩⟩
      refine Contract.safe_unwrap.mpr ⟨fun _ => trivial, fun eMail _ =>
        ⟨trivial, trivial, ?_⟩⟩
      unfold ProfileViewController.downloadImage
      cases URL.ofString rules image with
      | none => exact inductionHypothesis
      | some url =>
          refine ⟨.display, ?_, inductionHypothesis⟩
          intro _ picture _ _ _ _ _ _
          cases picture with
          | none => trivial
          | some picture => exact ⟨trivial, trivial⟩

theorem homeUsers_originates {documents : Snapshot} :
    (origins rules kept).Safe server past (HomeTabViewController.showUsers documents)
      screen := by
  induction documents generalizing screen with
  | nil => trivial
  | cons document documents inductionHypothesis =>
      obtain ⟨documentID, data⟩ := document
      exact Contract.safe_unwrap.mpr ⟨fun _ => trivial, fun userName _ =>
        ⟨trivial, inductionHypothesis⟩⟩

theorem profileState_originates {listener : Nat} {currentUser : Option User} :
    (origins rules kept).Safe server past (ProfileViewController.authState listener currentUser)
      screen := by
  refine safe_this.mpr fun self _ => ?_
  cases currentUser with
  | none => trivial
  | some user =>
      show (origins rules kept).Safe server past (if _ then _ else _) screen
      split
      · refine ⟨trivial, .query, ?_, trivial⟩
        intro _ snapshot _ _ _ _ _ _
        cases snapshot with
        | none => trivial
        | some documents => exact profileUsers_originates
      · trivial

theorem homeState_originates {listener : Nat} {currentUser : Option User} :
    (origins rules kept).Safe server past (HomeTabViewController.authState listener currentUser)
      screen := by
  refine safe_this.mpr fun self _ => ?_
  cases currentUser with
  | none => trivial
  | some user =>
      show (origins rules kept).Safe server past (if _ then _ else _) screen
      split
      · refine ⟨trivial, .query, ?_, trivial⟩
        intro _ snapshot _ _ _ _ _ _
        cases snapshot with
        | none => trivial
        | some documents => exact homeUsers_originates
      · trivial

end Readers

section Profile

variable {self : ProfileViewController}

theorem picked_originates {image : UIImage} {screen : Screen}
    (began : past.entry.object = .profile self) :
    (origins rules kept).Safe server past (ProfileViewController.picked image) screen := by
  unfold ProfileViewController.picked
  cases image.pngData with
  | none => trivial
  | some imageData =>
      refine safe_this.mpr fun now _ => ⟨.pick began, ?_, trivial⟩
      intro _ success _ _ _ _ _ _
      cases success with
      | false => trivial
      | true =>
          refine safe_this.mpr fun later _ => ⟨.pickLookup began, ?_, trivial⟩
          intro _ url _ _ _ _ _ _
          cases url with
          | none => trivial
          | some url => exact ⟨trivial, trivial⟩

theorem updateUserData_originates (began : past.entry.object = .profile self) :
    (origins rules kept).Safe server past ProfileViewController.updateUserData
      (.profile self) := by
  refine safe_this.mpr fun now shown => ?_
  obtain rfl : self = now := Option.some.inj shown
  refine Contract.safe_unwrap.mpr ⟨fun _ => trivial, fun userId _ => ?_⟩
  unfold Handler.document
  split
  · trivial
  · refine Contract.safe_unwrap.mpr ⟨fun _ => trivial, fun email _ => ?_⟩
    refine Contract.safe_unwrap.mpr ⟨fun _ => trivial, fun imageUrl _ => ?_⟩
    exact ⟨.update began, fun _ _ _ _ _ _ _ _ => trivial, trivial⟩

theorem viewWillDisappear_originates {screen : Screen} :
    (origins rules kept).Safe server past ProfileViewController.viewWillDisappear screen :=
  safe_this.mpr fun _ _ => Contract.safe_unwrap.mpr ⟨fun _ => trivial, fun _ _ =>
    ⟨trivial, trivial⟩⟩

end Profile

/-- Every handler issues its requests as `Originates` says. -/
theorem handle_originates {screen : Screen} {input : Input} (began : entry.object = screen)
    (given : entry.input = input) :
    (origins rules kept).Safe server ⟨entry, []⟩ (screen.handle input) screen := by
  cases screen with
  | signUp self =>
      cases input with
      | editSignUp userName eMail passWord pNumber => exact ⟨trivial, trivial⟩
      | pick image => exact ⟨trivial, trivial⟩
      | signUpButton => exact signUpButton_originates ⟨began, given⟩
      | _ => trivial
  | profile self =>
      cases input with
      | viewWillAppear => exact ⟨trivial, trivial⟩
      | viewWillDisappear => exact viewWillDisappear_originates
      | authState listener currentUser => exact profileState_originates
      | editProfile userName phone => exact ⟨trivial, trivial⟩
      | pick image => exact picked_originates began
      | updateUserData => exact updateUserData_originates began
      | _ => trivial
  | home self =>
      cases input with
      | viewWillAppear => exact ⟨trivial, trivial⟩
      | authState listener currentUser => exact homeState_originates
      | _ => trivial

/-- The origins of requests are kept in all interleavings. -/
theorem origins_sound (rules : URLRules) (kept : Prop) : (origins rules kept).Sound where
  refl _ := trivial
  trans _ _ := trivial
  object _ _ := trivial
  request _ valid := valid
  response _ _ := trivial
  root _ _ _ := trivial
  input server past screen input _ _ _ given began first := by
    obtain ⟨entry, trail⟩ := past
    obtain rfl : trail = [] := first
    exact handle_originates began given
  serve _ _ _ _ := ⟨trivial, trivial, trivial⟩

/-- Every run keeps the origins of its requests, with `kept` while the completion
handlers of a sign-up find the form as it was at the press. -/
theorem origins_of_reachable {world : AccountWorld rules}
    (reached : Machine.Reachable (m := system rules) (origins rules kept).guard (start rules)
      world) : (origins rules kept).Holds world :=
  Contract.Holds.reachable (origins_sound rules kept) (Contract.holds_initial trivial) reached

end Gbc.Account
