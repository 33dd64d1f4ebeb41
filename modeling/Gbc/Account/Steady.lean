import Gbc.Account.App
import Gbc.Callback.Slots

/-!
# What the account screens keep

A screen stays of its class, no screen opens another one, and the profile screen never
forgets that a user has signed in. Other properties of the profile screen are written
by the answers to its loads, downloads and lookups only.
-/

namespace Gbc.Account

open Callback Handler World

variable {rules : URLRules}

/-- The later screen is of the same class and has a user ID if the earlier one had. -/
def Screen.Within : Screen → Screen → Prop
  | .signUp _, .signUp _ => True
  | .home _, .home _ => True
  | .profile before, .profile after => before.userId.isSome = true → after.userId.isSome = true
  | _, _ => False

/-- Screens stay within their class and their session, and none is created by a handler. -/
abbrev sessions : Frame Screen where
  keeps := Screen.Within
  made _ := False
  refl screen := by
    cases screen with
    | profile self => exact id
    | _ => trivial
  trans {first second third} former latter := by
    cases first <;> cases second <;> cases third <;>
      first | exact former.elim | exact latter.elim | exact fun set => latter (former set) | trivial

/-- A frame that allows every change which leaves the listeners of a screen alone and
does not end its session. -/
structure Lax (frame : Frame Screen) : Prop where
  signUp : ∀ before after, frame.keeps (.signUp before) (.signUp after)
  profile : ∀ before after : ProfileViewController, after.handle = before.handle →
    after.listeners = before.listeners →
    (before.userId.isSome = true → after.userId.isSome = true) →
    frame.keeps (.profile before) (.profile after)
  home : ∀ before after : HomeTabViewController, after.listeners = before.listeners →
    frame.keeps (.home before) (.home after)

theorem sessions_lax : Lax sessions where
  signUp _ _ := trivial
  profile _ _ _ _ kept := kept
  home _ _ _ := trivial

section Lax

variable {frame : Frame Screen}

theorem steady_uploadProfileImage (lax : Lax frame) {image : UIImage} {uid : String} :
    (SignUpViewController.uploadProfileImage image uid : Handler rules).Steady frame := by
  unfold SignUpViewController.uploadProfileImage
  split
  · trivial
  · refine ⟨fun (uploaded : Bool) => ?_, trivial⟩
    cases uploaded with
    | false => trivial
    | true =>
        refine ⟨fun (url : Option (URL rules)) => Code.steady_unwrap fun url => ?_, trivial⟩
        exact steady_this fun self =>
          ⟨fun _ => trivial, steady_assign (fun _ => lax.signUp _ _) trivial⟩

theorem steady_signUpButton (lax : Lax frame) :
    (SignUpViewController.signUpButton : Handler rules).Steady frame := by
  refine steady_this fun self => ?_
  split
  · trivial
  · refine ⟨?_, trivial⟩
    rintro (code | user)
    · trivial
    · exact steady_this fun now => Code.steady_unwrap fun image => steady_uploadProfileImage lax

theorem steady_picked (lax : Lax frame) {image : UIImage} :
    (ProfileViewController.picked image : Handler rules).Steady frame := by
  unfold ProfileViewController.picked
  split
  · trivial
  · refine steady_this fun self => ⟨fun (uploaded : Bool) => ?_, trivial⟩
    cases uploaded with
    | false => trivial
    | true =>
        refine steady_this fun now => ⟨?_, trivial⟩
        rintro (_ | url)
        · trivial
        · exact steady_assign (fun _ => lax.profile _ _ rfl rfl id) trivial

/-- A download changes only the image view. -/
theorem steady_downloadImage (lax : Lax frame) {text : String} {next : Handler rules}
    (rest : next.Steady frame) :
    (ProfileViewController.downloadImage text next).Steady frame := by
  unfold ProfileViewController.downloadImage
  split
  · exact rest
  · refine ⟨?_, rest⟩
    rintro (_ | image)
    · trivial
    · exact steady_assign (fun _ => lax.profile _ _ rfl rfl id) trivial

theorem steady_profileUsers (lax : Lax frame) (documents : Snapshot) :
    (ProfileViewController.showUsers documents : Handler rules).Steady frame := by
  have kept : ∀ before after : ProfileViewController, after.handle = before.handle →
      after.listeners = before.listeners → after.userId = before.userId →
      frame.keeps (.profile before) (.profile after) := fun before after handle listeners same =>
    lax.profile before after handle listeners fun set => same ▸ set
  induction documents with
  | nil => trivial
  | cons document documents inductionHypothesis =>
      refine Code.steady_unwrap fun userName => steady_assign (fun _ => kept _ _ rfl rfl rfl) ?_
      refine Code.steady_unwrap fun phone => steady_assign (fun _ => kept _ _ rfl rfl rfl) ?_
      refine Code.steady_unwrap fun image => steady_assign (fun _ => kept _ _ rfl rfl rfl) ?_
      refine Code.steady_unwrap fun eMail => steady_assign (fun _ => kept _ _ rfl rfl rfl) ?_
      refine steady_assign (fun _ => kept _ _ rfl rfl rfl) ?_
      exact steady_downloadImage lax inductionHypothesis

theorem steady_homeUsers (lax : Lax frame) (documents : Snapshot) :
    (HomeTabViewController.showUsers documents : Handler rules).Steady frame := by
  induction documents with
  | nil => trivial
  | cons document documents inductionHypothesis =>
      exact Code.steady_unwrap fun userName =>
        steady_assign (fun _ => lax.home _ _ rfl) inductionHypothesis

theorem steady_profileState (lax : Lax frame) {listener : Nat} {currentUser : Option User} :
    (ProfileViewController.authState listener currentUser : Handler rules).Steady frame := by
  refine steady_this fun self => ?_
  cases currentUser with
  | none => trivial
  | some user =>
      show (if _ then _ else _ : Handler rules).Steady frame
      split
      · refine steady_assign (fun _ => lax.profile _ _ rfl rfl fun _ => rfl) ⟨?_, trivial⟩
        rintro (_ | documents)
        · trivial
        · exact steady_profileUsers lax documents
      · trivial

theorem steady_homeState (lax : Lax frame) {listener : Nat} {currentUser : Option User} :
    (HomeTabViewController.authState listener currentUser : Handler rules).Steady frame := by
  refine steady_this fun self => ?_
  cases currentUser with
  | none => trivial
  | some user =>
      show (if _ then _ else _ : Handler rules).Steady frame
      split
      · refine steady_assign (fun _ => lax.home _ _ rfl) ⟨?_, trivial⟩
        rintro (_ | documents)
        · trivial
        · exact steady_homeUsers lax documents
      · trivial

theorem steady_updateUserData :
    (ProfileViewController.updateUserData : Handler rules).Steady frame := by
  refine steady_this fun self => Code.steady_unwrap fun userId => steady_document ?_
  exact Code.steady_unwrap fun email => Code.steady_unwrap fun imageUrl =>
    ⟨fun written => trivial, trivial⟩

/-- Apart from appearances, no handler touches the listeners or leaves the session of its
screen. -/
theorem Screen.steady_of_lax (lax : Lax frame) (screen : Screen) {input : Input}
    (appears : input ≠ .viewWillAppear) (disappears : input ≠ .viewWillDisappear) :
    (screen.handle input : Handler rules).Steady frame := by
  cases screen with
  | signUp self =>
      cases input with
      | signUpButton => exact steady_signUpButton lax
      | editSignUp userName eMail passWord pNumber =>
          exact steady_assign (fun _ => lax.signUp _ _) trivial
      | pick image => exact steady_assign (fun _ => lax.signUp _ _) trivial
      | _ => trivial
  | profile self =>
      cases input with
      | viewWillAppear => exact absurd rfl appears
      | viewWillDisappear => exact absurd rfl disappears
      | authState listener currentUser => exact steady_profileState lax
      | editProfile userName phone =>
          exact steady_assign (fun _ => lax.profile _ _ rfl rfl id) trivial
      | pick image => exact steady_picked lax
      | updateUserData => exact steady_updateUserData
      | _ => trivial
  | home self =>
      cases input with
      | viewWillAppear => exact absurd rfl appears
      | authState listener currentUser => exact steady_homeState lax
      | _ => trivial

end Lax

/-- No handler leaves the session of its screen. -/
theorem Screen.steady_handle (screen : Screen) (input : Input) :
    (screen.handle input : Handler rules).Steady sessions := by
  cases input with
  | viewWillAppear =>
      cases screen with
      | signUp self => trivial
      | profile self => exact steady_assign (fun _ => id) trivial
      | home self => exact steady_assign (fun _ => trivial) trivial
  | viewWillDisappear =>
      cases screen with
      | profile self =>
          exact steady_this fun now => Code.steady_unwrap fun handle =>
            steady_assign (fun _ => id) trivial
      | _ => trivial
  | _ => exact screen.steady_of_lax sessions_lax nofun nofun

/-- Something that the profile screen holds, written by operations of its own. -/
abbrev profileSlot {Value : Type} (holds : Value → ProfileViewController → Prop) (initial : Value)
    (writes : Past (app rules) → Exchange (remote rules) → Option Value) : Slot (app rules) where
  frame := sessions
  owner screen := ∃ self, screen = .profile self
  Value := Value
  holds value
    | .profile self => holds value self
    | _ => True
  initial := initial
  writes := writes

/-- How the answers that the profile screen handles write something that it holds. -/
structure WritesProfile {Value : Type} (holds : Value → ProfileViewController → Prop)
    (initial : Value) (writes : Past (app rules) → Exchange (remote rules) → Option Value) :
    Prop where
  opened : ∀ self, Root.profile.screen = .profile self → holds initial self
  quiet : ∀ value (self : ProfileViewController) handle userId userNameTF phoneTF listeners added,
    (self.userId.isSome = true → userId.isSome = true) → holds value self →
    holds value { self with handle, userId, userNameTF, phoneTF, listeners, added }
  uploaded : ∀ past path data (uploaded : Bool), writes past ⟨.putData path data, uploaded⟩ = none
  updated : ∀ past uid fields (written : Bool),
    writes past ⟨.setData .users uid fields false, written⟩ = none
  loaded : ∀ past uid (documents : Snapshot) value self, self.userId.isSome = true →
    holds value self →
    (ProfileViewController.showUsers documents : Handler rules).Ends
      ((profileSlot holds initial writes).holds
        ((writes past ⟨.query .users "userId" uid, (some documents : Option Snapshot)⟩).getD value))
      (.profile self)
  refused : ∀ past uid,
    writes past ⟨.query .users "userId" uid, (none : Option Snapshot)⟩ = none
  downloaded : ∀ past url (data : Option (Option UIImage)) value self, holds value self →
    (ProfileViewController.pictureDownloaded data : Handler rules).Ends
      ((profileSlot holds initial writes).holds
        ((writes past ⟨.dataTask url, data⟩).getD value)) (.profile self)
  located : ∀ (past : Past (app rules)) path (url : Option (URL rules)) image value self,
    past.entry.input = .pick image → holds value self →
    (ProfileViewController.pictureLocated image url : Handler rules).Ends
      ((profileSlot holds initial writes).holds
        ((writes past ⟨.downloadURL path, url⟩).getD value)) (.profile self)

section Slots

variable {Value : Type} {holds : Value → ProfileViewController → Prop} {initial : Value}
  {writes : Past (app rules) → Exchange (remote rules) → Option Value}
  {self : ProfileViewController}

/-- An answer that writes nothing leaves what the screen holds. -/
theorem holds_of_silent {past : Past (app rules)} {exchange : Exchange (remote rules)}
    {value : Value} (silent : writes past exchange = none) (held : holds value self) :
    holds ((writes past exchange).getD value) self := by
  rw [silent]
  exact held

/-- The downloads that a load starts respect what the screen holds. -/
theorem profileUsers_respects (writing : WritesProfile holds initial writes)
    {past : Past (app rules)} {documents : Snapshot} :
    (profileSlot holds initial writes).Respects past (ProfileViewController.showUsers documents)
      (.profile self) := by
  induction documents generalizing self with
  | nil => trivial
  | cons document documents inductionHypothesis =>
      refine Slot.respects_unwrap fun userName _ => Slot.respects_unwrap fun phone _ => ?_
      refine Slot.respects_unwrap fun image _ => Slot.respects_unwrap fun eMail _ => ?_
      show (profileSlot holds initial writes).Respects past
        (ProfileViewController.downloadImage image _) _
      unfold ProfileViewController.downloadImage
      split
      · exact inductionHypothesis
      · refine ⟨fun picture target kept => ?_, inductionHypothesis⟩
        cases target with
        | profile now =>
            refine ⟨fun value held => writing.downloaded past _ picture value now held, ?_⟩
            cases picture <;> trivial
        | _ => exact kept.elim

/-- The handlers of the profile screen respect what it holds. -/
theorem handleProfile_respects (writing : WritesProfile holds initial writes)
    {serial place : Nat} {input : Input} :
    (∀ value, holds value self → ((app rules).handler input).Ends
      ((profileSlot holds initial writes).holds value) (.profile self)) ∧
    (profileSlot holds initial writes).Respects ⟨⟨serial, place, input, .profile self⟩, []⟩
      ((app rules).handler input) (.profile self) := by
  have quiet := writing.quiet
  cases input with
  | viewWillAppear => exact ⟨fun value held => quiet value self _ _ _ _ _ _ id held, trivial⟩
  | viewWillDisappear =>
      refine ⟨fun value held => Slot.ends_unwrap fun handle _ => ?_, ?_⟩
      · exact quiet value self _ _ _ _ _ _ id held
      · exact Slot.respects_unwrap fun handle _ => trivial
  | editProfile userName phone =>
      exact ⟨fun value held => quiet value self _ _ _ _ _ _ id held, trivial⟩
  | authState listener currentUser =>
      cases currentUser with
      | none => exact ⟨fun _ held => held, trivial⟩
      | some user =>
          simp only [Code.Ends, Slot.Respects, Screen.handle, handleProfile,
            ProfileViewController.authState, this, Controller.ofScreen]
          split
          · refine ⟨fun value held => quiet value self _ _ _ _ _ _ (fun _ => rfl) held, ?_⟩
            refine ⟨fun snapshot target kept => ?_, trivial⟩
            cases target with
            | profile now =>
                have set : now.userId.isSome = true := kept rfl
                cases snapshot with
                | none =>
                    exact ⟨fun value held => holds_of_silent (writing.refused _ _) held, trivial⟩
                | some documents =>
                    exact ⟨fun value held => writing.loaded _ _ documents value now set held,
                      profileUsers_respects writing⟩
            | _ => exact kept.elim
          · exact ⟨fun _ held => held, trivial⟩
  | pick image =>
      simp only [Code.Ends, Slot.Respects, Screen.handle, handleProfile,
        ProfileViewController.picked]
      split
      · exact ⟨fun _ held => held, trivial⟩
      · refine ⟨fun _ held => held, fun uploaded target kept => ?_, trivial⟩
        cases target with
        | profile now =>
            have silent := writing.uploaded
            cases uploaded with
            | false => exact ⟨fun value held => holds_of_silent (silent _ _ _ _) held, trivial⟩
            | true =>
                refine ⟨fun value held => holds_of_silent (silent _ _ _ _) held,
                  fun url later same => ?_, trivial⟩
                cases later with
                | profile shown =>
                    refine ⟨fun value held => ?_, by cases url <;> trivial⟩
                    exact writing.located _ _ url image value shown rfl held
                | _ => exact same.elim
        | _ => exact kept.elim
  | updateUserData =>
      refine ⟨fun _ held => Slot.ends_unwrap fun userId _ => ?_,
        Slot.respects_unwrap fun userId _ => ?_⟩
      · unfold Handler.document
        split
        · trivial
        · exact Slot.ends_unwrap fun email _ => Slot.ends_unwrap fun imageUrl _ => held
      · unfold Handler.document
        split
        · trivial
        · refine Slot.respects_unwrap fun email _ => Slot.respects_unwrap fun imageUrl _ => ?_
          refine ⟨fun written target kept => ⟨fun value held => ?_, trivial⟩, trivial⟩
          cases target with
          | profile now => exact holds_of_silent (writing.updated _ _ _ _) held
          | _ => exact kept.elim
  | _ => exact ⟨fun _ held => held, trivial⟩

theorem profileSlot_sound (writing : WritesProfile holds initial writes) :
    (profileSlot holds initial writes).Sound where
  steady input screen := Screen.steady_handle screen input
  owner {before after} kept := by
    cases before <;> cases after <;> first | exact kept.elim | simp
  made _ created := created.elim
  root root owns := by
    obtain ⟨self, opened⟩ := owns
    cases root with
    | profile => exact writing.opened _ rfl
    | _ => cases opened
  input past start owns := by
    obtain ⟨⟨serial, place, input, object⟩, trail⟩ := past
    obtain ⟨self, rfl⟩ := owns
    cases start
    exact handleProfile_respects writing

end Slots

end Gbc.Account
