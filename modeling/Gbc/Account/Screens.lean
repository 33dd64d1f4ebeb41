import Gbc.Platform.Controller

/-!
# Screens of the accounts

The sign-up form, the profile screen, and the Home screen as far as it greets the
user. Of the two screens with an auth state listener, `listeners` holds the
registrations that are alive and `added` counts all that were made.
-/

namespace Gbc

/-- `SignUpViewController`. -/
structure SignUpViewController where
  imageView : Option UIImage
  userName : String
  eMail : String
  passWord : String
  pNumber : String

/-- `ProfileViewController`. -/
structure ProfileViewController where
  handle : Option Nat
  userId : Option String
  userName : Option String
  phone : Option String
  imageUrl : Option String
  email : Option String
  profileImageView : Option UIImage
  emailLabel : String
  userNameTF : String
  phoneTF : String
  listeners : List Nat
  added : Nat

/-- `HomeTabViewController`, without its table of news. -/
structure HomeTabViewController where
  handle : Option Nat
  userId : Option String
  userName : Option String
  welcomeLabel : String
  listeners : List Nat
  added : Nat

namespace Account

/-- A screen of the accounts. -/
inductive Screen where
  | signUp (screen : SignUpViewController)
  | profile (screen : ProfileViewController)
  | home (screen : HomeTabViewController)

/-- The screens that open by themselves. -/
inductive Root where
  | signUp
  | profile
  | home

/-- What a user or the system does to a screen. `authState` is a call of an auth
state listener. -/
inductive Input where
  | editSignUp (userName eMail passWord pNumber : String)
  | pick (image : UIImage)
  | signUpButton
  | viewWillAppear
  | viewWillDisappear
  | authState (listener : Nat) (currentUser : Option User)
  | editProfile (userName phone : String)
  | updateUserData

/-- The body of a handler of one of these screens. -/
abbrev Handler (rules : URLRules) := Handling rules Screen

end Account

instance : Controller Account.Screen SignUpViewController where
  screen := .signUp
  ofScreen | .signUp self => some self | _ => none
  ofScreen_screen _ := rfl

instance : LawfulController Account.Screen SignUpViewController where
  eq_screen {screen _} same := by cases screen <;> cases same; rfl

instance : Controller Account.Screen ProfileViewController where
  screen := .profile
  ofScreen | .profile self => some self | _ => none
  ofScreen_screen _ := rfl

instance : LawfulController Account.Screen ProfileViewController where
  eq_screen {screen _} same := by cases screen <;> cases same; rfl

instance : Controller Account.Screen HomeTabViewController where
  screen := .home
  ofScreen | .home self => some self | _ => none
  ofScreen_screen _ := rfl

instance : LawfulController Account.Screen HomeTabViewController where
  eq_screen {screen _} same := by cases screen <;> cases same; rfl

end Gbc
