import Gbc.Account.Handlers
import Gbc.Callback.Contract

/-!
# The accounts as a callback program

`Account.app` dispatches the inputs of each screen to its handlers. Its worlds over
`firebase` hold any number of processes, each with any number of screens.
-/

namespace Gbc.Account

open Callback Handler

variable {rules : URLRules}

/-- The screens as they open. -/
def Root.screen : Root → Screen
  | .signUp => .signUp
      { imageView := some ⟨"person.fill", true⟩
        userName := ""
        eMail := ""
        passWord := ""
        pNumber := "" }
  | .profile => .profile
      { handle := none
        userId := none
        userName := none
        phone := none
        imageUrl := none
        email := none
        profileImageView := none
        emailLabel := ""
        userNameTF := ""
        phoneTF := ""
        listeners := []
        added := 0 }
  | .home => .home
      { handle := none
        userId := none
        userName := none
        welcomeLabel := ""
        listeners := []
        added := 0 }

/-- Edits, picks and presses on the sign-up form. -/
def handleSignUp : Input → Handler rules
  | .editSignUp userName eMail passWord pNumber =>
      assign (fun self : SignUpViewController =>
        { self with
          userName := userName
          eMail := eMail
          passWord := passWord
          pNumber := pNumber }) .done
  | .pick image =>
      assign (fun self : SignUpViewController => { self with imageView := some image }) .done
  | .signUpButton => SignUpViewController.signUpButton
  | _ => .done

/-- Appearances, edits, picks and presses on the profile screen. -/
def handleProfile : Input → Handler rules
  | .viewWillAppear => ProfileViewController.viewWillAppear
  | .viewWillDisappear => ProfileViewController.viewWillDisappear
  | .authState listener currentUser => ProfileViewController.authState listener currentUser
  | .editProfile userName phone =>
      assign (fun self : ProfileViewController =>
        { self with userNameTF := userName, phoneTF := phone }) .done
  | .pick image => ProfileViewController.picked image
  | .updateUserData => ProfileViewController.updateUserData
  | _ => .done

/-- Appearances of the Home screen. -/
def handleHome : Input → Handler rules
  | .viewWillAppear => HomeTabViewController.viewWillAppear
  | .authState listener currentUser => HomeTabViewController.authState listener currentUser
  | _ => .done

/-- The handler of an input, by the class of the screen it reaches. -/
def Screen.handle (screen : Screen) (input : Input) : Handler rules :=
  match screen with
  | .signUp _ => handleSignUp input
  | .profile _ => handleProfile input
  | .home _ => handleHome input

/-- The account screens as a program. -/
abbrev app (rules : URLRules) : App (remote rules) where
  Object := Screen
  Root := Root
  Input := Input
  Fault := Fault
  root := Root.screen
  handler input := .look fun screen => screen.handle input

/-- The account screens over the backend. -/
abbrev AccountWorld (rules : URLRules) := World (app rules) (firebase rules)

/-- The account screens over the backend, as a machine. -/
abbrev system (rules : URLRules) : Machine := World.machine (app rules) (firebase rules)

/-- No process has started and nothing is stored. -/
def start (rules : URLRules) : AccountWorld rules := World.initial (app rules) (.empty rules)

section Schedules

/-- The download URL of the first profile picture. -/
def profileURL : URL anyText := ⟨"https://u1/1", by decide⟩

/-- A sign-up is submitted: `createUser` is outstanding. -/
def pressing : List (Event (app anyText) (firebase anyText)) :=
  [.launch 0 .signUp, .input 0 (.editSignUp "Alice" "alice@mail" "secret" "902555"),
    .input 0 .signUpButton]

/-- The form is filled in for another user. -/
def refilling : Event (app anyText) (firebase anyText) :=
  .input 0 (.editSignUp "Bob" "bob@mail" "secret" "902777")

/-- The operations of a sign-up succeed, each outstanding operation at this place: the account
is created, the picture is stored and located, and the document is added under this ID. -/
def finishing (index : Nat) (document : String) :
    List (Event (app anyText) (firebase anyText)) :=
  [.serve index (.token profileURL), .reply index, .serve index .ok, .reply index,
    .serve index (.name document), .reply index]

/-- A sign-up is submitted and all of its operations succeed. -/
def signingUp (document : String) : List (Event (app anyText) (firebase anyText)) :=
  pressing ++ [.serve 0 (.name "u1"), .reply 0] ++ finishing 0 document

/-- Two sign-ups are submitted on one form, the second one before the first one is answered.
The first one gets to its end before the account of the second one is created. -/
def signingUpTwice : List (Event (app anyText) (firebase anyText)) :=
  pressing ++ [refilling, .input 0 .signUpButton, .serve 0 (.name "u1"), .reply 0] ++
    finishing 1 "d1" ++ [.serve 0 (.name "u2"), .reply 0]

end Schedules

end Gbc.Account
