import Gbc.Account.Handlers
import Gbc.Market.Screens
import Gbc.Semantics.Machine

/-!
# The session of a device

Which screens the window shows and whom Firebase has signed in. The Firebase user
belongs to the device and outlives the process. A sign-in or sign-up switches it when
it is answered; the completion handler runs later. A sign-up's picture and document
do not touch the session and are left to the account program.
-/

namespace Gbc

variable {rules : URLRules}

/-- The user that these credentials sign in. E-mail addresses ignore case. -/
def Server.user (server : Server rules) (email password : String) : Option User :=
  (server.accounts.find? fun account =>
    lowercased account.email == lowercased email &&
      account.password == password).bind fun account =>
      if uid_ne : account.uid ≠ "" then some ⟨account.uid, uid_ne⟩ else none

namespace Session

/-- `GIDProfileData`. -/
structure GIDProfileData where
  email : Option String

/-- `GIDGoogleUser`. -/
structure GIDGoogleUser where
  userID : String
  profile : Option GIDProfileData

/-- A login step with its outcome. -/
inductive Login where
  | email (result : Except AuthErrorCode User)
  | google (user : Option GIDGoogleUser)

/-- The Firebase user a login step authenticated. A Google user is none. -/
def Login.user : Login → Option User
  | .email (.ok user) => some user
  | _ => none

/-- A screen above the login screen. History: the tab screens, and the screens opened
from them, remember the login step that led to them. -/
inductive Place where
  | signUp
  | addInfo
  | tabBar (login : Login)
  | converter (login : Login)
  | detail (login : Login)
  | detailedInfo (login : Login)
  | upload (login : Login)
  | manage (login : Login)
  | update (login : Login)
  /-- `userId` is the property of `ProfileViewController` of this name. -/
  | profile (login : Login) (userId : Option String)

namespace Place

/-- The login step behind a tab screen. -/
def login : Place → Option Login
  | .signUp | .addInfo => none
  | .tabBar login | .converter login | .detail login | .detailedInfo login | .upload login
  | .manage login | .update login | .profile login _ => some login

/-- The screen that opens this one. Tab bars are opened by the login screen, or as the root. -/
def opener : Place → Option Place
  | .signUp | .addInfo | .tabBar _ => none
  | .converter login | .detail login | .detailedInfo login | .upload login | .manage login
  | .profile login _ => some (.tabBar login)
  | .update login => some (.manage login)

/-- A screen is opened for the login of the one that opens it. -/
theorem login_of_opener {place opened : Place} (opens : opened.opener = some place) :
    opened.login = place.login := by
  cases opened <;> cases opens <;> rfl

/-- The user ID a screen has stored. -/
def userId : Place → Option String
  | .profile _ userId => userId
  | _ => none

end Place

/-- The root view controller of the window: the navigation controller "navID" with
the screens pushed over the login screen, or the tab bar controller "tabBarCont" with
the screens presented over it. The topmost screen is the first. -/
inductive Window where
  | navigation (pushed : List Place)
  | tabBar (login : Login) (presented : List Place)

namespace Window

/-- The topmost screen; none is the login screen. -/
def shown : Window → Option Place
  | .navigation pushed => pushed.head?
  | .tabBar login presented => some (presented.headD (.tabBar login))

/-- All screens above the login screen. -/
def places : Window → List Place
  | .navigation pushed => pushed
  | .tabBar login presented => presented ++ [.tabBar login]

/-- A `show` segue from the topmost screen. -/
def push (place : Place) : Window → Window
  | .navigation pushed => .navigation (place :: pushed)
  | .tabBar login presented => .tabBar login (place :: presented)

/-- The topmost screen goes away: the back button, or the OK of the sign-up alert. -/
def back : Window → Window
  | .navigation pushed => .navigation pushed.tail
  | .tabBar login presented => .tabBar login presented.tail

/-- `navigationController?.popViewController(animated:)` and `dismiss(animated:)` of
the Home screen. A tab bar that is the root has no navigation controller. -/
def popViewController : Window → Window
  | .navigation pushed => .navigation pushed.tail
  | window => window

/-- `performSegue(withIdentifier:)` of the login screen, which is only seen while its
navigation controller is the root. -/
def performSegue (place : Place) : Window → Window
  | .navigation pushed => .navigation (place :: pushed)
  | window => window

end Window

/-- The two calls of Firebase Auth that the program waits for. -/
inductive AuthCall where
  | signIn
  | createUser
  deriving DecidableEq

/-- An outstanding call, answered or not. -/
structure Operation where
  call : AuthCall
  email : String
  password : String
  answer : Option (Except AuthErrorCode User)

/-- Something done for a user: a posting, the Manage list, or a profile update. -/
structure Act where
  login : Login
  uid : String

/-- A press of log-out: whether it left the Home screen, and who was signed in then. -/
structure LogOut where
  left : Bool
  currentUser : Option User

/-- A device with the one process of the program, and the backend. `acts` and
`logOuts` are history variables. -/
structure Device (rules : URLRules) where
  server : Server rules
  /-- `Auth.auth().currentUser`. -/
  currentUser : Option User
  /-- The process has not trapped. -/
  running : Bool
  window : Window
  outstanding : List Operation
  alerts : List String
  faults : List Fault
  acts : List Act
  logOuts : List LogOut

/-- What the user does to the topmost screen. Buttons come with what the text fields
show; a call of the auth state listener is an input as well. -/
inductive Input where
  | loginButton (userName passWord : String)
  | showSignUp
  | signUpButton (form : SignUpViewController)
  | back
  | showConverter
  | showDetail
  | showDetailedInfo
  | showUpload
  | showManage
  | showUpdate
  | showProfile
  | uploadButton (form : UploadMarketPlaceViewController)
  | authState
  | updateUserData
  /-- `throws`: the keychain refuses to forget the user. `again`: the second pop of one
  press pops as well, and is not ignored while the first one is animated. -/
  | logOutPressed (throws again : Bool)

/-- The screen that a button or a row of this one opens by a segue. The Manage screen is apart. -/
def Place.segue : Place → Input → Option Place
  | .tabBar login, .showConverter => some (.converter login)
  | .tabBar login, .showDetail => some (.detail login)
  | .tabBar login, .showDetailedInfo => some (.detailedInfo login)
  | .tabBar login, .showUpload => some (.upload login)
  | .tabBar login, .showProfile => some (.profile login none)
  | .manage login, .showUpdate => some (.update login)
  | _, _ => none

/-- A segue opens a screen for the login of the one below, which stores no user ID yet. -/
theorem Place.of_segue {place opened : Place} {input : Input}
    (opens : place.segue input = some opened) :
    opened.opener = some place ∧ opened.userId = none ∧ ∃ login, opened.login = some login := by
  unfold Place.segue at opens
  split at opens <;> cases opens <;> exact ⟨rfl, rfl, _, rfl⟩

/-- What may happen next on a device. -/
inductive Event (rules : URLRules) where
  | restart
  | input (input : Input)
  /-- Google sign-in calls its delegate: with a user, or without one after an error. -/
  | google (user : Option GIDGoogleUser)
  | serve (index : Nat) (choice : Server.Choice rules)
  | reply (index : Nat)

namespace Device

/-- A device on which the program has just been installed and started. -/
def installed (server : Server rules) : Device rules where
  server := server
  currentUser := none
  running := true
  window := .navigation []
  outstanding := []
  alerts := []
  faults := []
  acts := []
  logOuts := []

variable (device : Device rules)

/-- Present an alert. -/
def alert (title : String) : Device rules := { device with alerts := title :: device.alerts }

/-- Stop the process. -/
def trap (fault : Fault) : Device rules :=
  { device with running := false, faults := fault :: device.faults }

/-- Start a call of Firebase Auth. -/
def start (call : AuthCall) (email password : String) : Device rules :=
  { device with outstanding := device.outstanding ++ [⟨call, email, password, none⟩] }

/-- Go on to a screen. -/
def push (place : Place) : Device rules := { device with window := device.window.push place }

/-- Act for a user. -/
def act (login : Login) (uid : String) : Device rules :=
  { device with acts := ⟨login, uid⟩ :: device.acts }

end Device

namespace ViewController

variable (device : Device rules)

def loginButton (userName passWord : String) : Device rules :=
  if userName = "jonsnow@gmail.com" ∧ passWord = "hello123" then
    { device with window := device.window.performSegue .addInfo }
  else if userName = "jonsnow@gmail.com" ∧ passWord ≠ "hello123" then
    device.alert " Access Denied"
  else if userName = "" ∨ passWord = "" then device.alert "Invalid Details"
  else device.start .signIn (lowercased userName) passWord

/-- The title of the alert after a refused login. -/
def errorAlert : AuthErrorCode → String
  | .wrongPassword => "Wrong Password"
  | .invalidEmail => "Invalid Email"
  | _ => "Sign Up Unsucessfull"

/-- The completion handler of `signIn`. -/
def signedIn : Except AuthErrorCode User → Device rules
  | .ok user =>
      { device with window := device.window.performSegue (.tabBar (.email (.ok user))) }
  | .error code => device.alert (errorAlert code)

end ViewController

namespace SignUpViewController

variable (device : Device rules)

def signUpButton (form : Gbc.SignUpViewController) : Device rules :=
  if form.incomplete then device.alert "Invalid Details"
  else device.start .createUser form.eMail form.passWord

/-- The completion handler of `createUser`. -/
def userCreated : Except AuthErrorCode User → Device rules
  | .ok _ => device.alert "Sign Up Sucessfull!"
  | .error code => device.alert (Gbc.SignUpViewController.errorAlert code)

end SignUpViewController

namespace AppDelegate

variable (device : Device rules)

/-- `application(_:didFinishLaunchingWithOptions:)` in a new process. -/
def didFinishLaunching : Device rules :=
  { device with
    running := true
    window := .navigation []
    outstanding := []
    alerts := [] }

/-- `sign(_:didSignInFor:withError:)`. It looks at the user before any error. -/
def sign (user : Option GIDGoogleUser) : Device rules :=
  match user.bind (·.profile) with
  | none => device.trap .googleUser
  | some _ => { device with window := .tabBar (.google user) [] }

end AppDelegate

/-- `Auth.auth().signOut()`, if it does not throw. It cannot throw when nobody is
signed in. -/
def signOut (throws : Bool) (device : Device rules) : Option (Device rules) :=
  if throws && device.currentUser.isSome then none else some { device with currentUser := none }

/-- Note a log-out in the history. -/
def Device.loggedOut (before device : Device rules) : Device rules :=
  let left :=
    match before.window with
    | .navigation _ => true
    | .tabBar _ _ => false
  { device with logOuts := ⟨left, device.currentUser⟩ :: device.logOuts }

/-- `logOutPressed`. The condition `GIDGoogleUser.self != nil` of its second half is about
a metatype and always holds, so that half pops even if `signOut` threw. -/
def HomeTabViewController.logOutPressed (throws again : Bool) (device : Device rules) :
    Device rules :=
  match signOut throws device with
  | some signedOut =>
      let popped := signedOut.window.popViewController
      device.loggedOut
        { signedOut with window := if again then popped.popViewController else popped }
  | none => device.loggedOut { device with window := device.window.popViewController }

/-- `uploadButton` of the posting form: the user it writes into the posting. -/
def UploadMarketPlaceViewController.uploadButton (login : Login)
    (form : Gbc.UploadMarketPlaceViewController) (device : Device rules) : Device rules :=
  if form.texts.incomplete form.segment then device.alert "Invalid Details"
  else
    match device.currentUser with
    | none => device.trap .currentUser
    | some user => device.act login user.uid

/-- Opening the Manage screen, whose `currentUser` is initialised by a forced unwrap. -/
def ManagePostingsViewController.opened (login : Login) (device : Device rules) :
    Device rules :=
  match device.currentUser with
  | none => device.trap .currentUser
  | some user => (device.act login user.uid).push (.manage login)

namespace ProfileViewController

/-- The auth state listener of the profile screen shown. -/
def authState (login : Login) (device : Device rules) : Device rules :=
  match device.currentUser with
  | none => device
  | some user =>
      { device with window := device.window.back.push (.profile login (some user.uid)) }

/-- `updateUserData`, once the profile has been loaded. -/
def updateUserData (login : Login) (userId : Option String) (device : Device rules) :
    Device rules :=
  match userId with
  | none => device.trap .profile
  | some userId => device.act login userId

end ProfileViewController

/-- How the backend answers a call. -/
def Operation.respond (operation : Operation) (server : Server rules) :
    Server.Choice rules → Option (Server rules × Except AuthErrorCode User) :=
  match operation.call with
  | .signIn => fun
      | .ok =>
          (server.user operation.email operation.password).map fun user => (server, .ok user)
      | .refuse code => some (server, .error code)
      | _ => none
  | .createUser => server.serve (.createUser operation.email operation.password)

/-- The completion handler of a call. -/
def Operation.completion (operation : Operation) (result : Except AuthErrorCode User)
    (device : Device rules) : Device rules :=
  match operation.call with
  | .signIn => ViewController.signedIn device result
  | .createUser => SignUpViewController.userCreated device result

namespace Device

/-- The topmost screen reacts to an input. -/
def handle (device : Device rules) (input : Input) : Device rules :=
  match device.window.shown, input with
  | none, .loginButton userName passWord => ViewController.loginButton device userName passWord
  | none, .showSignUp => device.push .signUp
  | some .signUp, .signUpButton form => SignUpViewController.signUpButton device form
  | some (.tabBar login), .showManage => ManagePostingsViewController.opened login device
  | some (.tabBar _), .logOutPressed throws again =>
      HomeTabViewController.logOutPressed throws again device
  | some (.upload login), .uploadButton form =>
      UploadMarketPlaceViewController.uploadButton login form device
  | some (.profile login _), .authState => ProfileViewController.authState login device
  | some (.profile login userId), .updateUserData =>
      ProfileViewController.updateUserData login userId device
  | _, .back => { device with window := device.window.back }
  | none, _ => device
  | some place, input => (place.segue input).elim device device.push

/-- Firebase answers a call, and switches the current user if it succeeds. -/
def serve (device : Device rules) (index : Nat) (choice : Server.Choice rules) :
    Option (Device rules) :=
  match device.outstanding[index]? with
  | some ⟨call, email, password, none⟩ =>
      ((⟨call, email, password, none⟩ : Operation).respond device.server choice).map
        fun answered =>
          { device with
            server := answered.1
            currentUser := answered.2.toOption.or device.currentUser
            outstanding := device.outstanding.set index ⟨call, email, password, some answered.2⟩ }
  | _ => none

/-- The completion handler of an answered call runs. -/
def reply (device : Device rules) (index : Nat) : Option (Device rules) :=
  match device.outstanding[index]? with
  | some ⟨call, email, password, some result⟩ =>
      some ((⟨call, email, password, some result⟩ : Operation).completion result
        { device with outstanding := device.outstanding.eraseIdx index })
  | _ => none

/-- The effect of one event, if it can happen. A process that trapped is only
followed by a new one. -/
def step (device : Device rules) : Event rules → Option (Device rules)
  | .restart => some (AppDelegate.didFinishLaunching device)
  | .input input => if device.running then some (device.handle input) else none
  | .google user => if device.running then some (AppDelegate.sign device user) else none
  | .serve index choice => if device.running then device.serve index choice else none
  | .reply index => if device.running then device.reply index else none

end Device

/-- Devices as a machine. -/
abbrev machine (rules : URLRules) : Machine where
  State := Device rules
  Event := Event rules
  step := Device.step

end Session

end Gbc
