import Gbc.Account.Screens

/-!
# The handlers of the accounts

Signing up creates the account first and its document in `users` last, under an
automatic ID. The profile screen writes the same user's document under the user
ID; it and the Home screen read all documents of the user, the last one wins.
-/

namespace Gbc

open Callback Handler

variable {rules : URLRules}

namespace SignUpViewController

/-- The document literal of `uploadProfileImage`. -/
def profile (self : SignUpViewController) (uid url : String) : Fields :=
  [("userName", self.userName),
   ("eMail", self.eMail),
   ("phone", self.pNumber),
   ("userId", uid),
   ("image", url)]

/-- The form as `uploadProfileImage` leaves it: there is no picture asset "person.fill". -/
def cleared : SignUpViewController where
  imageView := none
  userName := ""
  eMail := ""
  passWord := ""
  pNumber := ""

/-- The completion handler of `downloadURL`. It reads the form as it is by then. -/
def pictureLocated (uid : String) (url : Option (URL rules)) : Account.Handler rules :=
  .unwrap url .downloadURL fun url =>
  this fun self : SignUpViewController =>
  .fire (.addDocument .users (self.profile uid url.string)) <|
  assign (fun _ : SignUpViewController => cleared) .done

/-- The completion handler of `putData`. -/
def pictureUploaded (uid : String) (uploaded : Bool) : Account.Handler rules :=
  if uploaded then .call (.downloadURL ("user/" ++ uid)) (pictureLocated uid) .done
  else .done

def uploadProfileImage (image : UIImage) (uid : String) : Account.Handler rules :=
  match image.jpegData with
  | none => .done
  | some imageData => .call (.putData ("user/" ++ uid) imageData) (pictureUploaded uid) .done

/-- The title of the alert after a refused sign-up. -/
def errorAlert : AuthErrorCode → String
  | .emailAlreadyInUse => "Email - Already in Use"
  | .invalidEmail => "Email ID Invalid"
  | .weakPassword => "Password must be atleast 6 characters"
  | _ => "Sign Up Unsucessfull"

/-- The completion handler of `createUser`. -/
def userCreated (result : Except AuthErrorCode User) : Account.Handler rules :=
  match result with
  | .ok user =>
      .alert "Sign Up Sucessfull!" <|
      this fun self : SignUpViewController =>
      .unwrap self.imageView .imageView fun image =>
      uploadProfileImage image user.uid
  | .error code => .alert (errorAlert code) .done

/-- The check of `signUpButton`. -/
def incomplete (self : SignUpViewController) : Bool :=
  self.userName == "" || self.passWord == "" || self.eMail == "" || self.pNumber == ""

def signUpButton : Account.Handler rules :=
  this fun self : SignUpViewController =>
    if self.incomplete then .alert "Invalid Details" .done
    else .call (.createUser self.eMail self.passWord) userCreated .done

end SignUpViewController

namespace ProfileViewController

/-- The Storage path `"user/\(userId).png"`, where `userId` is an optional. -/
def picturePath : Option String → String
  | none => "user/nil.png"
  | some uid => "user/Optional(\"" ++ uid ++ "\").png"

/-- The completion handler of `downloadURL` in `imagePickerController`. -/
def pictureLocated (image : UIImage) (url : Option (URL rules)) : Account.Handler rules :=
  match url with
  | none => .done
  | some url =>
      assign (fun self : ProfileViewController =>
        { self with imageUrl := some url.string, profileImageView := some image }) .done

/-- The completion handler of `putData` in `imagePickerController`. -/
def pictureUploaded (image : UIImage) (uploaded : Bool) : Account.Handler rules :=
  if uploaded then
    this fun self : ProfileViewController =>
    .call (.downloadURL (picturePath self.userId)) (pictureLocated image) .done
  else .done

/-- `imagePickerController(_:didFinishPickingMediaWithInfo:)`. -/
def picked (image : UIImage) : Account.Handler rules :=
  match image.pngData with
  | none => .done
  | some imageData =>
      this fun self : ProfileViewController =>
      .call (.putData (picturePath self.userId) imageData) (pictureUploaded image) .done

/-- The completion handler of the data task in `downloadImage`. Data that is no image clears
the image view. -/
def pictureDownloaded (data : Option (Option UIImage)) : Account.Handler rules :=
  match data with
  | none => .done
  | some image =>
      assign (fun self : ProfileViewController => { self with profileImageView := image }) .done

def downloadImage (urlString : String) (next : Account.Handler rules) : Account.Handler rules :=
  match URL.ofString rules urlString with
  | none => next
  | some url => .call (.dataTask url) pictureDownloaded next

/-- The loop of `getUserData` over the documents of a snapshot. -/
def showUsers : Snapshot → Account.Handler rules
  | [] => .done
  | (_, data) :: documents =>
      .unwrap data["userName"]? .userData fun userName =>
      assign (fun self : ProfileViewController => { self with userName := some userName }) <|
      .unwrap data["phone"]? .userData fun phone =>
      assign (fun self : ProfileViewController => { self with phone := some phone }) <|
      .unwrap data["image"]? .userData fun image =>
      assign (fun self : ProfileViewController => { self with imageUrl := some image }) <|
      .unwrap data["eMail"]? .userData fun eMail =>
      assign (fun self : ProfileViewController => { self with email := some eMail }) <|
      assign (fun self : ProfileViewController =>
        { self with emailLabel := eMail, userNameTF := userName, phoneTF := phone }) <|
      downloadImage image <|
      showUsers documents

/-- The completion handler of `getUserData`. -/
def usersLoaded (snapshot : Option Snapshot) : Account.Handler rules :=
  match snapshot with
  | none => .done
  | some documents => showUsers documents

def getUserData (userId : String) : Account.Handler rules :=
  .call (.query .users "userId" userId) usersLoaded .done

def viewWillAppear : Account.Handler rules :=
  assign (fun self : ProfileViewController =>
    { self with
      handle := some self.added
      listeners := self.listeners ++ [self.added]
      added := self.added + 1 }) .done

def viewWillDisappear : Account.Handler rules :=
  this fun self : ProfileViewController =>
  .unwrap self.handle .listener fun handle =>
  assign (fun self : ProfileViewController =>
    { self with listeners := self.listeners.erase handle }) .done

/-- A call of the auth state listener that `viewWillAppear` adds. -/
def authState (listener : Nat) (currentUser : Option User) : Account.Handler rules :=
  this fun self : ProfileViewController =>
    match currentUser with
    | some user =>
        if listener ∈ self.listeners then
          assign (fun self : ProfileViewController => { self with userId := some user.uid }) <|
          getUserData user.uid
        else .done
    | none => .done

/-- The document literal of `updateUserData`. -/
def changes (self : ProfileViewController) (userId email imageUrl : String) : Fields :=
  [("eMail", email),
   ("phone", self.phoneTF),
   ("userId", userId),
   ("userName", self.userNameTF),
   ("image", imageUrl)]

/-- The completion handler of `updateUserData`. -/
def userWritten (written : Bool) : Account.Handler rules :=
  .alert (if written then "Success" else "Error") .done

def updateUserData : Account.Handler rules :=
  this fun self : ProfileViewController =>
  .unwrap self.userId .profile fun userId =>
  document userId <|
  .unwrap self.email .profile fun email =>
  .unwrap self.imageUrl .profile fun imageUrl =>
  .call (.setData .users userId (self.changes userId email imageUrl) false) userWritten .done

end ProfileViewController

namespace HomeTabViewController

/-- The loop of `getUserData` over the documents of a snapshot. -/
def showUsers : Snapshot → Account.Handler rules
  | [] => .done
  | (_, data) :: documents =>
      .unwrap data["userName"]? .userData fun userName =>
      assign (fun self : HomeTabViewController =>
        { self with userName := some userName, welcomeLabel := "Welcome, " ++ userName }) <|
      showUsers documents

/-- The completion handler of `getUserData`. -/
def usersLoaded (snapshot : Option Snapshot) : Account.Handler rules :=
  match snapshot with
  | none => .done
  | some documents => showUsers documents

def getUserData (userId : String) : Account.Handler rules :=
  .call (.query .users "userId" userId) usersLoaded .done

def viewWillAppear : Account.Handler rules :=
  assign (fun self : HomeTabViewController =>
    { self with
      handle := some self.added
      listeners := self.listeners ++ [self.added]
      added := self.added + 1 }) .done

/-- A call of the auth state listener that `viewWillAppear` adds. -/
def authState (listener : Nat) (currentUser : Option User) : Account.Handler rules :=
  this fun self : HomeTabViewController =>
    match currentUser with
    | some user =>
        if listener ∈ self.listeners then
          assign (fun self : HomeTabViewController => { self with userId := some user.uid }) <|
          getUserData user.uid
        else .done
    | none => .done

end HomeTabViewController

end Gbc
