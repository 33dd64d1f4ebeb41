import Gbc.Session.Device

/-!
# The identity a device acts under

The tab screens act for Firebase's current user. `Consistent` relates them to the
login step that led to them; it is kept as long as Google sign-in opens no tab
screens, log-out does not throw and leaves no tab bar behind, and no answer switches
the user under the tab screens.
-/

namespace Gbc.Session

variable {rules : URLRules}

/-- The tab screens shown were opened by a login step that authenticated Firebase's
current user; what is done for a user is done for that user and its forced unwraps
succeed; a log-out that leaves the Home screen leaves no session. -/
structure ActsAsLoggedIn (device : Device rules) : Prop where
  shown : device.running = true → ∀ place login, device.window.shown = some place →
    place.login = some login →
    ∃ user, login.user = some user ∧ device.currentUser = some user
  attributed : ∀ act ∈ device.acts, ∃ user, act.login.user = some user ∧ act.uid = user.uid
  unwrapped : .currentUser ∉ device.faults
  ended : ∀ logOut ∈ device.logOuts, logOut.left = true → logOut.currentUser = none

section Tests

/-- No screen of the window was opened by a login. -/
def withoutLogin (places : List Place) : Bool := places.all (·.login.isNone)

/-- Google sign-in brings no profile, so that no tab screens follow; a log-out does
not throw, and no tab screen lies below the screens it pops; an answer that signs in
another user finds no tab screens; the completion handler of a successful sign-in finds
its user signed in. -/
def identityKept (device : Device rules) : Event rules → Bool
  | .google user => (user.bind (·.profile)).isNone
  | .input (.logOutPressed throws again) =>
      match device.window.shown with
      | some (.tabBar _) =>
          !(throws && device.currentUser.isSome) &&
            withoutLogin (device.window.places.drop (if again then 2 else 1))
      | _ => true
  | .serve index choice =>
      !choice.succeeds || withoutLogin device.window.places ||
        (device.outstanding[index]?).any fun operation =>
          operation.call == .signIn &&
            device.server.user operation.email operation.password == device.currentUser
  | .reply index =>
      (device.outstanding[index]?).all fun operation =>
        match operation.call, operation.answer with
        | .signIn, some (.ok user) => device.currentUser == some user
        | _, _ => true
  | _ => true

end Tests

/-- A screen was opened by a login of the current user, or by none. -/
def Place.ActsFor (currentUser : Option User) (place : Place) : Prop :=
  ∀ login, place.login = some login →
    ∃ user, currentUser = some user ∧ login.user = some user ∧
      ∀ uid, place.userId = some uid → uid = user.uid

/-- What every device keeps. -/
structure Consistent (device : Device rules) : Prop where
  window : ∃ pushed, device.window = .navigation pushed ∧
    ∀ place ∈ pushed, place.ActsFor device.currentUser
  attributed : ∀ act ∈ device.acts, ∃ user, act.login.user = some user ∧ act.uid = user.uid
  unwrapped : .currentUser ∉ device.faults
  ended : ∀ logOut ∈ device.logOuts, logOut.left = true → logOut.currentUser = none

section Places

variable {currentUser : Option User} {place : Place}

/-- The login and sign-up screens and the admin's form act for nobody. -/
theorem actsFor_of_login (silent : place.login = none) : place.ActsFor currentUser := by
  intro login opened
  rw [silent] at opened
  cases opened

/-- A tab screen acts for the user whom its login step authenticated. -/
theorem actsFor_of_user {login : Login} {user : User} (opened : place.login = some login)
    (signedIn : currentUser = some user) (authenticated : login.user = some user)
    (stored : ∀ uid, place.userId = some uid → uid = user.uid) : place.ActsFor currentUser := by
  intro step same
  obtain rfl := Option.some.inj (opened.symm.trans same)
  exact ⟨user, signedIn, authenticated, stored⟩

theorem withoutLogin_iff {places : List Place} :
    withoutLogin places = true ↔ ∀ place ∈ places, place.login = none := by
  simp [withoutLogin]

end Places

section Steps

variable {device next : Device rules} {pushed : List Place}

/-- A consistent device acts as logged in. -/
theorem Consistent.actsAsLoggedIn (consistent : Consistent device) : ActsAsLoggedIn device where
  shown _ place login shown opened := by
    obtain ⟨pushed, window, acting⟩ := consistent.window
    rw [window] at shown
    obtain ⟨user, signedIn, authenticated, -⟩ :=
      acting place (List.mem_of_mem_head? shown) login opened
    exact ⟨user, authenticated, signedIn⟩
  attributed := consistent.attributed
  unwrapped := consistent.unwrapped
  ended := consistent.ended

/-- Going to screens that act for the current user. -/
theorem Consistent.navigate (consistent : Consistent device)
    (acting : ∀ place ∈ pushed, place.ActsFor device.currentUser) :
    Consistent { device with window := .navigation pushed } :=
  { consistent with window := ⟨pushed, rfl, acting⟩ }

/-- Opening a screen that acts for the current user. -/
theorem Consistent.push {place : Place} (consistent : Consistent device)
    (acting : place.ActsFor device.currentUser) : Consistent (device.push place) := by
  obtain ⟨pushed, window, below⟩ := consistent.window
  have opened : device.push place = { device with window := .navigation (place :: pushed) } := by
    simp [Device.push, Window.push, window]
  rw [opened]
  exact consistent.navigate (List.forall_mem_cons.mpr ⟨acting, below⟩)

theorem Consistent.performSegue {place : Place} (consistent : Consistent device)
    (acting : place.ActsFor device.currentUser) :
    Consistent { device with window := device.window.performSegue place } := by
  obtain ⟨pushed, window, below⟩ := consistent.window
  rw [window]
  exact consistent.navigate (List.forall_mem_cons.mpr ⟨acting, below⟩)

theorem Consistent.back (consistent : Consistent device) :
    Consistent { device with window := device.window.back } := by
  obtain ⟨pushed, window, below⟩ := consistent.window
  rw [window]
  exact consistent.navigate fun place member => below place (List.mem_of_mem_tail member)

theorem Consistent.alert {title : String} (consistent : Consistent device) :
    Consistent (device.alert title) := { consistent with }

theorem Consistent.start {call : AuthCall} {email password : String}
    (consistent : Consistent device) : Consistent (device.start call email password) :=
  { consistent with }

/-- A trap other than the forced unwrap of the current user. -/
theorem Consistent.trap {fault : Fault} (consistent : Consistent device)
    (other : fault ≠ .currentUser) : Consistent (device.trap fault) :=
  { consistent with
    unwrapped := by
      intro member
      rcases List.mem_cons.mp member with same | older
      · exact other same.symm
      · exact consistent.unwrapped older }

/-- Acting for the user of a login step. -/
theorem Consistent.act {login : Login} {user : User} (consistent : Consistent device)
    (authenticated : login.user = some user) : Consistent (device.act login user.uid) :=
  { consistent with
    attributed := List.forall_mem_cons.mpr ⟨⟨user, authenticated, rfl⟩, consistent.attributed⟩ }

/-- The user behind the tab screen shown. -/
theorem Consistent.shown {place : Place} {login : Login} (consistent : Consistent device)
    (shown : device.window.shown = some place) (opened : place.login = some login) :
    ∃ user, device.currentUser = some user ∧ login.user = some user ∧
      ∀ uid, place.userId = some uid → uid = user.uid := by
  obtain ⟨pushed, window, acting⟩ := consistent.window
  rw [window] at shown
  exact acting place (List.mem_of_mem_head? shown) login opened

/-- A log-out that does not throw and leaves no tab screen behind. -/
theorem Consistent.logOut {throws again : Bool} {login : Login}
    (consistent : Consistent device) (shown : device.window.shown = some (.tabBar login))
    (kept : identityKept device (.input (.logOutPressed throws again)) = true) :
    Consistent (HomeTabViewController.logOutPressed throws again device) := by
  obtain ⟨pushed, window, below⟩ := consistent.window
  simp only [identityKept, shown] at kept
  obtain ⟨succeeds, behind⟩ := Bool.and_eq_true_iff.mp kept
  have ended : signOut throws device = some { device with currentUser := none } := by
    have passes : (throws && device.currentUser.isSome) = false :=
      (Bool.not_eq_true' _).mp succeeds
    rw [signOut, passes, if_neg Bool.false_ne_true]
  have popped : (HomeTabViewController.logOutPressed throws again device).window =
      .navigation (pushed.drop (if again then 2 else 1)) := by
    cases again <;> simp [HomeTabViewController.logOutPressed, Device.loggedOut, ended, window,
      Window.popViewController, ← List.drop_one]
  rw [window] at behind
  refine ⟨⟨_, popped, fun place member => ?_⟩, ?_, ?_, ?_⟩
  · exact actsFor_of_login (withoutLogin_iff.mp behind place member)
  · simpa [HomeTabViewController.logOutPressed, Device.loggedOut, ended] using
      consistent.attributed
  · simpa [HomeTabViewController.logOutPressed, Device.loggedOut, ended] using
      consistent.unwrapped
  · simpa [HomeTabViewController.logOutPressed, Device.loggedOut, ended] using consistent.ended

/-- A press on the login screen. -/
theorem Consistent.loginButton {userName passWord : String} (consistent : Consistent device) :
    Consistent (ViewController.loginButton device userName passWord) := by
  unfold ViewController.loginButton
  split
  · exact consistent.performSegue (actsFor_of_login rfl)
  · split
    · exact consistent.alert
    · split
      · exact consistent.alert
      · exact consistent.start

/-- A press on the sign-up screen. -/
theorem Consistent.signUpButton {form : Gbc.SignUpViewController}
    (consistent : Consistent device) :
    Consistent (SignUpViewController.signUpButton device form) := by
  unfold SignUpViewController.signUpButton
  split
  · exact consistent.alert
  · exact consistent.start

/-- A press on the posting form. -/
theorem Consistent.uploadButton {login : Login} {form : Gbc.UploadMarketPlaceViewController}
    (consistent : Consistent device) (shown : device.window.shown = some (.upload login)) :
    Consistent (UploadMarketPlaceViewController.uploadButton login form device) := by
  obtain ⟨user, signedIn, authenticated, -⟩ := consistent.shown shown rfl
  unfold UploadMarketPlaceViewController.uploadButton
  rw [signedIn]
  split
  · exact consistent.alert
  · exact consistent.act authenticated

/-- The Manage screen opens. -/
theorem Consistent.manage {login : Login} (consistent : Consistent device)
    (shown : device.window.shown = some (.tabBar login)) :
    Consistent (ManagePostingsViewController.opened login device) := by
  obtain ⟨user, signedIn, authenticated, -⟩ := consistent.shown shown rfl
  unfold ManagePostingsViewController.opened
  rw [signedIn]
  exact (consistent.act authenticated).push (actsFor_of_user rfl signedIn authenticated nofun)

/-- A screen is opened over another one. -/
theorem Consistent.segue {place : Place} {input : Input} (consistent : Consistent device)
    (shown : device.window.shown = some place) :
    Consistent ((place.segue input).elim device device.push) := by
  cases opens : place.segue input with
  | none => exact consistent
  | some opened =>
      obtain ⟨opener, unstored, login, acting⟩ := Place.of_segue opens
      have below := (Place.login_of_opener opener).symm.trans acting
      obtain ⟨user, signedIn, authenticated, -⟩ := consistent.shown shown below
      refine consistent.push (actsFor_of_user acting signedIn authenticated fun uid stored => ?_)
      rw [unstored] at stored
      cases stored

/-- The profile screen learns who is signed in. -/
theorem Consistent.authState {login : Login} {userId : Option String}
    (consistent : Consistent device)
    (shown : device.window.shown = some (.profile login userId)) :
    Consistent (ProfileViewController.authState login device) := by
  obtain ⟨user, signedIn, authenticated, -⟩ := consistent.shown shown rfl
  unfold ProfileViewController.authState
  split
  · exact consistent
  · rename_i current same
    obtain rfl := Option.some.inj (signedIn.symm.trans same)
    have learned : ∀ uid, (Place.profile login (some user.uid)).userId = some uid →
        uid = user.uid := fun uid stored => (Option.some.inj stored).symm
    exact consistent.back.push (actsFor_of_user rfl signedIn authenticated learned)

/-- The profile screen writes the profile. -/
theorem Consistent.updateUserData {login : Login} {userId : Option String}
    (consistent : Consistent device)
    (shown : device.window.shown = some (.profile login userId)) :
    Consistent (ProfileViewController.updateUserData login userId device) := by
  obtain ⟨user, signedIn, authenticated, stored⟩ := consistent.shown shown rfl
  unfold ProfileViewController.updateUserData
  cases userId with
  | none => exact consistent.trap nofun
  | some uid =>
      rw [stored uid rfl]
      exact consistent.act authenticated

/-- Every input that passes the test keeps a device consistent. -/
theorem Consistent.handle {input : Input} (consistent : Consistent device)
    (kept : identityKept device (.input input) = true) : Consistent (device.handle input) := by
  unfold Device.handle
  split
  · exact consistent.loginButton
  · exact consistent.push (actsFor_of_login rfl)
  · exact consistent.signUpButton
  · rename_i shown
    exact consistent.manage shown
  · rename_i shown
    exact consistent.logOut shown kept
  · rename_i shown
    exact consistent.uploadButton shown
  · rename_i shown
    exact consistent.authState shown
  · rename_i shown
    exact consistent.updateUserData shown
  · exact consistent.back
  · exact consistent
  · refine consistent.segue ?_
    assumption

/-- An answer that passes the test signs in the current user again, or nobody, or it
finds no tab screens. -/
theorem same_or_withoutLogin {index : Nat} {choice : Server.Choice rules}
    {operation : Operation} {server : Server rules} {result : Except AuthErrorCode User}
    (kept : identityKept device (.serve index choice) = true)
    (found : device.outstanding[index]? = some operation)
    (responded : operation.respond device.server choice = some (server, result)) :
    result.toOption.or device.currentUser = device.currentUser ∨
      withoutLogin device.window.places = true := by
  simp only [identityKept, found, Option.any_some, Bool.or_eq_true, Bool.not_eq_true',
    Bool.and_eq_true, beq_iff_eq] at kept
  cases result with
  | error code => exact .inl rfl
  | ok user =>
      obtain ⟨call, email, password, answer⟩ := operation
      rcases kept with (fails | without) | ⟨rfl, current⟩
      · cases call with
        | signIn =>
            cases choice with
            | fail | refuse => cases responded
            | _ => cases fails
        | createUser =>
            cases choice with
            | fail | refuse => cases responded
            | _ => cases fails
      · exact .inr without
      · cases choice with
        | ok =>
            simp only [Operation.respond, current] at responded
            obtain ⟨same, signedIn, named⟩ := Option.map_eq_some_iff.mp responded
            cases named
            exact .inl (by rw [signedIn]; rfl)
        | _ => cases responded

/-- Answering a call keeps a device consistent, unless it switches the user under
the tab screens. -/
theorem Consistent.serve {index : Nat} {choice : Server.Choice rules}
    (consistent : Consistent device) (kept : identityKept device (.serve index choice) = true)
    (served : device.serve index choice = some next) : Consistent next := by
  unfold Device.serve at served
  split at served
  · rename_i call email password found
    obtain ⟨⟨server, result⟩, responded, rfl⟩ := Option.map_eq_some_iff.mp served
    obtain ⟨pushed, window, acting⟩ := consistent.window
    refine { consistent with window := ⟨pushed, window, fun place member => ?_⟩ }
    rcases same_or_withoutLogin kept found responded with same | without
    · rw [same]
      exact acting place member
    · rw [window] at without
      exact actsFor_of_login (withoutLogin_iff.mp without place member)
  · cases served

/-- A completion handler keeps a device consistent, if the user it was signed in for
still is. -/
theorem Consistent.reply {index : Nat} (consistent : Consistent device)
    (kept : identityKept device (.reply index) = true)
    (replied : device.reply index = some next) : Consistent next := by
  unfold Device.reply at replied
  split at replied
  · rename_i call email password result found
    obtain rfl := Option.some.inj replied
    have handled : Consistent { device with outstanding := device.outstanding.eraseIdx index } :=
      { consistent with }
    cases call with
    | createUser =>
        cases result with
        | ok user => exact handled.alert
        | error code => exact handled.alert
    | signIn =>
        cases result with
        | ok user =>
            have current : device.currentUser = some user := by
              simpa [identityKept, found] using kept
            exact handled.performSegue (actsFor_of_user rfl current rfl nofun)
        | error code => exact handled.alert
  · cases replied

/-- Every step that passes the test keeps a device consistent. -/
theorem Consistent.step {event : Event rules} (consistent : Consistent device)
    (kept : identityKept device event = true) (taken : device.step event = some next) :
    Consistent next := by
  cases event with
  | restart =>
      obtain rfl := Option.some.inj taken
      exact { consistent with window := ⟨[], rfl, nofun⟩ }
  | input input =>
      obtain ⟨-, handled⟩ := Option.ite_none_right_eq_some.mp taken
      obtain rfl := Option.some.inj handled
      exact consistent.handle kept
  | google user =>
      obtain ⟨-, handled⟩ := Option.ite_none_right_eq_some.mp taken
      obtain rfl := Option.some.inj handled
      have unseen : user.bind (·.profile) = none := Option.isNone_iff_eq_none.mp kept
      rw [AppDelegate.sign, unseen]
      exact consistent.trap nofun
  | serve index choice =>
      obtain ⟨-, served⟩ := Option.ite_none_right_eq_some.mp taken
      exact consistent.serve kept served
  | reply index =>
      obtain ⟨-, replied⟩ := Option.ite_none_right_eq_some.mp taken
      exact consistent.reply kept replied

/-- A freshly installed program shows the login screen. -/
theorem consistent_installed {server : Server rules} :
    Consistent (Device.installed server) where
  window := ⟨[], rfl, nofun⟩
  attributed := nofun
  unwrapped := nofun
  ended := nofun

/-- While the test is passed, the identity a device acts under is the one that logged in. -/
theorem acts_as_logged_in {server : Server rules}
    (reached : (machine rules).Reaches identityKept (Device.installed server) device) :
    ActsAsLoggedIn device := by
  have consistent : Consistent device :=
    reached.invariant consistent_installed fun consistent kept taken =>
      consistent.step kept taken
  exact consistent.actsAsLoggedIn

end Steps

section Schedules

/-- A complete sign-up form. -/
def signUpForm : Gbc.SignUpViewController :=
  ⟨some ⟨"face", true⟩, "Alice", "alice@gbc.ca", "secret1", "4165550100"⟩

/-- A complete posting form. -/
def postingForm : Gbc.UploadMarketPlaceViewController :=
  ⟨some ⟨"broom", true⟩, 0, ⟨"Alice", "Halifax", "15", "902555", "Sweeping"⟩, ""⟩

/-- The user that signing up creates. -/
def signingUp : List (Event anyText) :=
  [.input .showSignUp, .input (.signUpButton signUpForm), .serve 0 (.name "u1"), .reply 0,
    .input .back]

/-- Alice signs up, restarts the program, logs in, posts and logs out. -/
theorem acts_as_logged_in_posting :
    ∃ device, (machine anyText).Reaches identityKept (Device.installed (.empty anyText)) device ∧
      (device.acts.any (·.uid == "u1") && device.logOuts.any (·.left)) = true ∧
      ActsAsLoggedIn device := by
  obtain ⟨device, reached, acted⟩ := Machine.exists_reaches (m := machine anyText) identityKept
    (Device.installed (.empty anyText))
    (signingUp ++ [.restart, .input (.loginButton "Alice@gbc.ca" "secret1"), .serve 0 .ok,
      .reply 0, .input .showUpload, .input (.uploadButton postingForm), .input .back,
      .input (.logOutPressed false true)])
    (fun device : Device anyText =>
      device.acts.any (·.uid == "u1") && device.logOuts.any (·.left)) (by decide +kernel)
  exact ⟨device, reached, acted, acts_as_logged_in reached⟩

/-- The session of Alice survives a restart; Bob signs in with Google, and what he
posts is hers. -/
theorem acts_as_another :
    ¬ ∀ (rules : URLRules) (server : Server rules) (device : Device rules),
      (machine rules).Reaches (machine rules).anyStep (Device.installed server) device →
      ActsAsLoggedIn device := by
  intro acts
  obtain ⟨device, reached, posted⟩ := Machine.exists_reaches (m := machine anyText)
    (machine anyText).anyStep (Device.installed (.empty anyText))
    (signingUp ++ [.restart, .google (some ⟨"bob", some ⟨some "bob@gbc.ca"⟩⟩),
      .input .showUpload, .input (.uploadButton postingForm)])
    (fun device : Device anyText =>
      device.acts.any fun act => act.uid == "u1" && act.login.user.isNone) (by decide +kernel)
  obtain ⟨act, member, same⟩ := List.any_eq_true.mp posted
  obtain ⟨user, authenticated, -⟩ := (acts anyText _ device reached).attributed act member
  simp [authenticated] at same

end Schedules

end Gbc.Session
