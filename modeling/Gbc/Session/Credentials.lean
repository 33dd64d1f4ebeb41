import Gbc.Session.Admin
import Gbc.Session.Navigation

/-!
# Screens need credentials

The events that have led to a device are recorded beside it. Every tab screen was opened
by a press of the login button with the credentials of the user it is shown for, or by
Google sign-in with a user; the admin's form was opened with the admin's credentials.
-/

namespace Gbc.Session

variable {rules : URLRules}

/-- The login button was pressed with credentials that sign in this user, under another
address than the admin's. -/
structure Authenticated (events : List (Event rules)) (server : Server rules) (user : User)
    (userName passWord : String) : Prop where
  pressed : .input (.loginButton userName passWord) ∈ events
  ordinary : userName ≠ adminAddress
  signsIn : server.user (lowercased userName) passWord = some user

/-- What opened a screen. -/
inductive Entitled (events : List (Event rules)) (server : Server rules) : Place → Prop where
  | signUp : Entitled events server .signUp
  | addInfo (pressed : .input (.loginButton adminAddress adminPassword) ∈ events) :
      Entitled events server .addInfo
  | email {place : Place} {user : User} {userName passWord : String}
      (opened : place.login = some (.email (.ok user)))
      (authenticated : Authenticated events server user userName passWord) :
      Entitled events server place
  | google {place : Place} {user : GIDGoogleUser} {profile : GIDProfileData}
      (opened : place.login = some (.google (some user))) (named : user.profile = some profile)
      (signed : .google (some user) ∈ events) : Entitled events server place

/-- An outstanding sign-in was started by a press of the login button, and its answer is the
user of these credentials. -/
structure Requested (events : List (Event rules)) (server : Server rules) (operation : Operation)
    (userName : String) : Prop where
  pressed : .input (.loginButton userName operation.password) ∈ events
  ordinary : userName ≠ adminAddress
  email : operation.email = lowercased userName
  answered : ∀ user, operation.answer = some (.ok user) →
    server.user operation.email operation.password = some user

/-- Every screen was opened by someone who may. -/
structure Entitles (events : List (Event rules)) (device : Device rules) : Prop where
  places : ∀ place ∈ device.window.places, Entitled events device.server place
  outstanding : ∀ operation ∈ device.outstanding, operation.call = .signIn →
    ∃ userName, Requested events device.server operation userName

section Later

variable {events : List (Event rules)} {server later : Server rules} {event : Event rules}

/-- New accounts leave the users of older ones alone. -/
theorem user_of_served {email password : String} {result : Except AuthErrorCode User}
    (served : server.Served (.createUser email password) later result) {address secret : String}
    {user : User} (found : server.user address secret = some user) :
    later.user address secret = some user := by
  cases served with
  | refused => exact found
  | registered uid_ne fresh =>
      obtain ⟨account, matching, named⟩ := Option.bind_eq_some_iff.mp found
      have agrees := List.find?_some matching
      simp only [Bool.and_eq_true, beq_iff_eq] at agrees
      have other := (fresh account (List.mem_of_find?_eq_some matching)).2
      have differs : (lowercased email == lowercased address) = false := by
        rw [beq_eq_false_iff_ne, ← agrees.1]
        exact Ne.symm other
      simp only [Server.user, List.find?_cons, differs, Bool.false_and]
      exact found

theorem Entitled.keep {place : Place} (entitled : Entitled events server place)
    (users : ∀ address secret user, server.user address secret = some user →
      later.user address secret = some user) : Entitled (event :: events) later place := by
  cases entitled with
  | signUp => exact .signUp
  | addInfo pressed => exact .addInfo (List.mem_cons_of_mem _ pressed)
  | email opened authenticated =>
      exact .email opened ⟨List.mem_cons_of_mem _ authenticated.pressed, authenticated.ordinary,
        users _ _ _ authenticated.signsIn⟩
  | google opened named signed => exact .google opened named (List.mem_cons_of_mem _ signed)

theorem Requested.keep {operation : Operation} {userName : String}
    (requested : Requested events server operation userName)
    (users : ∀ address secret user, server.user address secret = some user →
      later.user address secret = some user) :
    Requested (event :: events) later operation userName where
  pressed := List.mem_cons_of_mem _ requested.pressed
  ordinary := requested.ordinary
  email := requested.email
  answered user answer := users _ _ _ (requested.answered user answer)

/-- Another event that leaves the device alone. -/
theorem Entitles.next {device : Device rules} (entitles : Entitles events device)
    (event : Event rules) : Entitles (event :: events) device where
  places place member := (entitles.places place member).keep fun _ _ _ found => found
  outstanding operation member signIn :=
    (entitles.outstanding operation member signIn).imp fun _ requested =>
      requested.keep fun _ _ _ found => found

/-- A screen that is opened in the same login is opened by the same user. -/
theorem Entitled.opens {place opened : Place} (entitled : Entitled events server place)
    {login : Login} (below : place.login = some login) (above : opened.login = some login) :
    Entitled events server opened := by
  cases entitled with
  | signUp => cases below
  | addInfo => cases below
  | email user authenticated => exact .email (above.trans (below.symm.trans user)) authenticated
  | google user named signed => exact .google (above.trans (below.symm.trans user)) named signed

end Later

section Windows

variable {window : Window} {place other : Place}

theorem mem_places_back (member : place ∈ window.back.places) : place ∈ window.places := by
  cases window with
  | navigation pushed => exact List.mem_of_mem_tail member
  | tabBar root presented =>
      rcases List.mem_append.mp member with rest | last
      · exact List.mem_append_left _ (List.mem_of_mem_tail rest)
      · exact List.mem_append_right _ last

theorem mem_places_popViewController (member : place ∈ window.popViewController.places) :
    place ∈ window.places := by
  cases window with
  | navigation pushed => exact List.mem_of_mem_tail member
  | tabBar root presented => exact member

theorem mem_places_push (member : place ∈ (window.push other).places) :
    place = other ∨ place ∈ window.places := by
  rw [Window.places_push] at member
  exact List.mem_cons.mp member

theorem mem_places_performSegue (member : place ∈ (window.performSegue other).places) :
    place = other ∨ place ∈ window.places := by
  cases window with
  | navigation pushed => exact List.mem_cons.mp member
  | tabBar root presented => exact .inr member

end Windows

section Inputs

variable {device : Device rules} {events : List (Event rules)}

/-- No segue of a screen opens the admin's form. -/
theorem addInfo_of_segue {place : Place} {input : Input}
    (opened : .addInfo ∈ ((place.segue input).elim device device.push).window.places) :
    .addInfo ∈ device.window.places := by
  cases opens : place.segue input with
  | none =>
      rw [opens] at opened
      exact opened
  | some pushed =>
      rw [opens] at opened
      refine (mem_places_push opened).resolve_left ?_
      rintro rfl
      cases (Place.of_segue opens).1

/-- A segue starts no operation. -/
theorem outstanding_of_segue {place : Place} {input : Input} {operation : Operation}
    (member : operation ∈ ((place.segue input).elim device device.push).outstanding) :
    operation ∈ device.outstanding := by
  cases opens : place.segue input with
  | none =>
      rw [opens] at member
      exact member
  | some pushed =>
      rw [opens] at member
      exact member

/-- The admin's form is opened by the admin's credentials only. -/
theorem addInfo_of_handle {input : Input}
    (opened : .addInfo ∈ (device.handle input).window.places) :
    .addInfo ∈ device.window.places ∨ input = .loginButton adminAddress adminPassword := by
  unfold Device.handle at opened
  split at opened
  · unfold ViewController.loginButton at opened
    split at opened
    · rename_i named
      exact .inr (by rw [named.1, named.2]; rfl)
    · split at opened
      · exact .inl opened
      · split at opened <;> exact .inl opened
  · exact .inl ((mem_places_push opened).resolve_left (by simp))
  · unfold SignUpViewController.signUpButton at opened
    split at opened <;> exact .inl opened
  · unfold ManagePostingsViewController.opened at opened
    split at opened
    · exact .inl opened
    · exact .inl ((mem_places_push opened).resolve_left (by simp))
  · refine .inl ?_
    unfold HomeTabViewController.logOutPressed at opened
    split at opened
    · rename_i signedOut signs
      have same : signedOut.window = device.window := window_of_signOut signs
      simp only [Device.loggedOut, same] at opened
      split at opened
      · exact mem_places_popViewController (mem_places_popViewController opened)
      · exact mem_places_popViewController opened
    · exact mem_places_popViewController opened
  · unfold UploadMarketPlaceViewController.uploadButton at opened
    split at opened
    · exact .inl opened
    · split at opened <;> exact .inl opened
  · unfold ProfileViewController.authState at opened
    split at opened
    · exact .inl opened
    · exact .inl (mem_places_back ((mem_places_push opened).resolve_left (by simp)))
  · unfold ProfileViewController.updateUserData at opened
    split at opened <;> exact .inl opened
  · exact .inl (mem_places_back opened)
  · exact .inl opened
  · exact .inl (addInfo_of_segue opened)

/-- A sign-in is started by the login button only, and not under the admin's address. -/
theorem signIn_of_handle {input : Input} {operation : Operation}
    (member : operation ∈ (device.handle input).outstanding) (signIn : operation.call = .signIn) :
    operation ∈ device.outstanding ∨ ∃ userName, userName ≠ adminAddress ∧
      input = .loginButton userName operation.password ∧ operation.email = lowercased userName ∧
      operation.answer = none := by
  unfold Device.handle at member
  split at member
  · rename_i userName passWord _
    unfold ViewController.loginButton at member
    split at member
    · exact .inl member
    · rename_i notAdmin
      split at member
      · exact .inl member
      · rename_i notDenied
        split at member
        · exact .inl member
        · rcases List.mem_append.mp member with older | started
          · exact .inl older
          · obtain rfl := List.mem_singleton.mp started
            refine .inr ⟨userName, fun admin => ?_, rfl, rfl, rfl⟩
            by_cases correct : passWord = adminPassword
            · exact notAdmin ⟨admin, correct⟩
            · exact notDenied ⟨admin, correct⟩
  · exact .inl member
  · unfold SignUpViewController.signUpButton at member
    split at member
    · exact .inl member
    · rcases List.mem_append.mp member with older | started
      · exact .inl older
      · obtain rfl := List.mem_singleton.mp started
        cases signIn
  · unfold ManagePostingsViewController.opened at member
    split at member <;> exact .inl member
  · unfold HomeTabViewController.logOutPressed at member
    split at member
    · rename_i signedOut signs
      have same : signedOut.outstanding = device.outstanding := by
        unfold signOut at signs
        split at signs
        · cases signs
        · cases signs
          rfl
      exact .inl (same ▸ member)
    · exact .inl member
  · unfold UploadMarketPlaceViewController.uploadButton at member
    split at member
    · exact .inl member
    · split at member <;> exact .inl member
  · unfold ProfileViewController.authState at member
    split at member <;> exact .inl member
  · unfold ProfileViewController.updateUserData at member
    split at member <;> exact .inl member
  · exact .inl member
  · exact .inl member
  · exact .inl (outstanding_of_segue member)

end Inputs

namespace Entitles

variable {device next : Device rules} {events : List (Event rules)}

/-- An input opens screens for those who were let in before, or for the admin. -/
theorem handle {input : Input} (entitles : Entitles events device) :
    Entitles (.input input :: events) (device.handle input) where
  places place member := by
    have handled : Handled device (device.handle input) := handled_handle
    rw [handled.server]
    have later := (entitles.next (.input input)).places
    cases place with
    | signUp => exact .signUp
    | addInfo =>
        rcases addInfo_of_handle member with older | rfl
        · exact later _ older
        · exact .addInfo List.mem_cons_self
    | tabBar login | converter login | detail login | detailedInfo login | upload login
    | manage login | update login | profile login _ =>
        obtain ⟨opener, older, same⟩ := handled.opened login ⟨_, member, rfl⟩
        exact (later opener older).opens same rfl
  outstanding operation member signIn := by
    have handled : Handled device (device.handle input) := handled_handle
    rw [handled.server]
    rcases signIn_of_handle member signIn with older | ⟨userName, ordinary, rfl, email, unanswered⟩
    · exact (entitles.next _).outstanding operation older signIn
    · refine ⟨userName, List.mem_cons_self, ordinary, email, fun user answer => ?_⟩
      rw [unanswered] at answer
      cases answer

/-- Firebase answers a sign-in with the user of its credentials. -/
theorem serve {index : Nat} {choice : Server.Choice rules} (entitles : Entitles events device)
    (served : device.serve index choice = some next) :
    Entitles (.serve index choice :: events) next := by
  unfold Device.serve at served
  split at served
  · rename_i call email password found
    obtain ⟨⟨server, result⟩, responded, rfl⟩ := Option.map_eq_some_iff.mp served
    have listed := List.mem_of_getElem? found
    cases call with
    | signIn =>
        have same : server = device.server ∧ ∀ user, result = .ok user →
            device.server.user email password = some user := by
          cases choice with
          | ok =>
              obtain ⟨user, signedIn, named⟩ := Option.map_eq_some_iff.mp responded
              cases named
              exact ⟨rfl, fun other same => by cases same; exact signedIn⟩
          | refuse code => cases responded; exact ⟨rfl, nofun⟩
          | _ => cases responded
        obtain ⟨rfl, signedIn⟩ := same
        have later := entitles.next (.serve index choice)
        refine ⟨later.places, fun operation member signIn => ?_⟩
        rcases List.mem_or_eq_of_mem_set member with older | rfl
        · exact later.outstanding operation older signIn
        · obtain ⟨userName, requested⟩ := later.outstanding _ listed rfl
          exact ⟨userName, requested.pressed, requested.ordinary, requested.email,
            fun user answer => signedIn user (Option.some.inj answer)⟩
    | createUser =>
        have users : ∀ address secret user, device.server.user address secret = some user →
            server.user address secret = some user := fun address secret user known =>
          user_of_served (Server.served_of_serve responded) known
        refine ⟨fun place member => (entitles.places place member).keep users,
          fun operation member signIn => ?_⟩
        rcases List.mem_or_eq_of_mem_set member with older | rfl
        · obtain ⟨userName, requested⟩ := entitles.outstanding operation older signIn
          exact ⟨userName, requested.keep users⟩
        · cases signIn
  · cases served

/-- The completion handler of a sign-in opens the tab bar for the user it has answered. -/
theorem reply {index : Nat} (entitles : Entitles events device)
    (replied : device.reply index = some next) : Entitles (.reply index :: events) next := by
  unfold Device.reply at replied
  split at replied
  · rename_i call email password result found
    obtain rfl := Option.some.inj replied
    have later := entitles.next (.reply index)
    have rest : ∀ operation ∈ device.outstanding.eraseIdx index, operation ∈ device.outstanding :=
      fun _ => List.mem_of_mem_eraseIdx
    have handled : Entitles (.reply index :: events)
        { device with outstanding := device.outstanding.eraseIdx index } :=
      ⟨later.places, fun operation member => later.outstanding operation (rest operation member)⟩
    cases call with
    | createUser => cases result <;> exact ⟨handled.places, handled.outstanding⟩
    | signIn =>
        cases result with
        | error code => exact ⟨handled.places, handled.outstanding⟩
        | ok user =>
            refine ⟨fun place member => ?_, handled.outstanding⟩
            rcases mem_places_performSegue member with rfl | older
            · obtain ⟨userName, requested⟩ :=
                later.outstanding _ (List.mem_of_getElem? found) rfl
              have signsIn := requested.answered user rfl
              rw [requested.email] at signsIn
              exact .email rfl ⟨requested.pressed, requested.ordinary, signsIn⟩
            · exact later.places place older
  · cases replied

/-- Google sign-in opens the tab bar for a user with a profile. -/
theorem sign {user : Option GIDGoogleUser} (entitles : Entitles events device) :
    Entitles (.google user :: events) (AppDelegate.sign device user) := by
  have later := entitles.next (.google user)
  unfold AppDelegate.sign
  split
  · exact ⟨later.places, later.outstanding⟩
  · rename_i profile named
    refine ⟨fun place member => ?_, later.outstanding⟩
    obtain rfl := List.mem_singleton.mp member
    obtain ⟨signed, rfl, profiled⟩ := Option.bind_eq_some_iff.mp named
    exact .google rfl profiled List.mem_cons_self

/-- Every step opens screens only for those who may see them. -/
theorem step {event : Event rules} (entitles : Entitles events device)
    (taken : device.step event = some next) : Entitles (event :: events) next := by
  cases event with
  | restart =>
      obtain rfl := Option.some.inj taken
      constructor
      · intro place member
        cases member
      · intro operation member
        cases member
  | input input =>
      obtain ⟨-, handled⟩ := Option.ite_none_right_eq_some.mp taken
      obtain rfl := Option.some.inj handled
      exact entitles.handle
  | google user =>
      obtain ⟨-, signed⟩ := Option.ite_none_right_eq_some.mp taken
      obtain rfl := Option.some.inj signed
      exact entitles.sign
  | serve index choice =>
      obtain ⟨-, served⟩ := Option.ite_none_right_eq_some.mp taken
      exact entitles.serve served
  | reply index =>
      obtain ⟨-, replied⟩ := Option.ite_none_right_eq_some.mp taken
      exact entitles.reply replied

end Entitles

/-- In every run of a device, with the events that led to it, every screen above the login
screen is the sign-up form, was opened with the admin's credentials, or was opened for the
user whose credentials were typed, or for a user of Google sign-in. -/
theorem screens_need_credentials {server : Server rules} {device : Device rules}
    {events : List (Event rules)}
    (reached : (machine rules).recording.Reaches (machine rules).recording.anyStep
      (Device.installed server, []) (device, events)) :
    ∀ place ∈ device.window.places, Entitled events device.server place := by
  have opened : Entitles [] (Device.installed server) :=
    ⟨fun _ member => absurd member List.not_mem_nil, fun _ member => absurd member List.not_mem_nil⟩
  have entitles : Entitles events device :=
    reached.recorded opened fun _ _ _ _ entitles taken => entitles.step taken
  exact entitles.places

/-- Alice logs in. -/
theorem screens_need_credentials_tabBar :
    ∃ (device : Device anyText) (events : List (Event anyText)) (place : Place),
      device.window.shown = some place ∧ place.login.isSome = true ∧
        Entitled events device.server place := by
  obtain ⟨⟨device, events⟩, reached, shows⟩ := Machine.exists_reaches
    (m := (machine anyText).recording) (machine anyText).recording.anyStep
    (Device.installed (.empty anyText), []) loggingIn
    (fun state => state.1.window.shown.any (·.login.isSome)) (by decide +kernel)
  obtain ⟨place, shown, opened⟩ := (Option.any_eq_true _ _).mp shows
  exact ⟨device, events, place, shown, opened,
    screens_need_credentials reached _ (mem_places_of_shown shown)⟩

end Gbc.Session
