import Gbc.Session.Identity

/-!
# The stack of screens

The sign-up form and the admin's form lie directly over the login screen, the update screen
over a Manage screen and every other screen of a tab directly over the tab bar, of the same
login each. No order of presses, answers and Google sign-ins breaks this, so closing a screen
always leads back to where it was opened from.
-/

namespace Gbc.Session

variable {rules : URLRules} {server : Server rules}

/-- A stack of screens, topmost first, in which each screen lies where it was opened. -/
inductive Stacked : List Place → Prop where
  | login : Stacked []
  | signUp : Stacked [.signUp]
  | addInfo : Stacked [.addInfo]
  | tabBar {login : Login} {below : List Place} (stacked : Stacked below) :
      Stacked (.tabBar login :: below)
  | opened {place opener : Place} {below : List Place} (opens : place.opener = some opener)
      (stacked : Stacked (opener :: below)) : Stacked (place :: opener :: below)

namespace Stacked

variable {places : List Place} {place : Place}

/-- The topmost screen goes away. -/
theorem tail (stacked : Stacked places) : Stacked places.tail := by
  cases stacked with
  | login => exact .login
  | signUp => exact .login
  | addInfo => exact .login
  | tabBar below => exact below
  | opened opens below => exact below

/-- Below a screen lies the one that opens it. -/
theorem below_of_shown {opener : Place} (stacked : Stacked places)
    (shown : places.head? = some place) (opens : place.opener = some opener) :
    ∃ below, places = place :: opener :: below ∧ Stacked (opener :: below) := by
  cases stacked with
  | login => cases shown
  | signUp => cases shown; cases opens
  | addInfo => cases shown; cases opens
  | tabBar below => cases shown; cases opens
  | opened opened below =>
      cases shown
      obtain rfl := Option.some.inj (opens.symm.trans opened)
      exact ⟨_, rfl, below⟩

end Stacked

namespace Window

variable {window : Window}

/-- The stack of a window, in which the tab bar that is the root counts as a screen. -/
theorem head?_places (window : Window) : window.places.head? = window.shown := by
  cases window with
  | navigation pushed => rfl
  | tabBar login presented => cases presented <;> rfl

theorem places_push (window : Window) (place : Place) :
    (window.push place).places = place :: window.places := by
  cases window <;> rfl

/-- The topmost screen goes away, unless it is the root. -/
theorem stacked_back (stacked : Stacked window.places) : Stacked window.back.places := by
  cases window with
  | navigation pushed => exact stacked.tail
  | tabBar login presented =>
      cases presented with
      | nil => exact stacked
      | cons place presented => exact stacked.tail

theorem stacked_popViewController (stacked : Stacked window.places) :
    Stacked window.popViewController.places := by
  cases window with
  | navigation pushed => exact stacked.tail
  | tabBar login presented => exact stacked

/-- A segue of the login screen to the tab bar. -/
theorem stacked_performSegue (stacked : Stacked window.places) (login : Login) :
    Stacked (window.performSegue (.tabBar login)).places := by
  cases window with
  | navigation pushed => exact .tabBar stacked
  | tabBar other presented => exact stacked

/-- The login screen is shown by a navigation controller without other screens. -/
theorem eq_of_shown_none (shown : window.shown = none) : window = .navigation [] := by
  cases window with
  | navigation pushed =>
      rw [List.head?_eq_none_iff.mp shown]
  | tabBar login presented => cases shown

/-- The stack of a window whose topmost screen is known. -/
theorem places_of_shown {place : Place} (shown : window.shown = some place) :
    ∃ below, window.places = place :: below := by
  rw [← head?_places] at shown
  cases places : window.places with
  | nil => rw [places] at shown; cases shown
  | cons top below =>
      rw [places] at shown
      cases shown
      exact ⟨below, rfl⟩

/-- A screen lies over the one that opens it. -/
theorem stacked_open {place opener : Place} (stacked : Stacked window.places)
    (shown : window.shown = some opener) (opens : place.opener = some opener) :
    Stacked (window.push place).places := by
  obtain ⟨below, places⟩ := places_of_shown shown
  rw [places_push, places]
  rw [places] at stacked
  exact .opened opens stacked

/-- Going back leaves the screens below, if the topmost one is not the root. -/
theorem places_back {place second : Place} {below : List Place}
    (places : window.places = place :: second :: below) :
    window.back.places = second :: below := by
  cases window with
  | navigation pushed =>
      have listed : pushed = _ := places
      rw [listed]
      rfl
  | tabBar root presented =>
      cases presented with
      | nil => cases places
      | cons top rest =>
          obtain ⟨-, tail⟩ := List.cons.inj places
          exact tail

/-- A profile screen stores another user ID. -/
theorem stacked_profile {login : Login} {userId userId' : Option String}
    (stacked : Stacked window.places) (shown : window.shown = some (.profile login userId)) :
    Stacked (window.back.push (.profile login userId')).places := by
  rw [← head?_places] at shown
  obtain ⟨below, places, rest⟩ := stacked.below_of_shown shown rfl
  rw [places_push, places_back places]
  exact .opened rfl rest

end Window

/-- The screens of a device lie where they were opened. -/
def WellStacked (device : Device rules) : Prop := Stacked device.window.places

/-- Signing out leaves the window alone. -/
theorem window_of_signOut {throws : Bool} {device next : Device rules}
    (signs : signOut throws device = some next) :
    next.window = device.window := by
  unfold signOut at signs
  split at signs
  · cases signs
  · cases signs
    rfl

namespace WellStacked

variable {device next : Device rules}

theorem loginButton {userName passWord : String} (stacked : WellStacked device)
    (shown : device.window.shown = none) :
    WellStacked (ViewController.loginButton device userName passWord) := by
  unfold ViewController.loginButton
  have root := Window.eq_of_shown_none shown
  split
  · simp only [WellStacked, root]
    exact .addInfo
  · split
    · exact stacked
    · split <;> exact stacked

theorem signUpButton {form : Gbc.SignUpViewController} (stacked : WellStacked device) :
    WellStacked (SignUpViewController.signUpButton device form) := by
  unfold SignUpViewController.signUpButton
  split <;> exact stacked

theorem manage {login : Login} (stacked : WellStacked device)
    (shown : device.window.shown = some (.tabBar login)) :
    WellStacked (ManagePostingsViewController.opened login device) := by
  unfold ManagePostingsViewController.opened
  split
  · exact stacked
  · exact Window.stacked_open stacked shown rfl

theorem segue {place : Place} {input : Input} (stacked : WellStacked device)
    (shown : device.window.shown = some place) :
    WellStacked ((place.segue input).elim device device.push) := by
  cases opens : place.segue input with
  | none => exact stacked
  | some opened => exact Window.stacked_open stacked shown (Place.of_segue opens).1

theorem logOut {throws again : Bool} (stacked : WellStacked device) :
    WellStacked (HomeTabViewController.logOutPressed throws again device) := by
  unfold HomeTabViewController.logOutPressed
  have popped := Window.stacked_popViewController stacked
  split
  · rename_i signedOut signs
    simp only [WellStacked, Device.loggedOut, window_of_signOut signs]
    split
    · exact Window.stacked_popViewController popped
    · exact popped
  · exact popped

theorem uploadButton {login : Login} {form : Gbc.UploadMarketPlaceViewController}
    (stacked : WellStacked device) :
    WellStacked (UploadMarketPlaceViewController.uploadButton login form device) := by
  unfold UploadMarketPlaceViewController.uploadButton
  split
  · exact stacked
  · split <;> exact stacked

theorem authState {login : Login} {userId : Option String} (stacked : WellStacked device)
    (shown : device.window.shown = some (.profile login userId)) :
    WellStacked (ProfileViewController.authState login device) := by
  unfold ProfileViewController.authState
  split
  · exact stacked
  · exact Window.stacked_profile stacked shown

theorem updateUserData {login : Login} {userId : Option String} (stacked : WellStacked device) :
    WellStacked (ProfileViewController.updateUserData login userId device) := by
  unfold ProfileViewController.updateUserData
  split <;> exact stacked

/-- Every input leaves the screens where they were opened. -/
theorem handle {input : Input} (stacked : WellStacked device) :
    WellStacked (device.handle input) := by
  unfold Device.handle
  split
  · rename_i shown
    exact stacked.loginButton shown
  · rename_i shown
    simp only [WellStacked, Device.push, Window.eq_of_shown_none shown]
    exact .signUp
  · exact stacked.signUpButton
  · rename_i shown
    exact stacked.manage shown
  · exact stacked.logOut
  · exact stacked.uploadButton
  · rename_i shown
    exact stacked.authState shown
  · exact stacked.updateUserData
  · exact Window.stacked_back stacked
  · exact stacked
  · refine stacked.segue ?_
    assumption

/-- A completion handler goes on to the tab bar or stays. -/
theorem reply {index : Nat} (stacked : WellStacked device)
    (replied : device.reply index = some next) : WellStacked next := by
  unfold Device.reply at replied
  split at replied
  · rename_i call email password result found
    obtain rfl := Option.some.inj replied
    cases call with
    | createUser => cases result <;> exact stacked
    | signIn =>
        cases result with
        | error code => exact stacked
        | ok user => exact Window.stacked_performSegue stacked _
  · cases replied

/-- Every step leaves the screens where they were opened. -/
theorem step {event : Event rules} (stacked : WellStacked device)
    (taken : device.step event = some next) : WellStacked next := by
  cases event with
  | restart =>
      obtain rfl := Option.some.inj taken
      exact .login
  | input input =>
      obtain ⟨-, handled⟩ := Option.ite_none_right_eq_some.mp taken
      obtain rfl := Option.some.inj handled
      exact stacked.handle
  | google user =>
      obtain ⟨-, signed⟩ := Option.ite_none_right_eq_some.mp taken
      obtain rfl := Option.some.inj signed
      unfold AppDelegate.sign
      split
      · exact stacked
      · exact .tabBar .login
  | serve index choice =>
      obtain ⟨-, served⟩ := Option.ite_none_right_eq_some.mp taken
      unfold Device.serve at served
      split at served
      · obtain ⟨answered, -, rfl⟩ := Option.map_eq_some_iff.mp served
        exact stacked
      · cases served
  | reply index =>
      obtain ⟨-, replied⟩ := Option.ite_none_right_eq_some.mp taken
      exact stacked.reply replied

end WellStacked

/-- The screens lie where they were opened, and closing a screen leads back to the one of its
own login that has opened it: the tab bar, or the Manage screen for an update screen. -/
structure ReturnsToOwnTabs (device : Device rules) : Prop where
  stacked : Stacked device.window.places
  returns : ∀ place opener, device.window.shown = some place → place.opener = some opener →
    opener.login = place.login ∧ device.window.back.shown = some opener

/-- In every run of a device, closing a screen leads back to the one it was opened from. -/
theorem returns_to_own_tabs {device : Device rules}
    (reached : (machine rules).Reaches (machine rules).anyStep (Device.installed server) device) :
    ReturnsToOwnTabs device := by
  have opened : WellStacked (Device.installed server) := Stacked.login
  have stacked : WellStacked device :=
    reached.invariant opened fun stacked _ taken => stacked.step taken
  refine ⟨stacked, fun place opener shown opens => ⟨(Place.login_of_opener opens).symm, ?_⟩⟩
  rw [← Window.head?_places] at shown
  obtain ⟨below, places, -⟩ := Stacked.below_of_shown stacked shown opens
  rw [← Window.head?_places, Window.places_back places]
  rfl

/-- Alice signs up and logs in. -/
def loggingIn : List (Event anyText) :=
  signingUp ++ [.input (.loginButton "Alice@gbc.ca" "secret1"), .serve 0 .ok, .reply 0]

/-- The posting form is shown. -/
def showsUpload (device : Device rules) : Bool :=
  match device.window.shown with
  | some (.upload _) => true
  | _ => false

/-- Alice opens the posting form. -/
theorem returns_to_own_tabs_upload :
    ∃ device, (machine anyText).Reaches (machine anyText).anyStep
        (Device.installed (.empty anyText)) device ∧
      showsUpload device = true ∧ ReturnsToOwnTabs device := by
  obtain ⟨device, reached, shown⟩ := Machine.exists_reaches (m := machine anyText)
    (machine anyText).anyStep (Device.installed (.empty anyText))
    (loggingIn ++ [.input .showUpload]) showsUpload (by decide +kernel)
  exact ⟨device, reached, shown, returns_to_own_tabs reached⟩

end Gbc.Session
