import Mathlib.Data.List.Nodup
import Gbc.Session.Device

/-!
# The admin address

The login button compares what was typed with the admin address as it stands. Firebase
takes addresses that differ in case for one, and the sign-up form compares nothing, so an
ordinary account may get hold of the admin address. `Ordinary` says that no such account
has been logged in to.
-/

namespace Gbc.Session

variable {rules : URLRules}

/-- The address that `loginButton` takes for the admin's. -/
def adminAddress : String := "jonsnow@gmail.com"

/-- The password that `loginButton` lets the admin in with. -/
def adminPassword : String := "hello123"

/-- Firebase takes the address for the admin's. -/
def namesAdmin (address : String) : Bool := lowercased address == adminAddress

/-- The account of the user has the admin address. -/
def OwnedByAdmin (server : Server rules) (user : User) : Prop :=
  ∃ account ∈ server.accounts, account.uid = user.uid ∧ namesAdmin account.email = true

/-- A login attempt has been refused: there is an alert, and nothing else has changed. -/
def Refused (device next : Device rules) : Prop :=
  (∃ title, next.alerts = title :: device.alerts) ∧ next.window = device.window ∧
    next.currentUser = device.currentUser

/-- What becomes of an attempt to log in with the admin address. -/
inductive Attempted (device : Device rules) (passWord : String) (next : Device rules) :
    Prop where
  | admin (correct : passWord = adminPassword) (opens : next.window.shown = some .addInfo)
  | refused (wrong : passWord ≠ adminPassword) (refuses : Refused device next)
  /-- Firebase is asked. What it answers is said by `Reserves.answered`. -/
  | asked {email : String} (wrong : passWord ≠ adminPassword) (named : namesAdmin email = true)
      (asks : next = device.start .signIn email passWord)

/-- A step leaves the admin address to the admin. -/
structure Reserves (device : Device rules) (event : Event rules) (next : Device rules) :
    Prop where
  ordinary : ∀ place ∈ next.window.places, ∀ user, place.login = some (.email (.ok user)) →
    ¬ OwnedByAdmin next.server user
  attempted : ∀ userName passWord, event = .input (.loginButton userName passWord) →
    device.window.shown = none → namesAdmin userName = true →
    Attempted device passWord next
  answered : ∀ index email password result, event = .reply index →
    device.outstanding[index]? = some ⟨.signIn, email, password, some result⟩ →
    namesAdmin email = true → Refused device next

/-- The admin address is typed in lower case when it comes with the admin password, and
no account has the address and the password of a sign-in under it. -/
def adminKept (device : Device rules) : Event rules → Bool
  | .input (.loginButton userName passWord) =>
      !namesAdmin userName || userName == adminAddress || passWord != adminPassword
  | .serve index _ =>
      (device.outstanding[index]?).all fun operation =>
        !(operation.call == .signIn && namesAdmin operation.email) ||
          (device.server.user operation.email operation.password).isNone
  | _ => true

/-- The user has an account under another address. -/
def OfOther (server : Server rules) (user : User) : Prop :=
  ∃ account ∈ server.accounts, account.uid = user.uid ∧ namesAdmin account.email = false

/-- A screen of the window was opened by this login step. -/
def Opened (window : Window) (login : Login) : Prop :=
  ∃ place ∈ window.places, place.login = some login

/-- Whoever has logged in has an account under another address than the admin's. -/
structure Ordinary (device : Device rules) : Prop where
  distinct : (device.server.accounts.map (·.uid)).Nodup
  opened : ∀ user, Opened device.window (.email (.ok user)) → OfOther device.server user
  answered : ∀ operation ∈ device.outstanding, operation.call = .signIn → ∀ user,
    operation.answer = some (.ok user) →
      namesAdmin operation.email = false ∧ OfOther device.server user

section Windows

variable {window : Window} {place : Place} {login : Login}

theorem mem_places_of_shown (shown : window.shown = some place) : place ∈ window.places := by
  cases window with
  | navigation pushed => exact List.mem_of_mem_head? shown
  | tabBar login presented =>
      cases presented with
      | nil =>
          obtain rfl := Option.some.inj shown
          exact List.mem_singleton_self _
      | cons top rest =>
          obtain rfl := Option.some.inj shown
          exact List.mem_cons_self

/-- A segue from a screen opens the new one for the same login step. -/
theorem opened_of_push (opened : Opened (window.push place) login) :
    place.login = some login ∨ Opened window login := by
  obtain ⟨found, member, same⟩ := opened
  cases window with
  | navigation pushed =>
      rcases List.mem_cons.mp member with rfl | older
      · exact .inl same
      · exact .inr ⟨found, older, same⟩
  | tabBar root presented =>
      rcases List.mem_cons.mp member with rfl | older
      · exact .inl same
      · exact .inr ⟨found, older, same⟩

theorem opened_of_performSegue (opened : Opened (window.performSegue place) login) :
    place.login = some login ∨ Opened window login := by
  cases window with
  | navigation pushed => exact opened_of_push opened
  | tabBar root presented => exact .inr opened

/-- Going back opens nothing. -/
theorem opened_of_back (opened : Opened window.back login) : Opened window login := by
  obtain ⟨found, member, same⟩ := opened
  cases window with
  | navigation pushed => exact ⟨found, List.mem_of_mem_tail member, same⟩
  | tabBar root presented =>
      rcases List.mem_append.mp member with rest | last
      · exact ⟨found, List.mem_append_left _ (List.mem_of_mem_tail rest), same⟩
      · exact ⟨found, List.mem_append_right _ last, same⟩

theorem opened_of_popViewController (opened : Opened window.popViewController login) :
    Opened window login := by
  cases window with
  | navigation pushed => exact opened_of_back opened
  | tabBar root presented => exact opened

end Windows

section Steps

variable {device next : Device rules} {event : Event rules}

/-- A handler of an input: it asks nothing of the backend by itself, answers nothing, and
opens a screen only for a login step that has opened one before. -/
structure Handled (device next : Device rules) : Prop where
  server : next.server = device.server
  opened : ∀ login, Opened next.window login → Opened device.window login
  outstanding : ∀ operation ∈ next.outstanding,
    operation ∈ device.outstanding ∨ operation.answer = none

/-- A handler that leaves the screens and the calls alone. -/
theorem handled_of_same (server : next.server = device.server)
    (window : next.window = device.window) (outstanding : next.outstanding = device.outstanding) :
    Handled device next where
  server := server
  opened _ opened := window ▸ opened
  outstanding _ member := .inl (outstanding ▸ member)

theorem handled_start {call : AuthCall} {email password : String} :
    Handled device (device.start call email password) where
  server := rfl
  opened _ opened := opened
  outstanding operation member := by
    rcases List.mem_append.mp member with older | added
    · exact .inl older
    · exact .inr (List.mem_singleton.mp added ▸ rfl)

/-- A screen without a login step, or one that is opened from a screen of its login. -/
theorem handled_push {place : Place}
    (acting : ∀ login, place.login = some login → Opened device.window login) :
    Handled device (device.push place) where
  server := rfl
  opened login opened := (opened_of_push opened).elim (acting login) id
  outstanding _ member := .inl member

/-- A segue opens a screen for the login of the one below. -/
theorem handled_segue {place : Place} {input : Input}
    (shown : device.window.shown = some place) :
    Handled device ((place.segue input).elim device device.push) := by
  cases opens : place.segue input with
  | none => exact handled_of_same rfl rfl rfl
  | some opened =>
      have below := Place.login_of_opener (Place.of_segue opens).1
      exact handled_push fun _ same => ⟨place, mem_places_of_shown shown, below ▸ same⟩

theorem handled_loginButton {userName passWord : String} :
    Handled device (ViewController.loginButton device userName passWord) := by
  unfold ViewController.loginButton
  split
  · exact ⟨rfl, fun _ opened => (opened_of_performSegue opened).resolve_left nofun,
      fun _ => .inl⟩
  · split
    · exact handled_of_same rfl rfl rfl
    · split
      · exact handled_of_same rfl rfl rfl
      · exact handled_start

theorem handled_signUpButton {form : Gbc.SignUpViewController} :
    Handled device (SignUpViewController.signUpButton device form) := by
  unfold SignUpViewController.signUpButton
  split
  · exact handled_of_same rfl rfl rfl
  · exact handled_start

theorem handled_logOutPressed {throws again : Bool} :
    Handled device (HomeTabViewController.logOutPressed throws again device) := by
  have popped : ∀ login, Opened device.window.popViewController.popViewController login →
      Opened device.window login := fun _ opened =>
    opened_of_popViewController (opened_of_popViewController opened)
  unfold HomeTabViewController.logOutPressed signOut
  cases throws && device.currentUser.isSome with
  | true => exact ⟨rfl, fun _ => opened_of_popViewController, fun _ => .inl⟩
  | false =>
      cases again with
      | true => exact ⟨rfl, popped, fun _ => .inl⟩
      | false => exact ⟨rfl, fun _ => opened_of_popViewController, fun _ => .inl⟩

theorem handled_uploadButton {login : Login} {form : Gbc.UploadMarketPlaceViewController} :
    Handled device (UploadMarketPlaceViewController.uploadButton login form device) := by
  unfold UploadMarketPlaceViewController.uploadButton
  split
  · exact handled_of_same rfl rfl rfl
  · split <;> exact handled_of_same rfl rfl rfl

theorem handled_manage {login : Login} (shown : device.window.shown = some (.tabBar login)) :
    Handled device (ManagePostingsViewController.opened login device) := by
  unfold ManagePostingsViewController.opened
  split
  · exact handled_of_same rfl rfl rfl
  · refine ⟨rfl, fun step opened => (opened_of_push opened).elim ?_ id, fun _ => .inl⟩
    rintro ⟨⟩
    exact ⟨_, mem_places_of_shown shown, rfl⟩

theorem handled_authState {login : Login} {userId : Option String}
    (shown : device.window.shown = some (.profile login userId)) :
    Handled device (ProfileViewController.authState login device) := by
  unfold ProfileViewController.authState
  split
  · exact handled_of_same rfl rfl rfl
  · refine ⟨rfl, fun step opened => (opened_of_push opened).elim ?_ opened_of_back, fun _ => .inl⟩
    rintro ⟨⟩
    exact ⟨_, mem_places_of_shown shown, rfl⟩

/-- Every input is handled so. -/
theorem handled_handle {input : Input} : Handled device (device.handle input) := by
  unfold Device.handle
  split
  · exact handled_loginButton
  · exact handled_push nofun
  · exact handled_signUpButton
  · rename_i shown
    exact handled_manage shown
  · exact handled_logOutPressed
  · exact handled_uploadButton
  · rename_i shown
    exact handled_authState shown
  · unfold ProfileViewController.updateUserData
    split <;> exact handled_of_same rfl rfl rfl
  · exact ⟨rfl, fun _ => opened_of_back, fun _ => .inl⟩
  · exact handled_of_same rfl rfl rfl
  · refine handled_segue ?_
    assumption

/-- Handlers of inputs log nobody in. -/
theorem Ordinary.handled (ordinary : Ordinary device) (handled : Handled device next) :
    Ordinary next where
  distinct := by rw [handled.server]; exact ordinary.distinct
  opened user opened := by rw [handled.server]; exact ordinary.opened user (handled.opened _ opened)
  answered operation member signIn user answer := by
    rw [handled.server]
    rcases handled.outstanding operation member with older | unanswered
    · exact ordinary.answered operation older signIn user answer
    · rw [unanswered] at answer
      cases answer

/-- A sign-in finds an account with the address it asks for. -/
theorem ofOther_of_signIn {server : Server rules} {email password : String} {user : User}
    (found : server.user email password = some user) (other : namesAdmin email = false) :
    OfOther server user := by
  obtain ⟨account, matching, named⟩ := Option.bind_eq_some_iff.mp found
  have agrees := List.find?_some matching
  obtain ⟨same, _⟩ := Bool.and_eq_true_iff.mp agrees
  obtain ⟨uid_ne, named⟩ := Option.dite_none_right_eq_some.mp named
  cases named
  refine ⟨account, List.mem_of_find?_eq_some matching, rfl, ?_⟩
  rw [namesAdmin, beq_iff_eq.mp same]
  exact other

/-- A user has one account. -/
theorem not_ownedByAdmin {server : Server rules} {user : User}
    (distinct : (server.accounts.map (·.uid)).Nodup) (other : OfOther server user) :
    ¬ OwnedByAdmin server user := by
  rintro ⟨account, member, owned, named⟩
  obtain ⟨account', member', owned', named'⟩ := other
  obtain rfl := List.inj_on_of_nodup_map distinct member member' (owned.trans owned'.symm)
  exact Bool.false_ne_true (named'.symm.trans named)

/-- A sign-up keeps all accounts, and user IDs apart. -/
theorem accounts_of_served {server later : Server rules} {email password : String}
    {result : Except AuthErrorCode User} (distinct : (server.accounts.map (·.uid)).Nodup)
    (served : server.Served (.createUser email password) later result) :
    (later.accounts.map (·.uid)).Nodup ∧ ∀ account ∈ server.accounts, account ∈ later.accounts := by
  cases served with
  | registered uid_ne fresh =>
      refine ⟨List.nodup_cons.mpr ⟨fun member => ?_, distinct⟩, fun _ => List.mem_cons_of_mem _⟩
      obtain ⟨account, member, same⟩ := List.mem_map.mp member
      exact (fresh account member).1 same
  | refused => exact ⟨distinct, fun _ => id⟩

theorem OfOther.later {server later : Server rules} {user : User}
    (kept : ∀ account ∈ server.accounts, account ∈ later.accounts) (other : OfOther server user) :
    OfOther later user := by
  obtain ⟨account, member, owned, named⟩ := other
  exact ⟨account, kept account member, owned, named⟩

/-- Firebase answers a sign-in under another address than the admin's only. -/
theorem Ordinary.serve {index : Nat} {choice : Server.Choice rules} (ordinary : Ordinary device)
    (kept : adminKept device (.serve index choice) = true)
    (served : device.serve index choice = some next) : Ordinary next := by
  unfold Device.serve at served
  split at served
  · rename_i call email password found
    obtain ⟨⟨server, result⟩, responded, rfl⟩ := Option.map_eq_some_iff.mp served
    have outstanding := List.mem_of_getElem? found
    simp only [adminKept, found, Option.all_some] at kept
    cases call with
    | signIn =>
        have same : server = device.server ∧ ∀ user, result = .ok user →
            device.server.user email password = some user := by
          cases choice with
          | ok =>
              obtain ⟨user, signedIn, named⟩ := Option.map_eq_some_iff.mp responded
              cases named
              exact ⟨rfl, fun other same => by cases same; exact signedIn⟩
          | refuse code => cases responded; exact ⟨rfl, nofun⟩
          | _ => cases responded
        obtain ⟨rfl, signedIn⟩ := same
        refine { ordinary with answered := fun operation member signIn user answer => ?_ }
        rcases List.mem_or_eq_of_mem_set member with older | rfl
        · exact ordinary.answered operation older signIn user answer
        · have found := signedIn user (Option.some.inj answer)
          have other : namesAdmin email = false := by simpa [found] using kept
          exact ⟨other, ofOther_of_signIn found other⟩
    | createUser =>
        obtain ⟨distinct, kept⟩ :=
          accounts_of_served ordinary.distinct (Server.served_of_serve responded)
        refine ⟨distinct, fun user opened => (ordinary.opened user opened).later kept, ?_⟩
        intro operation member signIn user answer
        rcases List.mem_or_eq_of_mem_set member with older | rfl
        · obtain ⟨other, owned⟩ := ordinary.answered operation older signIn user answer
          exact ⟨other, owned.later kept⟩
        · cases signIn
  · cases served

/-- A completion handler opens the tab screens for the user whom a sign-in has answered. -/
theorem Ordinary.reply {index : Nat} (ordinary : Ordinary device)
    (replied : device.reply index = some next) : Ordinary next := by
  unfold Device.reply at replied
  split at replied
  · rename_i call email password result found
    obtain rfl := Option.some.inj replied
    have outstanding := List.mem_of_getElem? found
    have rest : ∀ operation ∈ device.outstanding.eraseIdx index, operation ∈ device.outstanding :=
      fun _ => List.mem_of_mem_eraseIdx
    have handled : Ordinary { device with outstanding := device.outstanding.eraseIdx index } :=
      { ordinary with answered := fun operation member => ordinary.answered _ (rest _ member) }
    cases call with
    | createUser => cases result <;> exact { handled with }
    | signIn =>
        cases result with
        | error code => exact { handled with }
        | ok user =>
            obtain ⟨_, other⟩ := ordinary.answered _ outstanding rfl user rfl
            refine { handled with opened := fun opener opened => ?_ }
            rcases opened_of_performSegue opened with same | older
            · cases same
              exact other
            · exact handled.opened opener older
  · cases replied

/-- Steps that pass the test log nobody in under the admin address. -/
theorem Ordinary.step (ordinary : Ordinary device) (kept : adminKept device event = true)
    (taken : device.step event = some next) : Ordinary next := by
  cases event with
  | restart =>
      obtain rfl := Option.some.inj taken
      exact { ordinary with opened := nofun, answered := nofun }
  | input input =>
      obtain ⟨-, handled⟩ := Option.ite_none_right_eq_some.mp taken
      obtain rfl := Option.some.inj handled
      exact ordinary.handled handled_handle
  | google user =>
      obtain ⟨-, signed⟩ := Option.ite_none_right_eq_some.mp taken
      obtain rfl := Option.some.inj signed
      unfold AppDelegate.sign
      split
      · exact { ordinary with }
      · refine { ordinary with opened := fun opener opened => ?_ }
        obtain ⟨place, member, same⟩ := opened
        obtain rfl := List.mem_singleton.mp member
        cases same
  | serve index choice =>
      obtain ⟨-, served⟩ := Option.ite_none_right_eq_some.mp taken
      exact ordinary.serve kept served
  | reply index =>
      obtain ⟨-, replied⟩ := Option.ite_none_right_eq_some.mp taken
      exact ordinary.reply replied

theorem ordinary_of_reaches
    (reached : (machine rules).Reaches adminKept (Device.installed (.empty rules)) device) :
    Ordinary device := by
  refine reached.invariant ⟨.nil, ?_, nofun⟩ fun ordinary kept taken => ordinary.step kept taken
  rintro user ⟨place, member, _⟩
  cases member

/-- An attempt under the admin address as it is typed. -/
theorem attempted_of_loginButton {userName passWord : String}
    (kept : adminKept device (.input (.loginButton userName passWord)) = true)
    (shown : device.window.shown = none) (named : namesAdmin userName = true) :
    Attempted device passWord (ViewController.loginButton device userName passWord) := by
  simp only [adminKept, named, Bool.not_true, Bool.false_or, Bool.or_eq_true, beq_iff_eq,
    bne_iff_ne] at kept
  unfold ViewController.loginButton
  split
  · rename_i admin
    refine .admin admin.2 ?_
    cases window : device.window with
    | navigation pushed => rfl
    | tabBar login presented => rw [window] at shown; cases shown
  · rename_i notAdmin
    have wrong : passWord ≠ adminPassword := fun correct =>
      kept.elim (fun typed => notAdmin ⟨typed, correct⟩) fun other => other correct
    split
    · exact .refused wrong ⟨⟨_, rfl⟩, rfl, rfl⟩
    · split
      · exact .refused wrong ⟨⟨_, rfl⟩, rfl, rfl⟩
      · refine .asked wrong ?_ rfl
        rw [namesAdmin, beq_iff_eq.mp named]
        decide +kernel

end Steps

/-- In every run whose logins with the admin password spell the admin address in lower
case and whose sign-ins under it find no account, the admin address is the admin's. -/
theorem admin_address_reserved (rules : URLRules) (device next : Device rules)
    (event : Event rules)
    (reached : (machine rules).Reaches adminKept (Device.installed (.empty rules)) device)
    (kept : adminKept device event = true) (taken : device.step event = some next) :
    Reserves device event next := by
  have ordinary := ordinary_of_reaches reached
  have later := ordinary.step kept taken
  refine ⟨fun place member user same => ?_, ?_, ?_⟩
  · exact not_ownedByAdmin later.distinct (later.opened user ⟨place, member, same⟩)
  · rintro userName passWord rfl shown named
    obtain ⟨-, handled⟩ := Option.ite_none_right_eq_some.mp taken
    obtain rfl := Option.some.inj handled
    have pressed : device.handle (.loginButton userName passWord) =
        ViewController.loginButton device userName passWord := by
      simp [Device.handle, shown]
    rw [pressed]
    exact attempted_of_loginButton kept shown named
  · rintro index email password result rfl found named
    obtain ⟨-, replied⟩ := Option.ite_none_right_eq_some.mp taken
    simp only [Device.reply, found, Option.some.injEq] at replied
    obtain rfl := replied
    cases result with
    | error code => exact ⟨⟨_, rfl⟩, rfl, rfl⟩
    | ok user =>
        obtain ⟨other, -⟩ := ordinary.answered _ (List.mem_of_getElem? found) rfl user rfl
        rw [named] at other
        cases other

section Schedules

/-- A sign-up with this address. -/
def signingUpAs (eMail : String) : List (Event anyText) :=
  [.input .showSignUp,
    .input (.signUpButton ⟨some ⟨"face", true⟩, "Jon", eMail, "secret1", "4165550100"⟩),
    .serve 0 (.name "u1"), .reply 0, .restart]

/-- Somebody who is not the admin tries the admin address. -/
theorem admin_address_reserved_refused :
    ∃ device next : Device anyText, device.step (.reply 0) = some next ∧
      Reserves device (.reply 0) next := by
  obtain ⟨device, reached, replies⟩ := Machine.exists_reaches (m := machine anyText) adminKept
    (Device.installed (.empty anyText))
    (signingUpAs "jon@gmail.com" ++
      [.input (.loginButton "JonSnow@gmail.com" "secret1"), .serve 0 (.refuse .wrongPassword)])
    (fun device : Device anyText => adminKept device (.reply 0) && (device.step (.reply 0)).isSome)
    (by decide +kernel)
  obtain ⟨kept, replies⟩ := Bool.and_eq_true_iff.mp replies
  obtain ⟨next, taken⟩ := Option.isSome_iff_exists.mp replies
  exact ⟨device, next, taken, admin_address_reserved _ device next _ reached kept taken⟩

/-- The tab screens were opened for an account with the admin address. -/
def opensAdmin (device : Device rules) : Bool :=
  device.window.places.any fun place =>
    match place.login with
    | some (.email (.ok user)) => device.server.accounts.any fun account =>
        account.uid == user.uid && namesAdmin account.email
    | _ => false

theorem Reserves.not_opensAdmin {device next : Device rules} {event : Event rules}
    (reserves : Reserves device event next) : opensAdmin next = false := by
  refine Bool.eq_false_iff.mpr fun opens => ?_
  obtain ⟨place, member, owned⟩ := List.any_eq_true.mp opens
  split at owned
  · rename_i user same
    obtain ⟨account, listed, named⟩ := List.any_eq_true.mp owned
    obtain ⟨uid, named⟩ := Bool.and_eq_true_iff.mp named
    exact reserves.ordinary place member user same ⟨account, listed, beq_iff_eq.mp uid, named⟩
  · cases owned

/-- Somebody signs up with the admin address, and logs in by typing a capital letter. -/
theorem admin_address_taken :
    ¬ ∀ (rules : URLRules) (device next : Device rules) (event : Event rules),
      (machine rules).Reaches (machine rules).anyStep (Device.installed (.empty rules)) device →
      device.step event = some next → Reserves device event next := by
  intro reserves
  obtain ⟨device, reached, opens⟩ := Machine.exists_reaches (m := machine anyText)
    (machine anyText).anyStep (Device.installed (.empty anyText))
    (signingUpAs "jonsnow@gmail.com" ++
      [.input (.loginButton "JonSnow@gmail.com" "secret1"), .serve 0 .ok])
    (fun device : Device anyText => (device.step (.reply 0)).any opensAdmin) (by decide +kernel)
  obtain ⟨next, taken, opens⟩ := (Option.any_eq_true _ _).mp opens
  have unopened := (reserves _ device next _ reached taken).not_opensAdmin
  exact Bool.false_ne_true (unopened.symm.trans opens)

end Schedules

end Gbc.Session
