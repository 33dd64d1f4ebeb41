import Gbc.Callback.Budget
import Gbc.Callback.Chain
import Gbc.Callback.Contract
import Gbc.Session.Device

/-!
# The login form

The text fields of the login form, its alerts, and the two operations that it starts: a
sign-in, and the password reset that the alert of a refused sign-in offers. Firebase Auth is
any service for these two.
-/

namespace Gbc.Login

open Callback

/-- The operations of the login form. -/
inductive Request where
  | signIn (email password : String)
  | sendPasswordReset (email : String)

/-- Their answers. A password reset says whether it went without an error. -/
def Request.Response : Request → Type
  | .signIn _ _ => Except AuthErrorCode User
  | .sendPasswordReset _ => Bool

/-- Firebase Auth, as the login form knows it. -/
def auth : Interface := ⟨Request, Request.Response⟩

/-- A `UIAlertController` with its OK action. -/
structure Alert where
  title : String
  message : String
  /-- It has a "Forgot Password" action as well. -/
  forgotPassword : Bool

namespace Alert

def accessDenied : Alert :=
  ⟨" Access Denied", "Only admin can login using admin email", false⟩

def invalidDetails : Alert := ⟨"Invalid Details", "Please enter valid credentials", false⟩

def refused (code : AuthErrorCode) : Alert :=
  ⟨Session.ViewController.errorAlert code,
    "Please check your E-mail id or Password and try again! ", true⟩

def resetLinkSent : Alert :=
  ⟨"Reset Link Sent",
    "Please check your email to reset your password. After resetting try again.", false⟩

end Alert

/-- The segues to other screens. -/
inductive Segue where
  | adminLogin
  | sucessLogin
  | signUp
  deriving DecidableEq

/-- The login screen. The text of a text field is never nil. -/
structure ViewController where
  userName : String
  passWord : String
  presented : Option Alert
  /-- The screens pushed over this one, the topmost first. -/
  pushed : List Segue

/-- What a user does on the login screen, on its alerts, or on a screen above it. -/
inductive Input where
  | edit (userName passWord : String)
  | loginButton
  | showSignUp
  | ok
  | forgotPassword
  | back

/-- The body of a handler of the login screen. -/
abbrev Handling := Code auth ViewController Empty

namespace ViewController

/-- The user sees this screen and can touch it. -/
def touchable (self : ViewController) : Bool := self.presented.isNone && self.pushed.isEmpty

/-- `present(_:animated:)`. A screen that is not seen, or that presents already, presents
nothing. -/
def presenting (alert : Alert) (self : ViewController) : ViewController :=
  if self.touchable then { self with presented := some alert } else self

def present (alert : Alert) (next : Handling) : Handling := .modify (presenting alert) next

/-- `performSegue(withIdentifier:sender:)`. -/
def performSegue (segue : Segue) (next : Handling) : Handling :=
  .modify (fun self => { self with pushed := segue :: self.pushed }) next

/-- The user touches this screen. -/
def touched (next : ViewController → Handling) : Handling :=
  .look fun self => if self.touchable then next self else .done

/-- The completion handler of `signIn`. -/
def signedIn : Except AuthErrorCode User → Handling
  | .ok _ => performSegue .sucessLogin
      (.modify (fun self => { self with userName := "", passWord := "" }) .done)
  | .error code => present (.refused code) .done

def loginButton : Handling :=
  touched fun self =>
    if self.userName = "jonsnow@gmail.com" ∧ self.passWord = "hello123" then
      performSegue .adminLogin .done
    else if self.userName = "jonsnow@gmail.com" ∧ self.passWord ≠ "hello123" then
      present .accessDenied .done
    else if self.userName = "" ∨ self.passWord = "" then present .invalidDetails .done
    else .call (I := auth) (.signIn (lowercased self.userName) self.passWord) signedIn .done

/-- The completion handler of `sendPasswordReset`. An error is only printed. -/
def resetSent (sent : Bool) : Handling :=
  if sent then present .resetLinkSent .done else .done

/-- An action of the alert presented, which goes away first. -/
def action (offered : Alert → Bool) (next : ViewController → Handling) : Handling :=
  .look fun self =>
    if self.presented.any offered then .modify (fun self => { self with presented := none })
      (next self)
    else .done

/-- The action "Forgot Password". -/
def forgotPassword : Handling :=
  action (·.forgotPassword) fun self =>
    .call (I := auth) (.sendPasswordReset self.userName) resetSent .done

end ViewController

open ViewController in
def handler : Input → Handling
  | .edit userName passWord => touched fun _ =>
      .modify (fun self => { self with userName := userName, passWord := passWord }) .done
  | .loginButton => loginButton
  | .showSignUp => touched fun _ => performSegue .signUp .done
  | .ok => action (fun _ => true) fun _ => .done
  | .forgotPassword => forgotPassword
  | .back => .modify (fun self => { self with pushed := self.pushed.tail }) .done

/-- The login form as a program. -/
def app : App auth where
  Object := ViewController
  Root := Unit
  Input := Input
  Fault := Empty
  root _ := ⟨"rahul@gmail.com", "hello123", none, []⟩
  handler := handler

variable {service : Service auth}

/-- A request for a password reset. -/
def Request.isReset : Request → Bool
  | .signIn _ _ => false
  | .sendPasswordReset _ => true

/-- The answer of a sign-in that is refused. -/
def isRefusal : Exchange auth → Bool
  | ⟨.signIn _ _, result⟩ =>
      match (result : Except AuthErrorCode User) with
      | .ok _ => false
      | .error _ => true
  | ⟨.sendPasswordReset _, _⟩ => false

/-- The password resets that a login form has asked for. -/
def resets (form : Nat) (world : World app service) : Nat :=
  (world.pending.countP fun pending =>
    pending.past.entry.self == form && pending.request.isReset) +
  world.acknowledged.countP fun handled =>
    handled.1.entry.self == form && handled.2.request.isReset

/-- The refused sign-ins that a login form has heard of. -/
def refusals (form : Nat) (world : World app service) : Nat :=
  world.acknowledged.countP fun handled => handled.1.entry.self == form && isRefusal handled.2

section Counting

/-- A refused sign-in allows for one password reset, which is left while its alert is
presented. -/
def allowance : Budget app where
  cost request := request.isReset.toNat
  yield exchange := (isRefusal exchange).toNat
  left self := (self.presented.any (·.forgotPassword)).toNat

/-- The entries that pass a test are the sum of their ones. -/
theorem countP_eq_sum {Value : Type} (here test : Value → Bool) (values : List Value) :
    values.countP (fun value => here value && test value) =
      (values.map fun value => if here value = true then (test value).toNat else 0).sum := by
  induction values with
  | nil => rfl
  | cons value values inductionHypothesis =>
      rw [List.countP_cons, inductionHypothesis, List.map_cons, List.sum_cons, Nat.add_comm]
      cases here value <;> cases test value <;> rfl

theorem resets_eq_spent (form : Nat) (world : World app service) :
    resets form world = allowance.spent form world := by
  simp only [resets, Budget.spent, allowance, countP_eq_sum, beq_iff_eq]

theorem refusals_eq_earned (form : Nat) (world : World app service) :
    refusals form world = allowance.earned form world := by
  simp only [refusals, Budget.earned, allowance, countP_eq_sum, beq_iff_eq]

open ViewController

variable {self : ViewController} {means : Nat}

theorem affords_present {alert : Alert} (kept : allowance.left self ≤ means)
    (enough : alert.forgotPassword.toNat ≤ means) :
    allowance.Affords (present alert .done) self means := by
  unfold present presenting
  simp only [Budget.Affords]
  split
  · exact enough
  · exact kept

theorem affords_touched {next : ViewController → Handling} (kept : allowance.left self ≤ means)
    (affords : self.touchable = true → allowance.Affords (next self) self means) :
    allowance.Affords (touched next) self means := by
  simp only [touched, Budget.Affords]
  split
  · rename_i seen
    exact affords seen
  · exact kept

/-- A handler that only changes other properties than the alert can afford that. -/
theorem affords_modify {change : ViewController → ViewController}
    (kept : allowance.left self ≤ means) (same : (change self).presented = self.presented) :
    allowance.Affords (.modify change .done) self means := by
  simp only [Budget.Affords, allowance, same]
  exact kept

theorem affords_signedIn (result : Except AuthErrorCode User) (self : ViewController)
    (email password : String) :
    allowance.Affords (signedIn result) self
      (allowance.left self + allowance.yield ⟨.signIn email password, result⟩) := by
  cases result with
  | ok user => exact Nat.le_refl _
  | error code => exact affords_present (Nat.le_add_right _ _) (Nat.le_add_left _ _)

theorem affords_resetSent (sent : Bool) (self : ViewController) (email : String) :
    allowance.Affords (resetSent sent) self
      (allowance.left self + allowance.yield ⟨.sendPasswordReset email, sent⟩) := by
  unfold resetSent
  split
  · exact affords_present (Nat.le_add_right _ _) (Nat.zero_le _)
  · exact Nat.le_add_right _ _

theorem affords_loginButton (self : ViewController) :
    allowance.Affords loginButton self (allowance.left self) := by
  apply affords_touched (Nat.le_refl _)
  intro seen
  split
  · exact affords_modify (Nat.le_refl _) rfl
  split
  · exact affords_present (Nat.le_refl _) (Nat.zero_le _)
  split
  · exact affords_present (Nat.le_refl _) (Nat.zero_le _)
  · exact ⟨fun result target => affords_signedIn result target _ _, _, (Nat.zero_add _).symm,
      Nat.le_refl _⟩

/-- The action goes away with its alert, so what that left is spent at most once. -/
theorem affords_forgotPassword (self : ViewController) :
    allowance.Affords forgotPassword self (allowance.left self) := by
  simp only [forgotPassword, action, Budget.Affords]
  split
  · rename_i offered
    refine ⟨fun sent target => affords_resetSent sent target _, 0, ?_, Nat.le_refl _⟩
    simp only [allowance, offered]
    rfl
  · exact Nat.le_refl _

theorem affords_handler (input : Input) (self : ViewController) :
    allowance.Affords (handler input) self (allowance.left self) := by
  cases input with
  | edit userName passWord =>
      exact affords_touched (Nat.le_refl _) fun _ => affords_modify (Nat.le_refl _) rfl
  | loginButton => exact affords_loginButton self
  | showSignUp => exact affords_touched (Nat.le_refl _) fun _ => affords_modify (Nat.le_refl _) rfl
  | ok =>
      simp only [handler, action, Budget.Affords]
      split
      · exact Nat.zero_le _
      · exact Nat.le_refl _
  | forgotPassword => exact affords_forgotPassword self
  | back => exact affords_modify (Nat.le_refl _) rfl

end Counting

/-- The press that an operation goes back to. -/
inductive Pressed (entry : Entry app) : Request → Prop where
  | loginButton (pressed : entry.input = .loginButton) (seen : entry.object.touchable = true)
      (admin : entry.object.userName ≠ "jonsnow@gmail.com")
      (named : entry.object.userName ≠ "") (secret : entry.object.passWord ≠ "") :
      Pressed entry (.signIn (lowercased entry.object.userName) entry.object.passWord)
  | forgotPassword {code : AuthErrorCode} (pressed : entry.input = .forgotPassword)
      (presented : entry.object.presented = some (.refused code)) :
      Pressed entry (.sendPasswordReset entry.object.userName)

section Presses

/-- Only the alert of a refused sign-in offers a password reset. -/
def Offers (self : ViewController) : Prop :=
  ∀ alert ∈ self.presented, alert.forgotPassword = true → ∃ code, alert = .refused code

/-- Operations go back to presses. -/
def presses (service : Service auth) : Contract app service where
  Evolves _ _ := True
  Server _ := True
  Object _ self := Offers self
  Request _ past request := Pressed past.entry request
  Response _ _ _ _ := True
  Fault _ := False
  InputGuard _ _ := True
  ServeGuard _ _ _ _ := True
  ReplyGuard _ _ _ _ := True

open ViewController

variable {server : service.State} {past : Past app} {self : ViewController}

theorem offers_presenting {alert : Alert} (offers : Offers self)
    (refused : alert.forgotPassword = true → ∃ code, alert = .refused code) :
    Offers (presenting alert self) := by
  unfold presenting
  split
  · intro shown member
    cases member
    exact refused
  · exact offers

theorem offers_ok {alert : Alert} (offers : Offers self)
    (plain : alert.forgotPassword = false) : Offers (presenting alert self) := by
  apply offers_presenting offers
  intro offered
  rw [plain] at offered
  cases offered

theorem offers_of_none (dismissed : self.presented = none) : Offers self := by
  intro alert member
  rw [dismissed] at member
  cases member

theorem safe_touched {next : ViewController → Handling}
    (safe : self.touchable = true → (presses service).Safe server past (next self) self) :
    (presses service).Safe server past (touched next) self := by
  simp only [touched, Contract.Safe]
  split
  · rename_i seen
    exact safe seen
  · trivial

theorem safe_signedIn (result : Except AuthErrorCode User) (offers : Offers self) :
    (presses service).Safe server past (signedIn result) self := by
  cases result with
  | ok user => exact ⟨offers, offers, trivial⟩
  | error code => exact ⟨offers_presenting offers fun _ => ⟨code, rfl⟩, trivial⟩

theorem safe_resetSent (sent : Bool) (offers : Offers self) :
    (presses service).Safe server past (resetSent sent) self := by
  unfold resetSent
  split
  · exact ⟨offers_ok offers rfl, trivial⟩
  · trivial

theorem safe_loginButton (offers : Offers self) (pressed : past.entry.input = .loginButton)
    (here : past.entry.object = self) :
    (presses service).Safe server past loginButton self := by
  apply safe_touched
  intro seen
  split
  · exact ⟨offers, trivial⟩
  rename_i password
  split
  · exact ⟨offers_ok offers rfl, trivial⟩
  rename_i access
  split
  · exact ⟨offers_ok offers rfl, trivial⟩
  rename_i filled
  rw [not_or] at filled
  have admin : self.userName ≠ "jonsnow@gmail.com" := fun same =>
    access ⟨same, fun secret => password ⟨same, secret⟩⟩
  subst here
  exact ⟨.loginButton pressed seen admin filled.1 filled.2,
    fun _ result _ _ _ _ valid _ => safe_signedIn result valid, trivial⟩

theorem safe_forgotPassword (offers : Offers self)
    (pressed : past.entry.input = .forgotPassword) (here : past.entry.object = self) :
    (presses service).Safe server past forgotPassword self := by
  simp only [forgotPassword, action, Contract.Safe]
  split
  · rename_i offered
    obtain ⟨alert, presented, offered⟩ := (Option.any_eq_true _ _).mp offered
    obtain ⟨code, rfl⟩ := offers alert presented offered
    subst here
    exact ⟨offers_of_none rfl, .forgotPassword pressed presented,
      fun _ sent _ _ _ _ valid _ => safe_resetSent sent valid, trivial⟩
  · trivial

theorem safe_handler (input : Input) (offers : Offers self) (pressed : past.entry.input = input)
    (here : past.entry.object = self) :
    (presses service).Safe server past (handler input) self := by
  cases input with
  | edit userName passWord => exact safe_touched fun _ => ⟨offers, trivial⟩
  | loginButton => exact safe_loginButton offers pressed here
  | showSignUp => exact safe_touched fun _ => ⟨offers, trivial⟩
  | ok =>
      simp only [handler, action, Contract.Safe]
      split
      · exact ⟨offers_of_none rfl, trivial⟩
      · trivial
  | forgotPassword => exact safe_forgotPassword offers pressed here
  | back => exact ⟨offers, trivial⟩

theorem presses_sound : (presses service).Sound where
  refl _ := trivial
  trans _ _ := trivial
  object _ valid := valid
  request _ pressed := pressed
  response _ _ := trivial
  root _ _ _ := offers_of_none rfl
  input _ _ _ input _ offers _ pressed here _ := safe_handler input offers pressed here
  serve _ _ _ _ := ⟨trivial, trivial, trivial⟩

end Presses

/-- The login form over a service, as a machine. -/
abbrev system (service : Service auth) : Machine := World.machine app service

/-- Whatever Firebase Auth answers, a login form asks for no more password resets than it has
heard of refused sign-ins, and each of its operations goes back to a press: a sign-in to one
of the login button on a filled form with another address than the admin's, and a password
reset to one of "Forgot Password" on the alert of a refused sign-in. -/
theorem resets_follow_refusals {server : service.State} {world : World app service}
    (reached : (system service).Reaches (system service).anyStep
      (World.initial app server) world) :
    (∀ form, resets form world ≤ refusals form world) ∧
      ∀ past request, world.Issued past request → Pressed past.entry request := by
  constructor
  · intro form
    have balanced : allowance.Balanced world :=
      Budget.balanced_of_reachable (fun _ => rfl) affords_handler reached
    rw [resets_eq_spent, refusals_eq_earned]
    exact Nat.le_trans (Nat.le_add_right _ _) (balanced.balance form)
  · intro past request issued
    have meets : ∀ (state : World app service) event, (presses service).guard state event := by
      intro state event
      cases event <;> simp [Contract.guard, presses]
    have holds : (presses service).Holds world :=
      .reachable presses_sound (Contract.holds_initial trivial)
        (reached.weaken fun state event _ => meets state event)
    cases issued with
    | outstanding member same asked =>
        subst same asked
        exact (holds.pending _ member).request
    | handled member => exact holds.acknowledged _ member

section Schedules

/-- Firebase Auth with the accounts of a server. -/
def firebaseAuth : Service auth where
  State := Server anyText
  Choice := AuthErrorCode
  serve server request code :=
    match request with
    | .signIn email password =>
        some (server, match server.user email password with
          | some user => (.ok user : Except AuthErrorCode User)
          | none => (.error code : Except AuthErrorCode User))
    | .sendPasswordReset email =>
        some (server, server.accounts.any fun account =>
          lowercased account.email == lowercased email)

/-- Two sign-ins with a wrong password, and a password reset after them. -/
def forgetting : List (Event app firebaseAuth) :=
  [.launch 0 (), .input 0 (.edit "Nia@mail" "wrong"), .input 0 .loginButton,
    .input 0 .loginButton, .serve 0 .wrongPassword, .reply 0, .serve 0 .wrongPassword, .reply 0,
    .input 0 .forgotPassword, .serve 0 .other, .reply 0]

/-- The form has asked for one reset after two refusals, and presents that it was sent. -/
def linkSent (world : World app firebaseAuth) : Bool :=
  resets 0 world == 1 && refusals 0 world == 2 &&
    ((world.objects[0]?).bind (·.object.presented)).any (·.title == "Reset Link Sent")

/-- The second refusal is not presented, and allows for no reset. -/
theorem resets_follow_refusals_sent :
    ∃ world : World app firebaseAuth, linkSent world = true ∧
      (∀ form, resets form world ≤ refusals form world) ∧
        ∀ past request, world.Issued past request → Pressed past.entry request := by
  obtain ⟨world, reached, sent⟩ := Machine.exists_reaches (m := system firebaseAuth)
    (system firebaseAuth).anyStep
    (World.initial app ({ Server.empty anyText with accounts := [⟨"u1", "nia@mail", "right"⟩] } :
      Server anyText))
    forgetting linkSent (by decide +kernel)
  exact ⟨world, sent, resets_follow_refusals reached⟩

end Schedules

end Gbc.Login
