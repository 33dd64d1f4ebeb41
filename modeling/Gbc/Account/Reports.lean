import Gbc.Account.Profiles
import Gbc.Market.Reports

/-!
# The success alert of a sign-up

A sign-up presents its success alert when the account has been created, and writes the
document of the user last. So no flow of the program reports its success truly.
-/

namespace Gbc

open Callback Handler World Reporter

variable {rules : URLRules}

namespace Account

/-- The write that completes a sign-up. -/
def completes : Input → Request rules → Bool
  | .signUpButton, .addDocument .users _ => true
  | _, _ => false

/-- An account that has been created. -/
def registers : (request : Request rules) → request.Response → Bool
  | .createUser _ _, (.ok _ : Except AuthErrorCode User) => true
  | _, _ => false

/-- The completion handler of `createUser` reports. -/
def signUps : Reporter rules Screen where
  reports := registers
  effect _ _ := True

section Handlers

theorem quiet_uploadProfileImage {image : UIImage} {uid : String} :
    signUps.Quiet (SignUpViewController.uploadProfileImage image uid : Handler rules) := by
  unfold SignUpViewController.uploadProfileImage
  split
  · exact quiet_done
  · refine quiet_call (fun _ => rfl) (fun (uploaded : Bool) => ?_) quiet_done
    cases uploaded with
    | false => exact quiet_done
    | true =>
        refine quiet_call (fun _ => rfl) (fun (url : Option (URL rules)) => ?_) quiet_done
        refine quiet_unwrap fun url => quiet_this fun self => quiet_call (fun _ => rfl) ?_ ?_
        · exact fun _ => quiet_done
        · exact quiet_assign quiet_done

/-- The alert after a refused sign-up is no success alert. -/
theorem errorAlert_not_mem (code : AuthErrorCode) :
    SignUpViewController.errorAlert code ∉ successTitles := by
  cases code <;> decide

theorem quiet_signUpButton :
    signUps.Quiet (SignUpViewController.signUpButton : Handler rules) := by
  refine quiet_this fun self => ?_
  split
  · exact quiet_alert (by decide) quiet_done
  · have stored : ∀ user : User, signUps.Quiet (this fun now : SignUpViewController =>
        Code.unwrap now.imageView .imageView fun image =>
          SignUpViewController.uploadProfileImage image user.uid : Handler rules) :=
      fun user => quiet_this fun now => quiet_unwrap fun image => quiet_uploadProfileImage
    refine ⟨fun _ => ⟨?_, ?_, trivial⟩, fun _ _ => nofun⟩
    · rintro (code | user) screen
      · exact ⟨fun _ => Code.avoids_alert (errorAlert_not_mem code) Code.avoids_done screen,
          nofun⟩
      · exact ⟨nofun, fun _ => ⟨⟨_, List.mem_cons_self, by decide⟩, trivial⟩⟩
    · rintro (code | user) screen
      · trivial
      · exact (stored user).calls screen

theorem quiet_picked {image : UIImage} :
    signUps.Quiet (ProfileViewController.picked image : Handler rules) := by
  unfold ProfileViewController.picked
  split
  · exact quiet_done
  · refine quiet_this fun self => quiet_call (fun _ => rfl) (fun (uploaded : Bool) => ?_) quiet_done
    cases uploaded with
    | false => exact quiet_done
    | true =>
        refine quiet_this fun now => quiet_call (fun _ => rfl) ?_ quiet_done
        rintro (_ | url)
        · exact quiet_done
        · exact quiet_assign quiet_done

theorem quiet_profileUsers (documents : Snapshot) :
    signUps.Quiet (ProfileViewController.showUsers documents : Handler rules) := by
  induction documents with
  | nil => exact quiet_done
  | cons document documents inductionHypothesis =>
      refine quiet_unwrap fun userName => quiet_assign (quiet_unwrap fun phone => ?_)
      refine quiet_assign (quiet_unwrap fun image => quiet_assign (quiet_unwrap fun eMail => ?_))
      refine quiet_assign (quiet_assign ?_)
      unfold ProfileViewController.downloadImage
      split
      · exact inductionHypothesis
      · refine quiet_call (fun _ => rfl) ?_ inductionHypothesis
        rintro (_ | image)
        · exact quiet_done
        · exact quiet_assign quiet_done

theorem quiet_homeUsers (documents : Snapshot) :
    signUps.Quiet (HomeTabViewController.showUsers documents : Handler rules) := by
  induction documents with
  | nil => exact quiet_done
  | cons document documents inductionHypothesis =>
      exact quiet_unwrap fun userName => quiet_assign inductionHypothesis

theorem quiet_profileState {listener : Nat} {currentUser : Option User} :
    signUps.Quiet (ProfileViewController.authState listener currentUser : Handler rules) := by
  refine quiet_this fun self => ?_
  cases currentUser with
  | none => exact quiet_done
  | some user =>
      show signUps.Quiet (if _ then _ else _ : Handler rules)
      split
      · refine quiet_assign (quiet_call (fun _ => rfl) ?_ quiet_done)
        rintro (_ | documents)
        · exact quiet_done
        · exact quiet_profileUsers documents
      · exact quiet_done

theorem quiet_homeState {listener : Nat} {currentUser : Option User} :
    signUps.Quiet (HomeTabViewController.authState listener currentUser : Handler rules) := by
  refine quiet_this fun self => ?_
  cases currentUser with
  | none => exact quiet_done
  | some user =>
      show signUps.Quiet (if _ then _ else _ : Handler rules)
      split
      · refine quiet_assign (quiet_call (fun _ => rfl) ?_ quiet_done)
        rintro (_ | documents)
        · exact quiet_done
        · exact quiet_homeUsers documents
      · exact quiet_done

theorem quiet_updateUserData :
    signUps.Quiet (ProfileViewController.updateUserData : Handler rules) := by
  refine quiet_this fun self => quiet_unwrap fun userId => quiet_document ?_
  refine quiet_unwrap fun email => quiet_unwrap fun imageUrl => ?_
  refine quiet_call (fun _ => rfl) (fun (written : Bool) => ?_) quiet_done
  cases written <;> exact quiet_alert (by decide) quiet_done

/-- No handler of an input presents a success alert. -/
theorem quiet_handle (screen : Screen) (input : Input) :
    signUps.Quiet (screen.handle input : Handler rules) := by
  cases screen with
  | signUp self =>
      cases input with
      | signUpButton => exact quiet_signUpButton
      | editSignUp userName eMail passWord pNumber => exact quiet_assign quiet_done
      | pick image => exact quiet_assign quiet_done
      | _ => exact quiet_done
  | profile self =>
      cases input with
      | viewWillAppear => exact quiet_assign quiet_done
      | viewWillDisappear =>
          exact quiet_this fun now => quiet_unwrap fun handle => quiet_assign quiet_done
      | authState listener currentUser => exact quiet_profileState
      | editProfile userName phone => exact quiet_assign quiet_done
      | pick image => exact quiet_picked
      | updateUserData => exact quiet_updateUserData
      | _ => exact quiet_done
  | home self =>
      cases input with
      | viewWillAppear => exact quiet_assign quiet_done
      | authState listener currentUser => exact quiet_homeState
      | _ => exact quiet_done

end Handlers

section Steps

variable {world next : AccountWorld rules} {event : Event (app rules) (firebase rules)}

/-- The step presents a success alert: it delivers a created account. -/
def announces (world : AccountWorld rules) : Event (app rules) (firebase rules) → Bool
  | .reply index =>
      match world.pending[index]? with
      | some ⟨_, _, request, _, some response⟩ => registers request response
      | _ => false
  | _ => false

/-- The document of a sign-up is not written before its account has been created. -/
theorem Accounts.not_completed (accounts : Accounts world) {pending : Pending (app rules)}
    (outstanding : pending ∈ world.pending) {email password : String}
    (registering : pending.request = .createUser email password)
    {handled : Past (app rules) × Exchange (remote rules)} (member : handled ∈ world.acknowledged)
    (same : handled.1.entry = pending.past.entry) :
    completes pending.past.entry.input handled.2.request = false := by
  obtain ⟨past, request, response⟩ := handled
  have issued := accounts.origins.acknowledged _ member
  have traced := accounts.counted.traced
  cases issued with
  | @profile entry form now user data url uploads =>
      have located := traced _ _ _ (.handled member)
      have uploaded := traced _ _ _ (.handled located)
      have created := traced _ _ _ (.handled uploaded)
      have counted : operates pending.request = true := by rw [registering]; rfl
      have began := (accounts.origins.pending pending outstanding).request
      obtain ⟨self, past, request, completion, answer⟩ := pending
      cases registering
      cases began
      cases same
      exact absurd created (accounts.counted.not_handled outstanding counted rfl)
  | _ => cases pending.past.entry.input <;> rfl

/-- The success alerts of a step are true exactly when it presents none. -/
theorem reportsTruly_iff
    (reached : (system rules).Reaches (system rules).anyStep (start rules) world)
    (taken : world.step event = some next) :
    ReportsTruly completes world next ↔ announces world event = false := by
  have handlers : ∀ input screen, ((app rules).handler input).Calls signUps.Reporting screen :=
    fun input screen => (quiet_handle screen input).calls screen
  cases stepped_of_step taken with
  | launched =>
      refine ⟨fun _ => rfl, fun _ alert member => ?_⟩
      simp [newAlerts] at member
  | served found =>
      refine ⟨fun _ => rfl, fun _ alert member => ?_⟩
      simp [newAlerts] at member
  | @began self input target placed =>
      refine ⟨fun _ => rfl, fun _ => ?_⟩
      exact reportsTruly_of_quiet exec_alerts ((quiet_handle target.object input).avoids _)
  | @completed index self past request completion response target found placed =>
      have outstanding := List.mem_of_getElem? found
      have calls := callsPending_of_reachable (fun _ _ => handlers _ _) reached _ outstanding
      have reporting := calls.1 response target.object
      cases registered : registers request response with
      | false =>
          refine ⟨fun _ => by simp [announces, found, registered], fun _ => ?_⟩
          exact reportsTruly_of_quiet exec_alerts (reporting.1 registered)
      | true =>
          obtain ⟨⟨title, shown, success⟩, -⟩ := reporting.2 registered
          refine ⟨fun reports => ?_, fun none => ?_⟩
          · have done := WritesDone.of_reportsTruly exec_alerts reports shown success
            obtain ⟨handled, member, same, completed⟩ := done.completed
            rw [exec_acknowledged] at member
            cases request with
            | createUser email password =>
                have missing : completes past.entry.input handled.2.request = false := by
                  rcases List.mem_cons.mp member with rfl | older
                  · cases past.entry.input <;> rfl
                  · exact (accounts_of_reachable reached).not_completed outstanding rfl older same
                exact absurd (missing.symm.trans completed) Bool.false_ne_true
            | _ => cases registered
          · simp [announces, found, registered] at none

end Steps

end Account

/-- In every step of the flows, the success alerts are true exactly when there are none:
each one is presented before the write that completes its press has been acknowledged. -/
theorem success_reported_iff (rules : URLRules) :
    (∀ (service : Service (remote rules)) (server : service.State)
        (world next : World (Postings.app rules) service)
        (event : Event (Postings.app rules) service),
      (World.machine (Postings.app rules) service).Reaches (Machine.anyStep _)
        (.initial _ server) world → world.step event = some next →
      (ReportsTruly Postings.completes world next ↔ Postings.announces world event = false)) ∧
    ∀ (world next : Account.AccountWorld rules)
        (event : Event (Account.app rules) (firebase rules)),
      (Account.system rules).Reaches (Account.system rules).anyStep (Account.start rules) world →
      world.step event = some next →
      (ReportsTruly Account.completes world next ↔ Account.announces world event = false) :=
  ⟨fun _ _ _ _ _ reached taken => Postings.reportsTruly_iff reached taken,
    fun _ _ _ reached taken => Account.reportsTruly_iff reached taken⟩

section Schedules

/-- The delete of a published posting is about to be confirmed. -/
def confirming : List (Event (Postings.app anyText) (firebase anyText)) :=
  Postings.publishing ++ Postings.managing ++ [.input 2 .deleteButton]

/-- An account has been created and its creation is about to be handled. -/
def registering : List (Event (Account.app anyText) (firebase anyText)) :=
  [.launch 0 .signUp, .input 0 (.editSignUp "Alice" "alice@mail" "secret" "902555"),
    .input 0 .signUpButton, .serve 0 (.name "u1")]

/-- The delete of a posting is confirmed, and the creation of an account is handled. -/
theorem success_reported_iff_early :
    (∃ world next : Postings.PostingsWorld anyText,
      world.step (.input 2 .confirmDelete) = some next ∧
      (ReportsTruly Postings.completes world next ↔
        Postings.announces world (.input 2 .confirmDelete) = false)) ∧
    ∃ world next : Account.AccountWorld anyText,
      world.step (.reply 0) = some next ∧
      (ReportsTruly Account.completes world next ↔
        Account.announces world (.reply 0) = false) := by
  constructor
  · obtain ⟨world, reached, steps⟩ := Machine.exists_reaches (m := Postings.system anyText)
      (Machine.anyStep _) (Postings.start anyText) confirming
      (fun world => (World.step world (.input 2 .confirmDelete)).isSome) (by decide +kernel)
    obtain ⟨next, taken⟩ := Option.isSome_iff_exists.mp steps
    exact ⟨world, next, taken, (success_reported_iff _).1 _ _ world next _ reached taken⟩
  · obtain ⟨world, reached, steps⟩ := Machine.exists_reaches (m := Account.system anyText)
      (Machine.anyStep _) (Account.start anyText) registering
      (fun world => (World.step world (.reply 0)).isSome) (by decide +kernel)
    obtain ⟨next, taken⟩ := Option.isSome_iff_exists.mp steps
    exact ⟨world, next, taken, (success_reported_iff _).2 world next _ reached taken⟩

/-- The alert after a delete comes before the delete has been acknowledged. -/
theorem success_reported_early :
    ¬ ((∀ (rules : URLRules) (service : Service (remote rules)) (server : service.State)
          (world next : World (Postings.app rules) service)
          (event : Event (Postings.app rules) service),
        (World.machine (Postings.app rules) service).Reaches (Machine.anyStep _)
          (.initial _ server) world → world.step event = some next →
        ReportsTruly Postings.completes world next) ∧
      ∀ (rules : URLRules) (world next : Account.AccountWorld rules)
          (event : Event (Account.app rules) (firebase rules)),
        (Account.system rules).Reaches (Account.system rules).anyStep (Account.start rules) world →
        world.step event = some next → ReportsTruly Account.completes world next) := by
  rintro ⟨reports, -⟩
  obtain ⟨world, reached, announced⟩ := Machine.exists_reaches (m := Postings.system anyText)
    (Machine.anyStep _) (Postings.start anyText) confirming
    (fun world => (World.step world (.input 2 .confirmDelete)).isSome &&
      Postings.announces world (.input 2 .confirmDelete)) (by decide +kernel)
  obtain ⟨steps, announced⟩ := Bool.and_eq_true_iff.mp announced
  obtain ⟨next, taken⟩ := Option.isSome_iff_exists.mp steps
  have silent := (Postings.reportsTruly_iff reached taken).mp (reports _ _ _ _ _ _ reached taken)
  exact Bool.false_ne_true (silent.symm.trans announced)

end Schedules

end Gbc
