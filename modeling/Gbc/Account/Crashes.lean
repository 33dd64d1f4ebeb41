import Gbc.Account.Entries
import Gbc.Account.Unwraps

/-!
# Why the account screens stop

Every trap of the sign-up form, the profile screen and the Home screen, with its cause. The
documents in `users` are never one: what a load delivers always has the fields that its
completion handler unwraps.
-/

namespace Gbc.Account

open Callback Handler World

variable {rules : URLRules}

/-- What a handler with this past can stop for on a screen. -/
inductive Cause (past : Past (app rules)) : Screen → Fault → Prop where
  /-- The form shows no picture as the creation of an account is handled. -/
  | unpictured {self : SignUpViewController} {email password : String} {user : User}
      (created : past.trail.head? = some ⟨.createUser email password,
        (.ok user : Except AuthErrorCode User)⟩)
      (missing : self.imageView = none) : Cause past (.signUp self) .imageView
  /-- The URL of an uploaded picture is not found. -/
  | unlocated {screen : Screen} {path : String}
      (lookup : past.trail.head? = some ⟨.downloadURL path, (none : Option (URL rules))⟩) :
      Cause past screen .downloadURL
  /-- Update is pressed on a profile that has not been loaded. -/
  | unloaded {self : ProfileViewController} (pressed : past.entry.input = .updateUserData)
      (missing : self.userId = none ∨ self.email = none ∨ self.imageUrl = none) :
      Cause past (.profile self) .profile
  /-- The screen disappears without having appeared. -/
  | unseen {self : ProfileViewController} (left : past.entry.input = .viewWillDisappear)
      (missing : self.handle = none) : Cause past (.profile self) .listener

/-- Why the account screens stop. User IDs are never empty. -/
def diagnosis (rules : URLRules) : Diagnosis (app rules) where
  Object
    | .profile self => self.userId ≠ some ""
    | _ => True
  Response
    | .query .users _ _, (snapshot : Option Snapshot) => ∀ documents, snapshot = some documents →
        ∀ document ∈ documents, Complete document.2
    | _, _ => True
  Cause := Cause

section Handlers

variable {past : Past (app rules)} {screen : Screen}

theorem explains_uploadProfileImage {image : UIImage} {uid : String} :
    (diagnosis rules).Explains past (SignUpViewController.uploadProfileImage image uid)
      screen := by
  unfold SignUpViewController.uploadProfileImage
  split
  · trivial
  · refine ⟨fun (uploaded : Bool) target _ valid => ?_, trivial⟩
    cases uploaded with
    | false => trivial
    | true =>
        refine ⟨fun (url : Option (URL rules)) target _ valid => ?_, trivial⟩
        refine Diagnosis.explains_unwrap.mpr ⟨?_, fun found _ => ?_⟩
        · rintro rfl
          exact .unlocated rfl
        · refine explains_this.mpr fun now _ => Diagnosis.explains_fire.mpr ?_
          exact explains_assign valid (fun _ _ => trivial) fun _ _ => trivial

theorem explains_signUpButton :
    (diagnosis rules).Explains past SignUpViewController.signUpButton screen := by
  refine explains_this.mpr fun self _ => ?_
  split
  · trivial
  · refine ⟨fun (result : Except AuthErrorCode User) target _ valid => ?_, trivial⟩
    cases result with
    | error code => trivial
    | ok user =>
        refine explains_this.mpr fun now shown => ?_
        obtain rfl := LawfulController.eq_screen shown
        refine Diagnosis.explains_unwrap.mpr ⟨fun missing => ?_, fun image _ => ?_⟩
        · exact .unpictured rfl missing
        · exact explains_uploadProfileImage

theorem explains_picked {image : UIImage} :
    (diagnosis rules).Explains past (ProfileViewController.picked image) screen := by
  unfold ProfileViewController.picked
  split
  · trivial
  · refine explains_this.mpr fun self _ => ?_
    refine ⟨fun (uploaded : Bool) target _ valid => ?_, trivial⟩
    cases uploaded with
    | false => trivial
    | true =>
        refine explains_this.mpr fun now _ => ?_
        refine ⟨fun (url : Option (URL rules)) target _ valid => ?_, trivial⟩
        cases url with
        | none => trivial
        | some url => exact explains_assign valid (fun _ named => named) fun _ _ => trivial

/-- A field of a complete document is there. -/
theorem Complete.explains_unwrap {data : Doc} {key : String} {next : String → Handler rules}
    (complete : Complete data) (read : key ∈ profileKeys)
    (rest : ∀ value, (diagnosis rules).Explains past (next value) screen) :
    (diagnosis rules).Explains past (.unwrap data[key]? .userData next) screen := by
  obtain ⟨value, found⟩ := getElem?_of_mem (complete key read)
  rw [found]
  exact rest value

theorem explains_downloadImage {urlString : String} {next : Handler rules}
    (rest : (diagnosis rules).Explains past next screen) :
    (diagnosis rules).Explains past (ProfileViewController.downloadImage urlString next)
      screen := by
  unfold ProfileViewController.downloadImage
  split
  · exact rest
  · refine ⟨fun (picture : Option (Option UIImage)) target _ valid => ?_, rest⟩
    cases picture with
    | none => trivial
    | some picture => exact explains_assign valid (fun _ named => named) fun _ _ => trivial

theorem explains_profileUsers {documents : Snapshot}
    (complete : ∀ document ∈ documents, Complete document.2)
    (valid : (diagnosis rules).Object screen) :
    (diagnosis rules).Explains past (ProfileViewController.showUsers documents) screen := by
  induction documents generalizing screen with
  | nil => trivial
  | cons document documents inductionHypothesis =>
      obtain ⟨whole, complete⟩ := List.forall_mem_cons.mp complete
      refine whole.explains_unwrap (by decide) fun userName => ?_
      refine explains_assign valid (fun _ named => named) fun _ valid => ?_
      refine whole.explains_unwrap (by decide) fun phone => ?_
      refine explains_assign valid (fun _ named => named) fun _ valid => ?_
      refine whole.explains_unwrap (by decide) fun image => ?_
      refine explains_assign valid (fun _ named => named) fun _ valid => ?_
      refine whole.explains_unwrap (by decide) fun eMail => ?_
      refine explains_assign valid (fun _ named => named) fun _ valid => ?_
      refine explains_assign valid (fun _ named => named) fun _ valid => ?_
      exact explains_downloadImage (inductionHypothesis complete valid)

theorem explains_homeUsers {documents : Snapshot}
    (complete : ∀ document ∈ documents, Complete document.2)
    (valid : (diagnosis rules).Object screen) :
    (diagnosis rules).Explains past (HomeTabViewController.showUsers documents) screen := by
  induction documents generalizing screen with
  | nil => trivial
  | cons document documents inductionHypothesis =>
      obtain ⟨whole, complete⟩ := List.forall_mem_cons.mp complete
      refine whole.explains_unwrap (by decide) fun userName => ?_
      refine explains_assign valid (fun _ _ => trivial) fun _ valid => ?_
      exact inductionHypothesis complete valid

theorem explains_profileState {listener : Nat} {currentUser : Option User}
    (valid : (diagnosis rules).Object screen) :
    (diagnosis rules).Explains past (ProfileViewController.authState listener currentUser)
      screen := by
  refine explains_this.mpr fun self _ => ?_
  cases currentUser with
  | none => trivial
  | some user =>
      dsimp only
      split
      · refine explains_assign valid (fun _ _ => ?_) fun _ _ => ?_
        · exact fun empty => user.uid_ne (Option.some.inj empty)
        · refine ⟨fun (snapshot : Option Snapshot) target complete valid => ?_, trivial⟩
          cases snapshot with
          | none => trivial
          | some documents => exact explains_profileUsers (complete documents rfl) valid
      · trivial

theorem explains_homeState {listener : Nat} {currentUser : Option User}
    (valid : (diagnosis rules).Object screen) :
    (diagnosis rules).Explains past (HomeTabViewController.authState listener currentUser)
      screen := by
  refine explains_this.mpr fun self _ => ?_
  cases currentUser with
  | none => trivial
  | some user =>
      dsimp only
      split
      · refine explains_assign valid (fun _ _ => trivial) fun _ _ => ?_
        refine ⟨fun (snapshot : Option Snapshot) target complete valid => ?_, trivial⟩
        cases snapshot with
        | none => trivial
        | some documents => exact explains_homeUsers (complete documents rfl) valid
      · trivial

theorem explains_updateUserData {self : ProfileViewController}
    (valid : self.userId ≠ some "") (pressed : past.entry.input = .updateUserData) :
    (diagnosis rules).Explains past ProfileViewController.updateUserData (.profile self) := by
  refine explains_this.mpr fun now shown => ?_
  cases shown
  refine Diagnosis.explains_unwrap.mpr ⟨fun missing => ?_, fun userId named => ?_⟩
  · exact .unloaded pressed (.inl missing)
  refine explains_document.mpr ⟨fun empty => absurd (named.trans (congrArg some empty)) valid, ?_⟩
  refine fun _ => Diagnosis.explains_unwrap.mpr ⟨fun missing => ?_, fun email _ => ?_⟩
  · exact .unloaded pressed (.inr (.inl missing))
  refine Diagnosis.explains_unwrap.mpr ⟨fun missing => ?_, fun imageUrl _ => ?_⟩
  · exact .unloaded pressed (.inr (.inr missing))
  · exact ⟨fun _ _ _ _ => trivial, trivial⟩

theorem explains_viewWillDisappear {self : ProfileViewController}
    (valid : self.userId ≠ some "") (left : past.entry.input = .viewWillDisappear) :
    (diagnosis rules).Explains past ProfileViewController.viewWillDisappear
      (.profile self) := by
  refine explains_this.mpr fun now shown => ?_
  cases shown
  refine Diagnosis.explains_unwrap.mpr ⟨fun missing => ?_, fun handle _ => ?_⟩
  · exact .unseen left missing
  · exact ⟨valid, trivial⟩

theorem explains_handle {input : Input} (valid : (diagnosis rules).Object screen)
    (began : past.entry.input = input) :
    (diagnosis rules).Explains past (screen.handle input) screen := by
  cases screen with
  | signUp self =>
      cases input with
      | signUpButton => exact explains_signUpButton
      | editSignUp userName eMail passWord pNumber =>
          exact explains_assign valid (fun _ _ => trivial) fun _ _ => trivial
      | pick image => exact explains_assign valid (fun _ _ => trivial) fun _ _ => trivial
      | _ => trivial
  | profile self =>
      cases input with
      | viewWillAppear => exact explains_assign valid (fun _ named => named) fun _ _ => trivial
      | viewWillDisappear => exact explains_viewWillDisappear valid began
      | authState listener currentUser => exact explains_profileState valid
      | editProfile userName phone =>
          exact explains_assign valid (fun _ named => named) fun _ _ => trivial
      | pick image => exact explains_picked
      | updateUserData => exact explains_updateUserData valid began
      | _ => trivial
  | home self =>
      cases input with
      | viewWillAppear => exact explains_assign valid (fun _ _ => trivial) fun _ _ => trivial
      | authState listener currentUser => exact explains_homeState valid
      | _ => trivial

end Handlers

section Causes

variable {world : AccountWorld rules} {events : List (Event (app rules) (firebase rules))}

/-- A load delivers complete documents. -/
theorem complete_of_answered
    (reached : (system rules).Reaches (system rules).anyStep (start rules) world)
    {past : Past (app rules)} {field value : String} {documents : Snapshot}
    (answered : world.Answered past
      ⟨.query .users field value, (some documents : Option Snapshot)⟩) :
    ∀ document ∈ documents, Complete document.2 := by
  rintro ⟨name, data⟩ member key read
  obtain ⟨moment, -, held, content⟩ := (loadsHeld_of_reachable reached).since
    (clocked_initial _) answered rfl (Nat.zero_le _)
  rw [content] at member
  have found := Std.ExtTreeMap.mem_toList_iff_getElem?_eq_some.mp (List.mem_filter.mp member).1
  have accounts := accounts_of_reachable reached
  have replaces : ∀ name data, (CollectionName.users, Write.set name data true) ∉ moment := by
    intro name data member
    cases accounts.writes (held.mem member)
  obtain ⟨fields, rfl, written⟩ := Server.literal_of_replay replaces found
  have present : (Fields.value key fields).isSome = true := by
    rcases written with added | replaced
    · exact (accounts.writes (held.mem added)).present (.inl rfl) read
    · exact (accounts.writes (held.mem replaced)).present (.inr rfl) read
  rw [← Std.ExtTreeMap.isSome_getElem?_iff_mem, Doc.getElem?_merge]
  simpa using present

/-- The backend answers as the diagnosis has it. -/
theorem reliable_of_reaches
    (reached : (system rules).Reaches (system rules).anyStep (start rules) world) :
    (diagnosis rules).Reliable world := by
  intro pending member response answered
  have listed : (⟨pending.self, pending.past, pending.request, pending.completion,
      some response⟩ : Pending (app rules)) ∈ world.pending := by
    rw [← answered]
    exact member
  obtain ⟨self, past, request, completion, answer⟩ := pending
  cases request with
  | query collection field value =>
      cases collection with
      | users =>
          rintro documents rfl
          exact complete_of_answered reached (.awaiting listed)
      | _ => trivial
  | _ => trivial

theorem root_valid (root : Root) : (diagnosis rules).Object root.screen := by
  cases root with
  | profile => exact (Option.some_ne_none "").symm
  | _ => trivial

/-- In every run, each process that has stopped has stopped once, and one of its screens, an
input of it and the answers that followed show why: these are all the reasons. -/
theorem stopped_accounts_show_why
    (reached : (system rules).recording.Reaches (system rules).recording.anyStep
      (start rules, []) (world, events)) :
    (world.faults.map Prod.fst).Nodup ∧ ∀ process fault, (process, fault) ∈ world.faults →
      ∃ (past : Past (app rules)) (index : Nat) (screen : Screen),
        Diagnosis.Happened events world.acknowledged past ∧
        world.processOf past.entry.self = some process ∧
        world.objects[index]? = some ⟨process, screen⟩ ∧ Cause past screen fault := by
  have explained : (diagnosis rules).Explained events world := by
    refine Diagnosis.explained_of_recorded root_valid (fun past valid _ => ?_)
      reliable_of_reaches reached
    exact explains_handle valid rfl
  exact ⟨explained.once, fun process fault stopped => explained.faults (process, fault) stopped⟩

/-- The second sign-up on a form finds no picture, and an update is made on a profile that has
not been loaded. -/
def stopping : List (Event (app anyText) (firebase anyText)) :=
  signingUpTwice ++ [.launch 1 .profile, .input 1 .updateUserData]

theorem stopped_accounts_show_why_twice :
    ∃ (world : AccountWorld anyText) (events : List (Event (app anyText) (firebase anyText))),
      world.faults = [(1, .profile), (0, .imageView)] ∧
        ∀ process fault, (process, fault) ∈ world.faults →
          ∃ (past : Past (app anyText)) (index : Nat) (screen : Screen),
            Diagnosis.Happened events world.acknowledged past ∧
            world.processOf past.entry.self = some process ∧
            world.objects[index]? = some ⟨process, screen⟩ ∧ Cause past screen fault := by
  obtain ⟨⟨world, events⟩, reached, stopped⟩ := Machine.exists_reaches
    (m := (system anyText).recording) (system anyText).recording.anyStep (start anyText, [])
    stopping (fun state => state.1.faults == [(1, .profile), (0, .imageView)])
    (by decide +kernel)
  exact ⟨world, events, beq_iff_eq.mp stopped, (stopped_accounts_show_why reached).2⟩

end Causes

end Gbc.Account
