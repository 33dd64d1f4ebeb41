import Gbc.Account.ReadBack
import Gbc.Account.Steady
import Gbc.Platform.Moments

/-!
# Whose entries a screen shows

The profile screen and the Home screen load the documents of the user whom their auth state
listener reports. In every run, what they show was entered by such a user, with one sign-up
or with one press of the update button, and is shown as a whole.
-/

namespace Gbc.Account

open Callback Handler World

variable {rules : URLRules}

/-- A press of the update button on this profile screen, which shows this user. -/
structure Updates (entry : Entry (app rules)) (screen : ProfileViewController)
    (uid email imageUrl : String) : Prop where
  began : entry.object = .profile screen
  pressed : entry.input = .updateUserData
  userId : screen.userId = some uid
  email : screen.email = some email
  imageUrl : screen.imageUrl = some imageUrl

/-- These texts have stood together on the sign-up form at this index: they were typed, or a
finished sign-up has emptied it. -/
def Typed (events : List (Event (app rules) (firebase rules))) (index : Nat)
    (form : SignUpViewController) : Prop :=
  (form.userName = "" ∧ form.eMail = "" ∧ form.pNumber = "") ∨ ∃ passWord,
    .input index (.editSignUp form.userName form.eMail passWord form.pNumber) ∈ events

/-- For whom a handler loads and replaces documents, and what it adds. -/
def Acts (events : List (Event (app rules) (firebase rules))) (past : Past (app rules)) :
    Request rules → Prop
  | .query collection field value => collection = .users ∧ field = "userId" ∧
      ∃ listener user, past.entry.input = .authState listener (some user) ∧ user.uid = value
  | .setData collection document data merge => collection = .users ∧ merge = false ∧
      ∃ screen email imageUrl, Updates past.entry screen document email imageUrl ∧
        data = screen.changes document email imageUrl
  | .addDocument _ data => ∃ now uid url, Typed events past.entry.self now ∧
      data = now.profile uid url
  | .getDocuments _ => False
  | _ => True

/-- Every handler acts for the user it has been given, and a sign-up adds what has stood on its
form. -/
def acting (rules : URLRules) : Chronicle (app rules) (firebase rules) where
  Object events index screen := ∀ form, screen = .signUp form → Typed events index form
  Request events past request := Acts events past request

section Handlers

variable {events : List (Event (app rules) (firebase rules))} {index : Nat}
  {past : Past (app rules)} {screen : Screen}

theorem Typed.keep {later : List (Event (app rules) (firebase rules))}
    {form : SignUpViewController} (typed : Typed events index form) (longer : events ⊆ later) :
    Typed later index form :=
  typed.imp_right fun ⟨passWord, entered⟩ => ⟨passWord, longer entered⟩

/-- Nothing is typed on a profile screen. -/
theorem acting_profile (self : ProfileViewController) :
    (acting rules).Object events index (.profile self) := by
  intro form same
  cases same

/-- Nothing is typed on the Home screen. -/
theorem acting_home (self : HomeTabViewController) :
    (acting rules).Object events index (.home self) := by
  intro form same
  cases same

theorem signUpButton_acting (own : past.entry.self = index) :
    (acting rules).Tells events index past SignUpViewController.signUpButton screen := by
  refine tells_this fun form _ => ?_
  split
  · trivial
  · refine ⟨trivial, ?_, trivial⟩
    intro _ result _ _ _
    cases result with
    | error code => trivial
    | ok user =>
        refine tells_this fun now _ => Chronicle.tells_unwrap fun image _ => ?_
        unfold SignUpViewController.uploadProfileImage
        split
        · trivial
        · refine ⟨trivial, ?_, trivial⟩
          intro _ uploaded _ _ _
          cases uploaded with
          | false => trivial
          | true =>
              refine ⟨trivial, ?_, trivial⟩
              intro _ url _ _ told
              refine Chronicle.tells_unwrap fun url _ => tells_this fun now shown => ?_
              have typed := told now (LawfulController.eq_screen shown)
              refine Chronicle.tells_fire ⟨now, _, _, own ▸ typed, rfl⟩ ?_
              refine tells_assign told (fun _ _ form same => ?_) fun _ _ => trivial
              cases same
              exact .inl ⟨rfl, rfl, rfl⟩

theorem profileUsers_acting {documents : Snapshot}
    (told : (acting rules).Object events index screen) :
    (acting rules).Tells events index past (ProfileViewController.showUsers documents)
      screen := by
  induction documents generalizing screen with
  | nil => trivial
  | cons document documents inductionHypothesis =>
      refine Chronicle.tells_unwrap fun userName _ => ?_
      refine tells_assign told (fun _ _ => acting_profile _) fun _ told => ?_
      refine Chronicle.tells_unwrap fun phone _ => ?_
      refine tells_assign told (fun _ _ => acting_profile _) fun _ told => ?_
      refine Chronicle.tells_unwrap fun image _ => ?_
      refine tells_assign told (fun _ _ => acting_profile _) fun _ told => ?_
      refine Chronicle.tells_unwrap fun eMail _ => ?_
      refine tells_assign told (fun _ _ => acting_profile _) fun _ told => ?_
      refine tells_assign told (fun _ _ => acting_profile _) fun _ told => ?_
      unfold ProfileViewController.downloadImage
      split
      · exact inductionHypothesis told
      · refine ⟨trivial, ?_, inductionHypothesis told⟩
        intro _ data _ _ told
        cases data with
        | none => trivial
        | some image => exact tells_assign told (fun _ _ => acting_profile _) fun _ _ => trivial

theorem homeUsers_acting {documents : Snapshot}
    (told : (acting rules).Object events index screen) :
    (acting rules).Tells events index past (HomeTabViewController.showUsers documents)
      screen := by
  induction documents generalizing screen with
  | nil => trivial
  | cons document documents inductionHypothesis =>
      exact Chronicle.tells_unwrap fun userName _ =>
        tells_assign told (fun _ _ => acting_home _) fun _ told => inductionHypothesis told

/-- The auth state listeners load the documents of the user whom they are told. -/
theorem profileState_acting {listener : Nat} {currentUser : Option User}
    (given : past.entry.input = .authState listener currentUser)
    (told : (acting rules).Object events index screen) :
    (acting rules).Tells events index past
      (ProfileViewController.authState listener currentUser) screen := by
  refine tells_this fun self _ => ?_
  cases currentUser with
  | none => trivial
  | some user =>
      show (acting rules).Tells events index past (if _ then _ else _) screen
      split
      · refine tells_assign told (fun _ _ => acting_profile _) fun _ _ => ?_
        refine ⟨⟨rfl, rfl, listener, user, given, rfl⟩, ?_, trivial⟩
        intro _ snapshot _ _ told
        cases snapshot with
        | none => trivial
        | some documents => exact profileUsers_acting told
      · trivial

theorem homeState_acting {listener : Nat} {currentUser : Option User}
    (given : past.entry.input = .authState listener currentUser)
    (told : (acting rules).Object events index screen) :
    (acting rules).Tells events index past
      (HomeTabViewController.authState listener currentUser) screen := by
  refine tells_this fun self _ => ?_
  cases currentUser with
  | none => trivial
  | some user =>
      show (acting rules).Tells events index past (if _ then _ else _) screen
      split
      · refine tells_assign told (fun _ _ => acting_home _) fun _ _ => ?_
        refine ⟨⟨rfl, rfl, listener, user, given, rfl⟩, ?_, trivial⟩
        intro _ snapshot _ _ told
        cases snapshot with
        | none => trivial
        | some documents => exact homeUsers_acting told
      · trivial

theorem picked_acting {image : UIImage} :
    (acting rules).Tells events index past (ProfileViewController.picked image) screen := by
  unfold ProfileViewController.picked
  split
  · trivial
  · refine tells_this fun self _ => ⟨trivial, ?_, trivial⟩
    intro _ uploaded _ _ _
    cases uploaded with
    | false => trivial
    | true =>
        refine tells_this fun now _ => ⟨trivial, ?_, trivial⟩
        intro _ url _ _ told
        cases url with
        | none => trivial
        | some url => exact tells_assign told (fun _ _ => acting_profile _) fun _ _ => trivial

/-- The update button replaces the document of the user of its screen. -/
theorem updateUserData_acting {self : ProfileViewController}
    (began : past.entry.object = .profile self) (pressed : past.entry.input = .updateUserData) :
    (acting rules).Tells events index past ProfileViewController.updateUserData
      (.profile self) := by
  refine tells_this fun now shown => ?_
  obtain rfl : self = now := Option.some.inj shown
  refine Chronicle.tells_unwrap fun userId known => tells_document fun _ => ?_
  refine Chronicle.tells_unwrap fun email loaded => ?_
  refine Chronicle.tells_unwrap fun imageUrl named => ?_
  refine ⟨⟨rfl, rfl, self, email, imageUrl, ⟨began, pressed, known, loaded, named⟩, rfl⟩, ?_,
    trivial⟩
  intro _ _ _ _ _
  trivial

/-- Every handler acts for the user it has been given. -/
theorem handle_acting {input : Input} (own : past.entry.self = index)
    (began : past.entry.object = screen) (given : past.entry.input = input)
    (entered : .input index input ∈ events) (told : (acting rules).Object events index screen) :
    (acting rules).Tells events index past (screen.handle input) screen := by
  cases screen with
  | signUp self =>
      cases input with
      | editSignUp userName eMail passWord pNumber =>
          refine tells_assign told (fun _ _ form same => ?_) fun _ _ => trivial
          cases same
          exact .inr ⟨passWord, entered⟩
      | pick image =>
          refine tells_assign told (fun self typed form same => ?_) fun _ _ => trivial
          cases same
          exact typed self rfl
      | signUpButton => exact signUpButton_acting own
      | _ => trivial
  | profile self =>
      cases input with
      | viewWillAppear => exact ⟨acting_profile _, trivial⟩
      | viewWillDisappear =>
          exact tells_this fun _ _ => Chronicle.tells_unwrap fun _ _ =>
            ⟨acting_profile _, trivial⟩
      | authState listener currentUser => exact profileState_acting given told
      | editProfile userName phone => exact ⟨acting_profile _, trivial⟩
      | pick image => exact picked_acting
      | updateUserData => exact updateUserData_acting began given
      | _ => trivial
  | home self =>
      cases input with
      | viewWillAppear => exact ⟨acting_home _, trivial⟩
      | authState listener currentUser => exact homeState_acting given told
      | _ => trivial

theorem acting_sound (rules : URLRules) : (acting rules).Sound where
  object longer told form shown := Typed.keep (told form shown) longer
  request {_ _ _ request} longer acts := by
    cases request with
    | addDocument collection data =>
        obtain ⟨now, uid, url, typed, same⟩ := acts
        exact ⟨now, uid, url, Typed.keep typed longer, same⟩
    | _ => exact acts
  root _ _ root form opened := by
    cases root <;> cases opened
    exact .inl ⟨rfl, rfl, rfl⟩
  input told entered _ := handle_acting rfl rfl rfl entered told

end Handlers

/-- In every run, some events tell for whom its handlers have acted. -/
theorem exists_acting {guard : (system rules).Guard} {world : AccountWorld rules}
    (reached : Machine.Reachable guard (start rules) world) :
    ∃ events, (acting rules).Holds events world := by
  have free : (system rules).Reaches (system rules).anyStep (start rules) world :=
    reached.weaken fun _ _ _ => rfl
  obtain ⟨events, recorded⟩ := free.exists_recorded
  exact ⟨events, Chronicle.holds_of_recorded (acting_sound rules) recorded⟩

section Entries

variable {events : List (Event (app rules) (firebase rules))} {world : AccountWorld rules}
  {uid : String}

/-- The user has entered these fields, all of them at once. A sign-up that has created the
account has added them, as they stood on its form together; or one press of the update button
has written them for this user. -/
inductive Entered (events : List (Event (app rules) (firebase rules)))
    (world : AccountWorld rules) (uid : String) : Fields → Prop where
  | signUp {entry : Entry (app rules)} {form now : SignUpViewController} {user : User}
      {data : ImageData} {url : URL rules} {document : String} (pressed : Pressed entry form)
      (same : user.uid = uid)
      (created : world.Answered ⟨entry, []⟩
        ⟨.createUser form.eMail form.passWord, (.ok user : Except AuthErrorCode User)⟩)
      (typed : Typed events entry.self now)
      (added : world.Answered (afterLookup entry form user data url)
        ⟨.addDocument .users (now.profile uid url.string), (some document : Option String)⟩) :
      Entered events world uid (now.profile uid url.string)
  | update {past : Past (app rules)} {screen : ProfileViewController} {email imageUrl : String}
      (updates : Updates past.entry screen uid email imageUrl)
      (written : world.Answered past
        ⟨.setData .users uid (screen.changes uid email imageUrl) false, true⟩) :
      Entered events world uid (screen.changes uid email imageUrl)

/-- A document of a user is as a whole what the user has entered at once. -/
theorem entered_of_replay (holds : (acting rules).Holds events world)
    (accounts : Accounts world) {moment : List (CollectionName × Write)}
    (held : moment <:+ world.server.journal)
    {document : String} {data : Doc} (found : (Server.replay .users moment)[document]? = some data)
    (owned : data["userId"]? = some uid) :
    ∃ fields, Entered events world uid fields ∧ data = Doc.merge ∅ fields := by
  have replaces : ∀ name data, (CollectionName.users, Write.set name data true) ∉ moment := by
    intro name data member
    cases accounts.writes (held.mem member)
  obtain ⟨fields, rfl, written⟩ := Server.literal_of_replay replaces found
  refine ⟨fields, ?_, rfl⟩
  rw [Doc.getElem?_merge, Std.ExtTreeMap.getElem?_empty, Option.or_none] at owned
  rcases written with added | replaced
  · obtain ⟨past, answered⟩ := accounts.ledger.accounted (held.mem added)
    have traced := accounts.counted.traced
    have occurs := answered.occurs
    obtain ⟨shown, _, _, typed, literal⟩ := holds.answered answered
    cases accounts.origins.answered answered with
    | @profile entry form now user data url uploads =>
        have located := traced _ _ _ occurs
        have uploaded := traced _ _ _ (.handled located)
        have created := traced _ _ _ (.handled uploaded)
        have same : user.uid = uid := by
          simpa [SignUpViewController.profile, Fields.value] using owned
        have stood : Typed events entry.self now := by
          simp only [SignUpViewController.profile, List.cons.injEq, Prod.mk.injEq, true_and,
            and_true] at literal
          obtain ⟨userName, eMail, pNumber, -⟩ := literal
          unfold Typed
          rw [userName, eMail, pNumber]
          exact typed
        rw [same] at answered ⊢
        exact .signUp uploads.toPressed same (.handled created) stood answered
  · obtain ⟨past, answered⟩ := accounts.ledger.accounted (held.mem replaced)
    obtain ⟨-, -, screen, email, imageUrl, updates, rfl⟩ := holds.answered answered
    have same : document = uid := by
      simpa [ProfileViewController.changes, Fields.value] using owned
    rw [same] at updates answered ⊢
    exact .update updates answered

/-- The auth state listener of a screen has been told this user. -/
def Reported (world : AccountWorld rules) (index : Nat) (user : User) : Prop :=
  ∃ past listener, world.Occurs past ∧ past.entry.self = index ∧
    past.entry.input = .authState listener (some user)

/-- The document that an answered load has delivered last. -/
def lastLoaded (exchange : Exchange (remote rules)) : Option Doc :=
  ((loadedDocuments exchange).bind List.getLast?).map fun document => document.2

/-- A document that a screen has loaded was entered by a user of whom it has been told. -/
theorem entered_of_lastLoaded (holds : (acting rules).Holds events world)
    (reached : (system rules).Reaches (system rules).anyStep (start rules) world) {index : Nat}
    {past : Past (app rules)} {exchange : Exchange (remote rules)} {data : Doc}
    (handled : (past, exchange) ∈ world.acknowledged) (own : past.entry.self = index)
    (loaded : lastLoaded exchange = some data) :
    ∃ user fields, Reported world index user ∧ Entered events world user.uid fields ∧
      data = Doc.merge ∅ fields := by
  obtain ⟨⟨document, data⟩, chosen, rfl⟩ := Option.map_eq_some_iff.mp loaded
  obtain ⟨documents, delivered, last⟩ := Option.bind_eq_some_iff.mp chosen
  have answered : world.Answered past exchange := .handled handled
  obtain ⟨moment, -, held, content⟩ := (loadsHeld_of_reachable reached).since
    (clocked_initial _) answered delivered (Nat.zero_le _)
  have acts := holds.answered answered
  obtain ⟨request, response⟩ := exchange
  cases request with
  | query collection field value =>
      obtain ⟨rfl, rfl, listener, user, told, rfl⟩ := acts
      have member := List.mem_of_getLast? last
      rw [content] at member
      obtain ⟨listed, owned⟩ := List.mem_filter.mp member
      have found := Std.ExtTreeMap.mem_toList_iff_getElem?_eq_some.mp listed
      obtain ⟨fields, entered, same⟩ := entered_of_replay holds (accounts_of_reachable reached)
        held found (beq_iff_eq.mp owned)
      exact ⟨user, fields, ⟨past, listener, .handled handled, own, told⟩, entered, same⟩
  | getDocuments collection => exact acts.elim
  | _ => cases delivered

end Entries

section Profiles

variable {events : List (Event (app rules) (firebase rules))} {world : AccountWorld rules}
  {index process : Nat}

end Profiles

section Greetings

/-- The Home screen greets by this document, or not at all. -/
structure Greets (data : Option Doc) (screen : HomeTabViewController) : Prop where
  userName : screen.userName = data.bind fun data => data["userName"]?
  welcomeLabel : screen.welcomeLabel =
    ((data.bind fun data => data["userName"]?).map fun userName => "Welcome, " ++ userName).getD ""

/-- The document that the Home screen greets by. -/
abbrev homeDocument (rules : URLRules) : Slot (app rules) where
  frame := sessions
  owner screen := ∃ self, screen = .home self
  Value := Option Doc
  holds data
    | .home self => Greets data self
    | _ => True
  initial := none
  writes _ exchange := (lastLoaded exchange).map some

/-- A load leaves the greeting of its last document. -/
theorem homeUsers_greets (rules : URLRules) (documents : Snapshot) {data : Option Doc}
    {self : HomeTabViewController} (held : Greets data self) :
    (HomeTabViewController.showUsers documents : Handler rules).Ends
      ((homeDocument rules).holds
        ((documents.getLast?.map fun document => some document.2).getD data)) (.home self) := by
  induction documents generalizing self data with
  | nil => exact held
  | cons document documents inductionHypothesis =>
      refine Slot.ends_unwrap fun userName hasUserName => ?_
      have greeted : Greets (some document.2) { self with
          userName := some userName, welcomeLabel := "Welcome, " ++ userName } :=
        ⟨hasUserName.symm, by rw [Option.bind_some, hasUserName]; rfl⟩
      show (HomeTabViewController.showUsers documents : Handler rules).Ends _ (.home _)
      have ended := inductionHypothesis greeted
      cases documents with
      | nil => exact ended
      | cons second documents => simpa [List.getLast?_cons] using ended

theorem homeUsers_respects {past : Past (app rules)} {documents : Snapshot}
    {self : HomeTabViewController} :
    (homeDocument rules).Respects past (HomeTabViewController.showUsers documents)
      (.home self) := by
  induction documents generalizing self with
  | nil => trivial
  | cons document documents inductionHypothesis =>
      exact Slot.respects_unwrap fun userName _ => inductionHypothesis

theorem homeDocument_sound : (homeDocument rules).Sound where
  steady input screen := Screen.steady_handle screen input
  owner {before after} kept := by
    cases before <;> cases after <;> first | exact kept.elim | simp
  made _ created := created.elim
  root root owns := by
    obtain ⟨self, opened⟩ := owns
    cases root with
    | home => exact ⟨rfl, rfl⟩
    | _ => cases opened
  input past start owns := by
    obtain ⟨⟨serial, place, input, object⟩, trail⟩ := past
    obtain ⟨self, rfl⟩ := owns
    cases start
    cases input with
    | viewWillAppear => exact ⟨fun _ held => { held with }, trivial⟩
    | authState listener currentUser =>
        cases currentUser with
        | none => exact ⟨fun _ held => held, trivial⟩
        | some user =>
            simp only [Code.Ends, Slot.Respects, Screen.handle, handleHome,
              HomeTabViewController.authState, this, Controller.ofScreen]
            split
            · refine ⟨fun _ held => { held with }, fun snapshot target kept => ?_, trivial⟩
              cases target with
              | home now =>
                  cases snapshot with
                  | none => exact ⟨fun _ held => held, trivial⟩
                  | some documents =>
                      refine ⟨fun data held => ?_, homeUsers_respects⟩
                      have ended := homeUsers_greets rules documents held
                      show (HomeTabViewController.showUsers documents : Handler rules).Ends _ _
                      simpa [lastLoaded, loadedDocuments, Function.comp_def] using ended
              | _ => exact kept.elim
            · exact ⟨fun _ held => held, trivial⟩
    | _ => exact ⟨fun _ held => held, trivial⟩

variable {events : List (Event (app rules) (firebase rules))} {world : AccountWorld rules}
  {index process : Nat}

/-- In every run, a running Home screen greets nobody, or a user of whom its listener has been
told, by the name that this user has entered. -/
theorem home_greets_reported_user {screen : HomeTabViewController}
    (reached : (system rules).recording.Reaches (system rules).recording.anyStep
      (start rules, []) (world, events))
    (placed : world.objects[index]? = some ⟨process, .home screen⟩)
    (runs : world.crashed process = false) :
    screen.welcomeLabel = "" ∨ ∃ user fields userName, Reported world index user ∧
      Entered events world user.uid fields ∧ Fields.value "userName" fields = some userName ∧
      screen.welcomeLabel = "Welcome, " ++ userName := by
  have holds := Chronicle.holds_of_recorded (acting_sound rules) reached
  have plain := Machine.Reachable.unrecorded (m := system rules) reached
  have greets : Greets ((world.lastWrite (homeDocument rules) index).getD none) screen :=
    (slotted_of_reachable homeDocument_sound plain).value index _ placed ⟨screen, rfl⟩ runs
  cases last : world.lastWrite (homeDocument rules) index with
  | none =>
      rw [last] at greets
      exact .inl greets.welcomeLabel
  | some written =>
      obtain ⟨⟨past, exchange⟩, handled, found⟩ := List.exists_of_findSome?_eq_some last
      obtain ⟨own, found⟩ := Option.ite_none_right_eq_some.mp found
      obtain ⟨data, loaded, rfl⟩ := Option.map_eq_some_iff.mp found
      obtain ⟨user, fields, reported, entered, rfl⟩ :=
        entered_of_lastLoaded holds plain handled own loaded
      rw [last] at greets
      have label := greets.welcomeLabel
      simp only [Option.getD_some, Option.bind_some, Doc.getElem?_merge,
        Std.ExtTreeMap.getElem?_empty, Option.or_none] at label
      cases named : Fields.value "userName" fields with
      | none =>
          rw [named] at label
          exact .inl label
      | some userName =>
          rw [named] at label
          exact .inr ⟨user, fields, userName, reported, entered, named, label⟩

end Greetings

section Schedules

/-- Alice signs up; her profile and the Home screen load her document. -/
def reading : List (Event (app anyText) (firebase anyText)) :=
  signingUp "d1" ++ [.launch 1 .profile, .input 1 .viewWillAppear,
    .input 1 (.authState 0 (some registered)), .serve 0 .ok, .reply 0, .launch 1 .home,
    .input 2 .viewWillAppear, .input 2 (.authState 0 (some registered)), .serve 1 .ok, .reply 1]

/-- Both running screens show Alice. -/
def showsAlice (world : AccountWorld anyText) : Bool :=
  match (world.objects[1]? : Option (Instance (app anyText))),
    (world.objects[2]? : Option (Instance (app anyText))) with
  | some ⟨1, .profile profile⟩, some ⟨1, .home home⟩ =>
      !world.crashed 1 && profile.userName == some "Alice" && home.welcomeLabel == "Welcome, Alice"
  | _, _ => false

theorem exists_showsAlice : ∃ (world : AccountWorld anyText)
    (events : List (Event (app anyText) (firebase anyText))) (profile : ProfileViewController)
    (home : HomeTabViewController),
    (system anyText).recording.Reaches (system anyText).recording.anyStep (start anyText, [])
      (world, events) ∧
      world.crashed 1 = false ∧ world.objects[1]? = some ⟨1, .profile profile⟩ ∧
      profile.userName = some "Alice" ∧ world.objects[2]? = some ⟨1, .home home⟩ ∧
      home.welcomeLabel = "Welcome, Alice" := by
  obtain ⟨⟨world, events⟩, reached, shown⟩ := Machine.exists_reaches
    (m := (system anyText).recording) (system anyText).recording.anyStep (start anyText, [])
    reading (fun state => showsAlice state.1) (by decide +kernel)
  dsimp only at shown
  unfold showsAlice at shown
  split at shown
  · rename_i profile home placed greeting
    simp only [Bool.and_eq_true, Bool.not_eq_true', beq_iff_eq] at shown
    exact ⟨world, events, profile, home, reached, shown.1.1, placed, shown.1.2, greeting,
      shown.2⟩
  · cases shown

theorem home_greets_reported_user_signedUp :
    ∃ (world : AccountWorld anyText) (events : List (Event (app anyText) (firebase anyText)))
      (screen : HomeTabViewController), screen.welcomeLabel = "Welcome, Alice" ∧
        (screen.welcomeLabel = "" ∨ ∃ user fields userName, Reported world 2 user ∧
          Entered events world user.uid fields ∧
          Fields.value "userName" fields = some userName ∧
          screen.welcomeLabel = "Welcome, " ++ userName) := by
  obtain ⟨world, events, profile, home, reached, runs, -, -, placed, label⟩ := exists_showsAlice
  exact ⟨world, events, home, label, home_greets_reported_user reached placed runs⟩

end Schedules

end Gbc.Account
