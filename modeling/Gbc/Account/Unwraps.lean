import Gbc.Account.ReadBack
import Gbc.Account.Steady

/-!
# The forced unwraps of the profile screen

Every document in `users` has the fields that the readers unwrap. `updateUserData`
unwraps properties which a load fills, and its button works from the start; so no
unwrap fails in the runs in which Update is pressed after a load has delivered a
document, and in which a screen disappears after it has appeared.
-/

namespace Gbc.Account

open Callback Handler World

variable {rules : URLRules}

/-- The properties that `updateUserData` unwraps are set. -/
structure Filled (screen : ProfileViewController) : Prop where
  userId : screen.userId.isSome = true
  email : screen.email.isSome = true
  imageUrl : screen.imageUrl.isSome = true

/-- A load of the documents of a user that has delivered one. -/
def deliversUser (exchange : Exchange (remote rules)) : Bool :=
  match exchange with
  | ⟨.query _ _ _, (some (_ :: _) : Option Snapshot)⟩ => true
  | _ => false

/-- Whether a load has filled the profile screen. -/
abbrev filled (rules : URLRules) : Slot (app rules) :=
  profileSlot (fun loaded self => loaded = true → Filled self) false fun _ exchange =>
    if deliversUser exchange then some true else none

/-- Documents that a load delivers fill the screen. -/
theorem profileUsers_ends {documents : Snapshot} {self : ProfileViewController} {loaded : Bool}
    (set : self.userId.isSome = true) (held : documents = [] → loaded = true → Filled self) :
    (ProfileViewController.showUsers documents : Handler rules).Ends
      ((filled rules).holds loaded) (.profile self) := by
  induction documents generalizing self with
  | nil => exact held rfl
  | cons document documents inductionHypothesis =>
      refine Slot.ends_unwrap fun userName _ => Slot.ends_unwrap fun phone _ => ?_
      refine Slot.ends_unwrap fun image _ => Slot.ends_unwrap fun eMail _ => ?_
      show (ProfileViewController.downloadImage image _).Ends _ _
      unfold ProfileViewController.downloadImage
      split
      · exact inductionHypothesis set fun _ _ => ⟨set, rfl, rfl⟩
      · exact inductionHypothesis set fun _ _ => ⟨set, rfl, rfl⟩

theorem filled_sound : (filled rules).Sound := by
  refine profileSlot_sound
    { opened := fun _ _ => nofun
      quiet := ?_
      uploaded := fun _ _ _ _ => rfl
      updated := fun _ _ _ _ => rfl
      loaded := ?_
      refused := fun _ _ => rfl
      downloaded := ?_
      located := ?_ }
  · intro loaded self handle userId userNameTF phoneTF listeners added signedIn held set
    exact { held set with userId := signedIn (held set).userId }
  · intro past uid documents loaded self signedIn held
    refine profileUsers_ends signedIn fun empty => ?_
    subst empty
    exact held
  · rintro past url (_ | image) loaded self held
    · exact held
    · exact fun set => { held set with }
  · rintro past path (_ | url) image loaded self _ held
    · exact held
    · exact fun set => { held set with imageUrl := rfl }

/-- A document has the fields that the readers of `users` unwrap. -/
def Complete (data : Doc) : Prop := ∀ key ∈ profileKeys, key ∈ data

/-- A document literal gives values to the fields that the readers of `users` unwrap. -/
def CompleteFields (fields : Fields) : Prop :=
  ∀ key ∈ profileKeys, (Fields.value key fields).isSome = true

/-- The documents in `users` are complete, and unwraps that rest on them do not fail. -/
def unwraps (rules : URLRules) : Contract (app rules) (firebase rules) where
  Evolves _ _ := True
  Server server := ∀ (name : String) (data : Doc),
    (server.documents .users)[name]? = some data → Complete data
  Object _ screen :=
    match screen with
    | .profile self => self.added ≠ 0 → self.handle.isSome = true
    | _ => True
  Request _ _ request :=
    match request with
    | .addDocument .users fields | .setData .users _ fields _ => CompleteFields fields
    | _ => True
  Response _ _ request response :=
    match request, response with
    | .query .users _ _, (some documents : Option Snapshot) =>
        ∀ document ∈ documents, Complete document.2
    | _, _ => True
  Fault fault := fault ≠ .userData ∧ fault ≠ .profile ∧ fault ≠ .listener
  InputGuard screen input :=
    match screen, input with
    | .profile self, .updateUserData => Filled self
    | .profile self, .viewWillDisappear => self.added ≠ 0
    | _, _ => True
  ServeGuard _ _ _ _ := True
  ReplyGuard _ _ _ _ := True

section Handlers

variable {server : Server rules} {past : Past (app rules)} {screen : Screen}

/-- A field of a complete document is there. -/
theorem Complete.safe_unwrap {data : Doc} {key : String} {next : String → Handler rules}
    (complete : Complete data) (read : key ∈ profileKeys)
    (rest : ∀ value, (unwraps rules).Safe server past (next value) screen) :
    (unwraps rules).Safe server past (.unwrap data[key]? .userData next) screen := by
  obtain ⟨value, found⟩ := getElem?_of_mem (complete key read)
  rw [found]
  exact rest value

/-- The handlers of the sign-up form write complete documents. -/
theorem signUpButton_unwraps :
    (unwraps rules).Safe server past SignUpViewController.signUpButton screen := by
  refine safe_this.mpr fun self _ => ?_
  split
  · trivial
  · refine ⟨trivial, ?_, trivial⟩
    rintro _ (code | user) target _ _ _ _ _
    · trivial
    · refine safe_this.mpr fun now _ => Contract.safe_unwrap.mpr ⟨fun _ => ?_, fun image _ => ?_⟩
      · exact ⟨nofun, nofun, nofun⟩
      · unfold SignUpViewController.uploadProfileImage
        split
        · trivial
        · refine ⟨trivial, fun _ (uploaded : Bool) target _ _ _ _ _ => ?_, trivial⟩
          cases uploaded with
          | false => trivial
          | true =>
              refine ⟨trivial, ?_, trivial⟩
              intro _ (url : Option (URL rules)) target _ _ _ valid _
              refine Contract.safe_unwrap.mpr ⟨fun _ => ⟨nofun, nofun, nofun⟩, fun url _ => ?_⟩
              refine safe_this.mpr fun now _ => Contract.safe_fire.mpr ⟨?_, ?_⟩
              · intro key member
                simp only [profileKeys, List.mem_cons, List.not_mem_nil, or_false] at member
                rcases member with rfl | rfl | rfl | rfl <;> rfl
              · exact safe_assign valid (fun _ _ => trivial) fun _ _ => trivial

/-- Picking a picture unwraps nothing. -/
theorem picked_unwraps {image : UIImage} :
    (unwraps rules).Safe server past (ProfileViewController.picked image) screen := by
  unfold ProfileViewController.picked
  split
  · trivial
  · refine safe_this.mpr fun self _ =>
      ⟨trivial, fun _ (uploaded : Bool) target _ _ _ _ _ => ?_, trivial⟩
    cases uploaded with
    | false => trivial
    | true =>
        refine safe_this.mpr fun now _ => ⟨trivial, ?_, trivial⟩
        rintro _ (_ | url) target _ _ _ valid _
        · trivial
        · exact safe_assign valid (fun _ kept => kept) fun _ _ => trivial

/-- Reading complete documents unwraps no missing field. -/
theorem profileUsers_unwraps {documents : Snapshot}
    (complete : ∀ document ∈ documents, Complete document.2)
    (valid : (unwraps rules).Object server screen) :
    (unwraps rules).Safe server past (ProfileViewController.showUsers documents) screen := by
  induction documents generalizing screen with
  | nil => trivial
  | cons document documents inductionHypothesis =>
      have first : Complete document.2 := complete document List.mem_cons_self
      have later := fun other member => complete other (List.mem_cons_of_mem _ member)
      refine first.safe_unwrap (by decide) fun userName => ?_
      refine safe_assign valid (fun _ kept => kept) fun screen valid => ?_
      refine first.safe_unwrap (by decide) fun phone => ?_
      refine safe_assign valid (fun _ kept => kept) fun screen valid => ?_
      refine first.safe_unwrap (by decide) fun image => ?_
      refine safe_assign valid (fun _ kept => kept) fun screen valid => ?_
      refine first.safe_unwrap (by decide) fun eMail => ?_
      refine safe_assign valid (fun _ kept => kept) fun screen valid => ?_
      refine safe_assign valid (fun _ kept => kept) fun screen valid => ?_
      unfold ProfileViewController.downloadImage
      split
      · exact inductionHypothesis later valid
      · refine ⟨trivial, ?_, inductionHypothesis later valid⟩
        rintro _ (_ | picture) target _ _ _ valid _
        · trivial
        · exact safe_assign valid (fun _ kept => kept) fun _ _ => trivial

theorem homeUsers_unwraps {documents : Snapshot}
    (complete : ∀ document ∈ documents, Complete document.2)
    (valid : (unwraps rules).Object server screen) :
    (unwraps rules).Safe server past (HomeTabViewController.showUsers documents) screen := by
  induction documents generalizing screen with
  | nil => trivial
  | cons document documents inductionHypothesis =>
      refine (complete document List.mem_cons_self).safe_unwrap (by decide) fun userName => ?_
      refine safe_assign valid (fun _ _ => trivial) fun screen valid => ?_
      exact inductionHypothesis
        (fun other member => complete other (List.mem_cons_of_mem _ member)) valid

theorem profileState_unwraps {listener : Nat} {currentUser : Option User}
    (valid : (unwraps rules).Object server screen) :
    (unwraps rules).Safe server past (ProfileViewController.authState listener currentUser)
      screen := by
  refine safe_this.mpr fun self _ => ?_
  cases currentUser with
  | none => trivial
  | some user =>
      show (unwraps rules).Safe server past (if _ then _ else _) screen
      split
      · refine safe_assign valid (fun _ kept => kept) fun screen valid => ⟨trivial, ?_, trivial⟩
        rintro _ (_ | documents) target _ _ complete valid _
        · trivial
        · exact profileUsers_unwraps complete valid
      · trivial

theorem homeState_unwraps {listener : Nat} {currentUser : Option User}
    (valid : (unwraps rules).Object server screen) :
    (unwraps rules).Safe server past (HomeTabViewController.authState listener currentUser)
      screen := by
  refine safe_this.mpr fun self _ => ?_
  cases currentUser with
  | none => trivial
  | some user =>
      show (unwraps rules).Safe server past (if _ then _ else _) screen
      split
      · refine safe_assign valid (fun _ _ => trivial) fun screen valid => ⟨trivial, ?_, trivial⟩
        rintro _ (_ | documents) target _ _ complete valid _
        · trivial
        · exact homeUsers_unwraps complete valid
      · trivial

/-- An update of a filled screen unwraps nothing that is missing, and writes a complete
document. -/
theorem updateUserData_unwraps {self : ProfileViewController} (filled : Filled self) :
    (unwraps rules).Safe server past ProfileViewController.updateUserData (.profile self) := by
  refine safe_this.mpr fun now shown => ?_
  obtain rfl : self = now := Option.some.inj shown
  obtain ⟨userId, hasUserId⟩ := Option.isSome_iff_exists.mp filled.userId
  obtain ⟨email, hasEmail⟩ := Option.isSome_iff_exists.mp filled.email
  obtain ⟨imageUrl, hasImageUrl⟩ := Option.isSome_iff_exists.mp filled.imageUrl
  rw [hasUserId, hasEmail, hasImageUrl]
  refine safe_document.mpr ⟨fun _ => ⟨nofun, nofun, nofun⟩, fun _ => ⟨?_, ?_, trivial⟩⟩
  · intro key member
    simp only [profileKeys, List.mem_cons, List.not_mem_nil, or_false] at member
    rcases member with rfl | rfl | rfl | rfl <;> rfl
  · exact fun _ _ _ _ _ _ _ _ => trivial

/-- Every handler unwraps what is there, under the guards. -/
theorem handle_unwraps {input : Input} (valid : (unwraps rules).Object server screen)
    (guarded : (unwraps rules).InputGuard screen input) :
    (unwraps rules).Safe server past (screen.handle input) screen := by
  cases screen with
  | signUp self =>
      cases input with
      | editSignUp userName eMail passWord pNumber => exact ⟨trivial, trivial⟩
      | pick image => exact ⟨trivial, trivial⟩
      | signUpButton => exact signUpButton_unwraps
      | _ => trivial
  | profile self =>
      cases input with
      | viewWillAppear => exact ⟨fun _ => rfl, trivial⟩
      | viewWillDisappear =>
          refine safe_this.mpr fun now shown => ?_
          obtain rfl : self = now := Option.some.inj shown
          obtain ⟨handle, added⟩ := Option.isSome_iff_exists.mp (valid guarded)
          rw [added]
          refine safe_assign valid (fun _ kept => kept) fun _ _ => trivial
      | authState listener currentUser => exact profileState_unwraps valid
      | editProfile userName phone =>
          exact safe_assign valid (fun _ kept => kept) fun _ _ => trivial
      | pick image => exact picked_unwraps
      | updateUserData => exact updateUserData_unwraps guarded
      | _ => trivial
  | home self =>
      cases input with
      | viewWillAppear => exact ⟨trivial, trivial⟩
      | authState listener currentUser => exact homeState_unwraps valid
      | _ => trivial

end Handlers

/-- A write to `users` that keeps its documents complete. -/
theorem complete_of_apply {documents : Collection} {write : Write}
    (complete : ∀ (name : String) (data : Doc), documents[name]? = some data → Complete data)
    (fields : ∀ document data, write = .add document data ∨
      (∃ merge, write = .set document data merge) → CompleteFields data) :
    ∀ (name : String) (data : Doc), (write.apply documents)[name]? = some data →
      Complete data := by
  have merged : ∀ (old : Doc) (data : Fields), CompleteFields data → Complete (old.merge data) := by
    intro old data present key member
    rw [← Std.ExtTreeMap.isSome_getElem?_iff_mem, Doc.getElem?_merge, Option.isSome_or,
      present key member, Bool.true_or]
  intro name data found
  by_cases aimed : write.document = name
  · cases write with
    | add document added =>
        obtain rfl : document = name := aimed
        rw [Write.getElem?_apply_add] at found
        obtain rfl := Option.some.inj found
        exact merged _ _ (fields document added (.inl rfl))
    | set document written merge =>
        obtain rfl : document = name := aimed
        have present := fields document written (.inr ⟨merge, rfl⟩)
        cases merge with
        | false =>
            rw [Write.getElem?_apply_set] at found
            obtain rfl := Option.some.inj found
            exact merged _ _ present
        | true =>
            rw [Write.getElem?_apply_merge] at found
            obtain rfl := Option.some.inj found
            exact merged _ _ present
    | delete document =>
        obtain rfl : document = name := aimed
        simp at found
  · rw [Write.getElem?_apply_of_ne _ _ aimed] at found
    exact complete name data found

/-- The backend keeps the documents in `users` complete and delivers complete ones. -/
theorem serve_unwraps {server later : Server rules} {past : Past (app rules)}
    {request : Request rules} {choice : Server.Choice rules} {response : request.Response}
    (valid : (unwraps rules).Server server)
    (request_ok : (unwraps rules).Request server past request)
    (served : server.serve request choice = some (later, response)) :
    (unwraps rules).Server later ∧ (unwraps rules).Response later past request response := by
  have write : ∀ collection write, (collection = .users → ∀ document data,
      write = .add document data ∨ (∃ merge, write = .set document data merge) →
        CompleteFields data) → (unwraps rules).Server (server.write collection write) := by
    intro collection write fields
    cases collection with
    | users =>
        intro name data found
        rw [Server.write_documents] at found
        exact complete_of_apply valid (fields rfl) name data found
    | _ => exact valid
  cases Server.served_of_serve served with
  | @added collection data name unused =>
      refine ⟨write collection _ ?_, trivial⟩
      rintro rfl document fields (same | ⟨merge, same⟩)
      · cases same; exact request_ok
      · cases same
  | @set collection document data merge =>
      refine ⟨write collection _ ?_, trivial⟩
      rintro rfl document fields (same | ⟨merge, same⟩)
      · cases same
      · cases same; exact request_ok
  | @deleted collection document =>
      refine ⟨write collection _ ?_, trivial⟩
      rintro rfl document fields (same | ⟨merge, same⟩) <;> cases same
  | @matched collection field value =>
      refine ⟨valid, ?_⟩
      cases collection with
      | users =>
          rintro ⟨name, data⟩ member
          have listed := (List.mem_filter.mp member).1
          exact valid name data (Std.ExtTreeMap.mem_toList_iff_getElem?_eq_some.mp listed)
      | _ => trivial
  | @matchFailed collection field value =>
      refine ⟨valid, ?_⟩
      cases collection <;> trivial
  | _ => exact ⟨valid, trivial⟩

theorem unwraps_sound (rules : URLRules) : (unwraps rules).Sound where
  refl _ := trivial
  trans _ _ := trivial
  object _ valid := valid
  request _ valid := valid
  response _ valid := valid
  root _ root _ := by cases root <;> simp [unwraps, Root.screen]
  input server past screen input _ valid guarded _ _ _ := handle_unwraps valid guarded
  serve valid request _ served := ⟨trivial, serve_unwraps valid request served⟩

section Runs

variable {world next : AccountWorld rules}

/-- Update is pressed on a profile screen after a load has delivered a document to it,
and a profile screen disappears after it has appeared. -/
def readyUnwraps (world : AccountWorld rules) : Event (app rules) (firebase rules) → Bool
  | .input index input =>
      match world.objects[index]?, input with
      | some ⟨_, .profile _⟩, .updateUserData =>
          world.acknowledged.any fun handled =>
            handled.1.entry.self == index && deliversUser handled.2
      | some ⟨_, .profile self⟩, .viewWillDisappear => self.added != 0
      | _, _ => true
  | _ => true

/-- A load that has delivered a document is the last one, as far as the slot goes. -/
theorem lastWrite_filled {index : Nat}
    (delivered : (world.acknowledged.any fun handled =>
      handled.1.entry.self == index && deliversUser handled.2) = true) :
    world.lastWrite (filled rules) index = some true := by
  obtain ⟨handled, member, delivers⟩ := List.any_eq_true.mp delivered
  simp only [Bool.and_eq_true, beq_iff_eq] at delivers
  cases last : world.lastWrite (filled rules) index with
  | none =>
      have silent := List.findSome?_eq_none_iff.mp last handled member
      simp [delivers.1, delivers.2] at silent
  | some loaded =>
      obtain ⟨other, _, written⟩ := List.exists_of_findSome?_eq_some last
      split at written
      · simp only [Option.ite_none_right_eq_some] at written
        rw [written.2]
      · cases written

/-- The runs under the test are runs under the contract's guards. -/
theorem unwraps_of_reaches
    (reached : (system rules).Reaches readyUnwraps (start rules) world) :
    (unwraps rules).Holds world := by
  have initial : (unwraps rules).Server (.empty rules) := by
    intro name data found
    simp at found
  have guarded : Machine.Reachable (m := system rules) (unwraps rules).guard (start rules)
      world := by
    refine reached.weakenWith fun {state event next} prior ready taken => ?_
    cases event with
    | input index input =>
        rintro ⟨process, screen⟩ placed
        cases screen with
        | profile self =>
            cases input with
            | updateUserData =>
                have delivered := ready
                simp only [readyUnwraps, placed] at delivered
                have stepped : (state : AccountWorld rules).step
                    (.input index .updateUserData) = some next := taken
                cases stepped_of_step stepped with
                | began placed' runs =>
                    obtain rfl := Option.some.inj (placed.symm.trans placed')
                    have held := (slotted_of_reachable filled_sound prior).value index _ placed
                      ⟨self, rfl⟩ runs
                    rw [lastWrite_filled delivered] at held
                    exact held rfl
            | viewWillDisappear =>
                have appeared := ready
                simp only [readyUnwraps, placed, bne_iff_ne] at appeared
                exact appeared
            | _ => trivial
        | _ => trivial
    | _ => simp [Contract.guard, unwraps]
  exact Contract.Holds.reachable (unwraps_sound rules) (Contract.holds_initial initial) guarded

/-- No unwrap of the profile screen fails while Update is pressed only after a load has
delivered a document. -/
theorem profile_never_traps
    (reached : (system rules).Reaches readyUnwraps (start rules) world) :
    ∀ fault ∈ world.faults,
      fault.2 ≠ .userData ∧ fault.2 ≠ .profile ∧ fault.2 ≠ .listener :=
  (unwraps_of_reaches reached).faults

end Runs

section Schedules

/-- The profile screen appears and starts to load the documents of the new user. -/
def appearing : List (Event (app anyText) (firebase anyText)) :=
  signingUp "d1" ++ [.launch 1 .profile, .input 1 .viewWillAppear,
    .input 1 (.authState 0 (some registered))]

/-- The load is answered, the profile is updated, and the screen disappears. -/
theorem profile_never_traps_loaded :
    ∃ world, (system anyText).Reaches readyUnwraps (start anyText) world ∧
      (world.server.lastSet .users "u1").isSome = true ∧
      ∀ fault ∈ world.faults,
        fault.2 ≠ .userData ∧ fault.2 ≠ .profile ∧ fault.2 ≠ .listener := by
  obtain ⟨world, reached, updated⟩ := Machine.exists_reaches (m := system anyText)
    readyUnwraps (start anyText)
    (appearing ++ [.serve 0 .ok, .reply 0, .input 1 .updateUserData, .serve 1 .ok, .reply 1,
      .input 1 .viewWillDisappear])
    (fun world => (world.server.lastSet .users "u1").isSome) (by decide +kernel)
  exact ⟨world, reached, updated, profile_never_traps reached⟩

/-- Update is pressed before the load is answered. -/
theorem profile_traps_on_early_update :
    ¬ ∀ (rules : URLRules) (world : AccountWorld rules),
      (system rules).Reaches (system rules).anyStep (start rules) world →
      ∀ fault ∈ world.faults,
        fault.2 ≠ .userData ∧ fault.2 ≠ .profile ∧ fault.2 ≠ .listener := by
  intro holds
  obtain ⟨world, reached, trapped⟩ := Machine.exists_reaches (m := system anyText)
    (system anyText).anyStep (start anyText) (appearing ++ [.input 1 .updateUserData])
    (fun world => world.faults.contains (1, .profile)) (by decide +kernel)
  exact (holds _ world reached _ (List.contains_iff_mem.mp trapped)).2.1 rfl

end Schedules

end Gbc.Account
