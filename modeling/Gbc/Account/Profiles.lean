import Gbc.Account.Origin
import Gbc.Callback.Once
import Gbc.Platform.Ledger

/-!
# The documents of a user

In every run a user has at most one document from signing up: an account is created
once, and each sign-up is a chain of operations that are started once. All other
writes to `users` replace the document under the user ID.
-/

namespace Gbc.Account

open Callback Handler World

variable {rules : URLRules}

/-- The operations that a handler of these screens starts at most one of. -/
def operates : Request rules → Bool
  | .dataTask _ => false
  | _ => true

section Handlers

variable {free : Bool}

theorem once_this {Self : Type} [Controller Screen Self] {next : Self → Handler rules}
    (once : ∀ self, (next self).Once operates free) : (this next).Once operates free := by
  intro screen
  simp only
  split
  · exact once _
  · trivial

theorem once_unwrap {Value : Type} {value : Option Value} {fault : Fault}
    {next : Value → Handler rules} (once : ∀ value, (next value).Once operates free) :
    (Code.unwrap value fault next).Once operates free := by
  cases value with
  | none => trivial
  | some value => exact once value

theorem signUpButton_once :
    (SignUpViewController.signUpButton : Handler rules).Once operates true := by
  refine once_this fun self => ?_
  split
  · trivial
  · refine ⟨fun _ => rfl, fun result => ?_, trivial⟩
    cases result with
    | error code => trivial
    | ok user =>
        refine once_this fun now => once_unwrap fun image => ?_
        unfold SignUpViewController.uploadProfileImage
        split
        · trivial
        · refine ⟨fun _ => rfl, fun uploaded => ?_, trivial⟩
          cases uploaded with
          | false => trivial
          | true =>
              refine ⟨fun _ => rfl, fun url => ?_, trivial⟩
              exact once_unwrap fun url => once_this fun now =>
                ⟨fun _ => rfl, fun _ => trivial, trivial⟩

theorem picked_once {image : UIImage} :
    (ProfileViewController.picked image : Handler rules).Once operates true := by
  unfold ProfileViewController.picked
  split
  · trivial
  · refine once_this fun self => ⟨fun _ => rfl, fun uploaded => ?_, trivial⟩
    cases uploaded with
    | false => trivial
    | true =>
        refine once_this fun now => ⟨fun _ => rfl, fun url => ?_, trivial⟩
        cases url with
        | none => trivial
        | some url => trivial

theorem updateUserData_once :
    (ProfileViewController.updateUserData : Handler rules).Once operates true := by
  refine once_this fun self => once_unwrap fun userId => ?_
  unfold Handler.document
  split
  · trivial
  · exact once_unwrap fun email => once_unwrap fun imageUrl =>
      ⟨fun _ => rfl, fun written => trivial, trivial⟩

theorem profileUsers_once {documents : Snapshot} :
    (ProfileViewController.showUsers documents : Handler rules).Once operates free := by
  induction documents with
  | nil => trivial
  | cons document documents inductionHypothesis =>
      obtain ⟨documentID, data⟩ := document
      refine once_unwrap fun userName => once_unwrap fun phone => once_unwrap fun image =>
        once_unwrap fun eMail => ?_
      show (ProfileViewController.downloadImage image _).Once operates free
      unfold ProfileViewController.downloadImage
      split
      · exact inductionHypothesis
      · refine ⟨nofun, fun picture => ?_, ?_⟩
        · cases picture with
          | none => trivial
          | some picture => trivial
        · simpa [operates] using inductionHypothesis

theorem homeUsers_once {documents : Snapshot} :
    (HomeTabViewController.showUsers documents : Handler rules).Once operates free := by
  induction documents with
  | nil => trivial
  | cons document documents inductionHypothesis =>
      obtain ⟨documentID, data⟩ := document
      exact once_unwrap fun userName => inductionHypothesis

/-- A query whose completion handler starts counted operations once. -/
theorem once_query {uid : String} {completion : Option Snapshot → Handler rules}
    (once : ∀ snapshot, (completion snapshot).Once operates true) :
    (Code.call (.query .users "userId" uid) completion .done : Handler rules).Once operates
      true :=
  ⟨fun _ => rfl, once, trivial⟩

theorem profileState_once {listener : Nat} {currentUser : Option User} :
    (ProfileViewController.authState listener currentUser : Handler rules).Once operates
      true := by
  refine once_this fun self => ?_
  cases currentUser with
  | none => trivial
  | some user =>
      show (if _ then _ else _ : Handler rules).Once operates true
      split
      · refine once_query fun snapshot => ?_
        cases snapshot with
        | none => trivial
        | some documents => exact profileUsers_once
      · trivial

theorem homeState_once {listener : Nat} {currentUser : Option User} :
    (HomeTabViewController.authState listener currentUser : Handler rules).Once operates
      true := by
  refine once_this fun self => ?_
  cases currentUser with
  | none => trivial
  | some user =>
      show (if _ then _ else _ : Handler rules).Once operates true
      split
      · refine once_query fun snapshot => ?_
        cases snapshot with
        | none => trivial
        | some documents => exact homeUsers_once
      · trivial

/-- Every handler starts at most one operation but image loads. -/
theorem handler_once (input : Input) : ((app rules).handler input).Once operates true := by
  intro screen
  cases screen with
  | signUp self =>
      cases input with
      | signUpButton => exact signUpButton_once
      | _ => trivial
  | profile self =>
      cases input with
      | viewWillDisappear => exact once_this fun _ => once_unwrap fun _ => trivial
      | authState listener currentUser => exact profileState_once
      | pick image => exact picked_once
      | updateUserData => exact updateUserData_once
      | _ => trivial
  | home self =>
      cases input with
      | authState listener currentUser => exact homeState_once
      | _ => trivial

end Handlers

/-- What every world of the account screens keeps. -/
structure Accounts (world : AccountWorld rules) : Prop where
  origins : (origins rules False).Holds world
  ledger : Ledger world
  counted : Counted operates world

theorem accounts_of_reachable {guard : (system rules).Guard} {world : AccountWorld rules}
    (reached : Machine.Reachable guard (start rules) world) : Accounts world where
  origins := by
    refine origins_of_reachable (reached.weaken fun state event _ => ?_)
    cases event <;> simp [Contract.guard, Account.origins]
  ledger := ledger_of_reachable reached
  counted := counted_of_reachable handler_once reached

/-- The two kinds of writes to `users`. -/
inductive Writes : Write → Prop where
  | signUp (document : String) (form : SignUpViewController) (uid url : String) :
      Writes (.add document (form.profile uid url))
  | update (self : ProfileViewController) (uid email imageUrl : String) :
      Writes (.set uid (self.changes uid email imageUrl) false)

section Users

variable {world : AccountWorld rules} {uid first second : String} {fields other : Fields}

/-- Every write to `users` is of one of the two kinds. -/
theorem Accounts.writes (accounts : Accounts world) {write : Write}
    (written : (CollectionName.users, write) ∈ world.server.journal) : Writes write := by
  have accounted := accounts.ledger.accounted written
  cases write with
  | add document data =>
      obtain ⟨past, added⟩ := accounted
      cases accounts.origins.answered added with
      | profile uploads same => exact .signUp _ _ _ _
  | set document data merge =>
      obtain ⟨past, set⟩ := accounted
      cases accounts.origins.answered set with
      | update began => exact .update _ _ _ _
  | delete document =>
      obtain ⟨past, deleted⟩ := accounted
      cases accounts.origins.answered deleted

/-- The account of an added document was created by the same sign-up. -/
theorem Accounts.chain_of_added (accounts : Accounts world) {past : Past (app rules)}
    (added : world.Answered past ⟨.addDocument .users fields, (some first : Option String)⟩)
    (owner : Fields.value "userId" fields = some uid) :
    ∃ entry form user data url, user.uid = uid ∧
      past = afterLookup entry form user data url ∧ Pressed entry form ∧
      world.Answered ⟨entry, []⟩
        ⟨.createUser form.eMail form.passWord, (.ok user : Except AuthErrorCode User)⟩ ∧
      world.Answered (afterSignUp entry form user)
        ⟨.putData ("user/" ++ user.uid) data, true⟩ ∧
      world.Answered (afterUpload entry form user data)
        ⟨.downloadURL ("user/" ++ user.uid), (some url : Option (URL rules))⟩ := by
  have occurs := added.occurs
  have traced := accounts.counted.traced
  cases accounts.origins.answered added with
  | @profile entry form now user data url uploads =>
      have located := traced _ _ _ occurs
      have uploaded := traced _ _ _ (.handled located)
      have created := traced _ _ _ (.handled uploaded)
      have same : user.uid = uid := by
        simpa [SignUpViewController.profile, Fields.value] using owner
      exact ⟨entry, form, user, data, url, same, rfl, uploads.toPressed, .handled created,
        .handled uploaded, .handled located⟩

/-- A user has at most one document from signing up. -/
theorem Accounts.added_unique (accounts : Accounts world)
    (added : (CollectionName.users, Write.add first fields) ∈ world.server.journal)
    (owner : Fields.value "userId" fields = some uid)
    (added' : (CollectionName.users, Write.add second other) ∈ world.server.journal)
    (owner' : Fields.value "userId" other = some uid) : first = second ∧ fields = other := by
  obtain ⟨past, answered⟩ := accounts.ledger.accounted added
  obtain ⟨past', answered'⟩ := accounts.ledger.accounted added'
  obtain ⟨entry, form, user, data, url, same, rfl, pressed, created, uploaded, located⟩ :=
    accounts.chain_of_added answered owner
  obtain ⟨entry', form', user', data', url', same', rfl, pressed', created', uploaded',
    located'⟩ := accounts.chain_of_added answered' owner'
  -- The chains begin with one press, and no step of a chain happens twice.
  cases accounts.ledger.registrant created created' (same.trans same'.symm)
  cases pressed.began.symm.trans pressed'.began
  cases accounts.counted.unique rfl rfl created created'
  cases accounts.counted.unique rfl rfl uploaded uploaded'
  cases accounts.counted.unique rfl rfl located located'
  cases accounts.counted.unique rfl rfl answered answered'
  exact ⟨rfl, rfl⟩

end Users

end Gbc.Account
