import Gbc.Account.ReadBack
import Gbc.Account.Steady

/-!
# The picture of the profile screen

`imageUrl` is written by the loads of the user's documents and by the picks, the image
view by the downloads and by the picks, each in the order in which answers are handled.
What an update writes and what the screen shows follows from the last answers.
-/

namespace Gbc.Account

open Callback Handler World

variable {rules : URLRules}

/-- What an answer leaves in `imageUrl`: the field of the last document of a load, or the
URL of a pick. -/
def namedBy (exchange : Exchange (remote rules)) : Option (Option String) :=
  match exchange with
  | ⟨.query _ _ _, (some documents : Option Snapshot)⟩ =>
      documents.getLast?.map fun document => document.2["image"]?
  | ⟨.downloadURL _, (some url : Option (URL rules))⟩ => some (some url.string)
  | _ => none

/-- What the image view has been given: the picture of some data, if that is an image, or a
picked picture. -/
inductive Shown (rules : URLRules) where
  | downloaded (url : URL rules) (image : Option UIImage)
  | picked (image : UIImage)

/-- The image itself. -/
def Shown.image : Shown rules → Option UIImage
  | .downloaded _ image => image
  | .picked image => some image

/-- What an answer leaves in the image view: that of the data, or the picked picture. -/
def shownBy (past : Past (app rules)) (exchange : Exchange (remote rules)) :
    Option (Shown rules) :=
  match past.entry.input, exchange with
  | _, ⟨.dataTask url, (some image : Option (Option UIImage))⟩ => some (.downloaded url image)
  | .pick image, ⟨.downloadURL _, (some _ : Option (URL rules))⟩ => some (.picked image)
  | _, _ => none

/-- Only a data task delivers a downloaded picture. -/
theorem dataTask_of_shownBy {past : Past (app rules)} {exchange : Exchange (remote rules)}
    {url : URL rules} {image : Option UIImage}
    (shown : shownBy past exchange = some (.downloaded url image)) :
    exchange = ⟨.dataTask url, (some image : Option (Option UIImage))⟩ := by
  unfold shownBy at shown
  split at shown
  · cases shown
    rfl
  · cases shown
  · cases shown

/-- `imageUrl` of the profile screen. -/
abbrev imageUrl (rules : URLRules) : Slot (app rules) :=
  profileSlot (fun text self => self.imageUrl = text) none fun _ exchange => namedBy exchange

/-- The image view of the profile screen. -/
abbrev profileImageView (rules : URLRules) : Slot (app rules) :=
  profileSlot (fun image self => self.profileImageView = image) none fun past exchange =>
    (shownBy past exchange).map Shown.image

/-- A load leaves the field of its last document in `imageUrl`. -/
theorem imageUrl_ends {documents : Snapshot} {text : Option String}
    {self : ProfileViewController} (held : self.imageUrl = text) :
    (ProfileViewController.showUsers documents : Handler rules).Ends
      ((imageUrl rules).holds
        ((documents.getLast?.map fun document => document.2["image"]?).getD text))
      (.profile self) := by
  induction documents generalizing self text with
  | nil => exact held
  | cons document documents inductionHypothesis =>
      refine Slot.ends_unwrap fun userName _ => Slot.ends_unwrap fun phone _ => ?_
      refine Slot.ends_unwrap fun image named => Slot.ends_unwrap fun eMail _ => ?_
      show (ProfileViewController.downloadImage image _).Ends _ _
      have rest : ∀ now : ProfileViewController, now.imageUrl = some image →
          (ProfileViewController.showUsers documents : Handler rules).Ends
            ((imageUrl rules).holds (((document :: documents).getLast?.map
              fun document => document.2["image"]?).getD text)) (.profile now) := by
        intro now shown
        have ended := inductionHypothesis shown
        cases documents with
        | nil => simpa [named] using ended
        | cons second documents => simpa [List.getLast?_cons] using ended
      unfold ProfileViewController.downloadImage
      split
      · exact rest _ rfl
      · exact rest _ rfl

theorem imageUrl_sound : (imageUrl rules).Sound := by
  refine profileSlot_sound
    { opened := ?_
      quiet := fun _ _ _ _ _ _ _ _ _ held => held
      uploaded := fun _ _ _ _ => rfl
      updated := fun _ _ _ _ => rfl
      loaded := fun _ _ _ _ _ _ held => imageUrl_ends held
      refused := fun _ _ => rfl
      downloaded := ?_
      located := ?_ }
  · rintro self opened
    cases opened
    rfl
  · rintro past url (_ | image) text self held
    · exact held
    · exact held
  · rintro past path (_ | url) image text self _ held
    · exact held
    · rfl

/-- A load leaves the image view alone. -/
theorem profileImageView_ends {documents : Snapshot} {shown : Option UIImage}
    {self : ProfileViewController} (held : self.profileImageView = shown) :
    (ProfileViewController.showUsers documents : Handler rules).Ends
      ((profileImageView rules).holds shown) (.profile self) := by
  induction documents generalizing self with
  | nil => exact held
  | cons document documents inductionHypothesis =>
      refine Slot.ends_unwrap fun userName _ => Slot.ends_unwrap fun phone _ => ?_
      refine Slot.ends_unwrap fun image _ => Slot.ends_unwrap fun eMail _ => ?_
      show (ProfileViewController.downloadImage image _).Ends _ _
      unfold ProfileViewController.downloadImage
      split
      · exact inductionHypothesis held
      · exact inductionHypothesis held

theorem profileImageView_sound : (profileImageView rules).Sound := by
  refine profileSlot_sound
    { opened := ?_
      quiet := fun _ _ _ _ _ _ _ _ _ held => held
      uploaded := ?_
      updated := ?_
      loaded := ?_
      refused := ?_
      downloaded := ?_
      located := ?_ }
  · rintro self opened
    cases opened
    rfl
  · rintro ⟨⟨serial, place, input, object⟩, trail⟩ path data uploaded
    cases input <;> rfl
  · rintro ⟨⟨serial, place, input, object⟩, trail⟩ uid fields written
    cases input <;> rfl
  · rintro ⟨⟨serial, place, input, object⟩, trail⟩ uid documents shown self _ held
    cases input <;> exact profileImageView_ends held
  · rintro ⟨⟨serial, place, input, object⟩, trail⟩ uid
    cases input <;> rfl
  · rintro ⟨⟨serial, place, input, object⟩, trail⟩ url (_ | image) shown self held
    · cases input <;> exact held
    · cases input <;> rfl
  · rintro ⟨⟨serial, place, input, object⟩, trail⟩ path (_ | url) image shown self pick held
    · cases pick
      exact held
    · cases pick
      rfl

section Runs

variable {world next : AccountWorld rules} {index process : Nat} {self : ProfileViewController}

/-- What the load or the pick that was answered last has named. -/
def lastNamed (world : AccountWorld rules) (index : Nat) : Option String :=
  (world.acknowledged.findSome? fun handled =>
    if handled.1.entry.self = index then namedBy handled.2 else none).getD none

/-- What the download or the pick that was answered last has delivered to the image view. -/
def lastShown (world : AccountWorld rules) (index : Nat) : Option (Shown rules) :=
  world.acknowledged.findSome? fun handled =>
    if handled.1.entry.self = index then shownBy handled.1 handled.2 else none

theorem imageUrl_eq (reached : (system rules).Reaches (system rules).anyStep (start rules) world)
    (placed : world.objects[index]? = some ⟨process, .profile self⟩)
    (runs : world.crashed process = false) : self.imageUrl = lastNamed world index :=
  (slotted_of_reachable imageUrl_sound reached).value index _ placed ⟨self, rfl⟩ runs

theorem profileImageView_eq
    (reached : (system rules).Reaches (system rules).anyStep (start rules) world)
    (placed : world.objects[index]? = some ⟨process, .profile self⟩)
    (runs : world.crashed process = false) :
    self.profileImageView = (lastShown world index).bind Shown.image := by
  have value : self.profileImageView =
      (world.lastWrite (profileImageView rules) index).getD none :=
    (slotted_of_reachable profileImageView_sound reached).value index _ placed ⟨self, rfl⟩ runs
  rw [value, lastWrite_map (fun _ _ => rfl), lastShown]
  cases world.acknowledged.findSome? _ <;> rfl

/-- The upload of a picture that was picked on this screen has completed. -/
structure Uploaded (world : AccountWorld rules) (index : Nat) (pick : Entry (app rules)) :
    Prop where
  screen : pick.self = index
  picked : ∃ image, pick.input = .pick image
  completed : ∃ trail path data, (⟨pick, trail⟩, ⟨.putData path data, true⟩) ∈ world.acknowledged

/-- This pick is the most recent one of those whose upload has completed. -/
structure MostRecent (world : AccountWorld rules) (index : Nat) (pick : Entry (app rules)) :
    Prop where
  uploaded : Uploaded world index pick
  latest : ∀ other, Uploaded world index other → other.serial ≤ pick.serial

/-- The URL of a picked picture has been delivered. -/
def Obtained (world : AccountWorld rules) (pick : Entry (app rules)) (url : URL rules) : Prop :=
  ∃ trail path, (⟨pick, trail⟩, ⟨.downloadURL path, (some url : Option (URL rules))⟩) ∈
    world.acknowledged

/-- The written fields name the picture that was picked last. -/
def CarriesPick (world : AccountWorld rules) (index : Nat) (fields : Fields) : Prop :=
  ∀ pick, MostRecent world index pick →
    ∃ url, Obtained world pick url ∧ Fields.value "image" fields = some url.string

/-- The load or the pick that was answered last has named the picture that was picked
last. -/
def LastNameFits (world : AccountWorld rules) (index : Nat) : Prop :=
  ∀ pick, MostRecent world index pick →
    ∃ url, Obtained world pick url ∧ lastNamed world index = some url.string

/-- The text is the URL of a stored picture. -/
def Names (server : Server rules) (text : String) (image : UIImage) : Prop :=
  ∃ url, URL.ofString rules text = some url ∧ server.Shows url image

/-- The screen shows the picture that `imageUrl` names. -/
def ShowsNamed (server : Server rules) (screen : ProfileViewController) : Prop :=
  match screen.imageUrl, screen.profileImageView with
  | none, none => True
  | some text, some image => Names server text image
  | _, _ => False

/-- The image view was last given an image, by the download of the URL that was named last
or one that is stored under that URL. -/
def LastPictureFits (world : AccountWorld rules) (index : Nat) : Prop :=
  match lastNamed world index, lastShown world index with
  | none, none => True
  | none, some (.downloaded _ none) => True
  | some text, some (.downloaded url (some image)) =>
      text = url.string ∨ Names world.server text image
  | some text, some (.picked image) => Names world.server text image
  | _, _ => False

/-- An update writes `imageUrl` as it is at the press. -/
theorem image_of_update (accounts : Accounts world)
    (placed : world.objects[index]? = some ⟨process, .profile self⟩)
    (taken : world.step (.input index .updateUserData) = some next)
    {pending : Pending (app rules)} {uid : String} {fields : Fields} {merge : Bool}
    (member : pending ∈ next.pending) (fresh : pending.past.entry.serial = world.clock)
    (writes : pending.request = .setData .users uid fields merge) :
    Fields.value "image" fields = self.imageUrl := by
  have older : ¬ pending ∈ world.pending := by
    intro old
    have before := accounts.counted.serial _ (.outstanding old rfl)
    omega
  cases stepped_of_step taken with
  | began placed' runs =>
      obtain rfl := Option.some.inj (placed.symm.trans placed')
      simp only [exec, Screen.handle, handleProfile, ProfileViewController.updateUserData, this,
        Controller.ofScreen] at member
      cases hasUserId : self.userId with
      | none => simp [hasUserId, Code.unwrap, exec, older] at member
      | some userId =>
          simp only [hasUserId, Code.unwrap_some, Handler.document] at member
          split at member
          · exact absurd member older
          · cases hasEmail : self.email with
            | none => simp [hasEmail, Code.unwrap, exec, older] at member
            | some email =>
                cases hasImageUrl : self.imageUrl with
                | none => simp [hasEmail, hasImageUrl, Code.unwrap, exec, older] at member
                | some imageUrl =>
                    simp only [hasEmail, hasImageUrl, Code.unwrap_some, exec,
                      List.mem_append, older, false_or, List.mem_singleton] at member
                    subst member
                    cases writes
                    rfl

/-- A downloaded image is the picture that is stored under its URL. -/
theorem shows_of_lastShown
    (reached : (system rules).Reaches (system rules).anyStep (start rules) world)
    {url : URL rules} {image : UIImage}
    (shown : lastShown world index = some (.downloaded url (some image))) :
    world.server.Shows url image := by
  obtain ⟨⟨past, exchange⟩, member, delivers⟩ := List.exists_of_findSome?_eq_some shown
  split at delivers
  · obtain rfl := dataTask_of_shownBy delivers
    exact downloadsShow_of_reachable reached past url image (.handled member)
  · cases delivers

/-- The picture of the screen is the one that `imageUrl` names exactly when the last
answers fit. -/
theorem showsNamed_iff
    (reached : (system rules).Reaches (system rules).anyStep (start rules) world)
    (placed : world.objects[index]? = some ⟨process, .profile self⟩)
    (runs : world.crashed process = false) :
    ShowsNamed world.server self ↔ LastPictureFits world index := by
  unfold ShowsNamed LastPictureFits
  rw [imageUrl_eq reached placed runs, profileImageView_eq reached placed runs]
  cases named : lastNamed world index with
  | none =>
      cases lastShown world index with
      | none => rfl
      | some last =>
          cases last with
          | picked image => rfl
          | downloaded url image => cases image <;> rfl
  | some text =>
      cases shown : lastShown world index with
      | none => rfl
      | some last =>
          cases last with
          | picked image => rfl
          | downloaded url picture =>
              cases picture with
              | none => rfl
              | some image =>
                  refine ⟨.inr, fun fits => fits.elim ?_ id⟩
                  rintro rfl
                  have shows := shows_of_lastShown reached shown
                  exact ⟨url, URL.ofString_string url, shows⟩

/-- An update writes the URL of the last pick exactly when the last answer has named it,
and the screen shows the picture it names exactly when the last answers fit. -/
theorem picked_picture_kept
    (reached : (system rules).Reaches (system rules).anyStep (start rules) world)
    (placed : world.objects[index]? = some ⟨process, .profile self⟩)
    (runs : world.crashed process = false) :
    (∀ next pending uid fields merge,
      world.step (.input index .updateUserData) = some next → pending ∈ next.pending →
      pending.past.entry.serial = world.clock →
      pending.request = .setData .users uid fields merge →
      (CarriesPick world index fields ↔ LastNameFits world index)) ∧
    (ShowsNamed world.server self ↔ LastPictureFits world index) := by
  refine ⟨fun next pending uid fields merge taken member fresh writes => ?_,
    showsNamed_iff reached placed runs⟩
  have written : Fields.value "image" fields = lastNamed world index :=
    (image_of_update (accounts_of_reachable reached) placed taken member fresh writes).trans
      (imageUrl_eq reached placed runs)
  rw [CarriesPick, LastNameFits, written]

end Runs

section Schedules

/-- The picture that is picked on the profile screen. -/
def portrait : UIImage := ⟨"portrait", true⟩

/-- Its download URL. -/
def portraitURL : URL anyText := ⟨"https://u1/2", by decide⟩

/-- The profile screen has loaded the documents of the user and loads them again while a
picture is picked, uploaded and located. -/
def picking : List (Event (app anyText) (firebase anyText)) :=
  signingUp "d1" ++ [.launch 1 .profile, .input 1 .viewWillAppear,
    .input 1 (.authState 0 (some registered)), .serve 0 .ok, .reply 0, .serve 0 .fail, .reply 0,
    .input 1 (.authState 0 (some registered)), .input 1 (.pick portrait),
    .serve 1 (.token portraitURL), .reply 1, .serve 1 .ok]

/-- The completed upload of a picture that was picked on screen 1. -/
def uploadedOne (handled : Past (app anyText) × Exchange (remote anyText)) : Bool :=
  match handled.1.entry.self, handled.1.entry.input, handled.2 with
  | 1, .pick _, ⟨.putData _ _, (uploaded : Bool)⟩ => uploaded
  | _, _, _ => false

/-- The lookup of a picked picture on screen 1 that has delivered the first URL. -/
def obtainedFirst (handled : Past (app anyText) × Exchange (remote anyText)) : Bool :=
  match handled.1.entry.self, handled.2 with
  | 1, ⟨.downloadURL _, (some url : Option (URL anyText))⟩ => url.string == profileURL.string
  | _, _ => false

/-- The profile screen 1 runs and names the first picture; a press of Update writes a
document; no pick has obtained the first URL. -/
def namesFirst (world : AccountWorld anyText) : Bool :=
  match (world.objects[1]? : Option (Instance (app anyText))) with
  | some ⟨1, .profile self⟩ =>
      !world.crashed 1 && self.imageUrl == some profileURL.string &&
        ((world.step (.input 1 .updateUserData)).any fun next =>
          next.pending.any fun pending => pending.past.entry.serial == world.clock &&
            match pending.request with
            | .setData .users _ _ _ => true
            | _ => false) &&
        (world.acknowledged.any fun newest => uploadedOne newest &&
          world.acknowledged.all fun other => !uploadedOne other ||
            decide (other.1.entry.serial ≤ newest.1.entry.serial)) &&
        world.acknowledged.all fun handled => !obtainedFirst handled
  | _ => false

/-- What an upload of a picked picture on screen 1 says. -/
theorem uploadedOne_iff {pick : Entry (app anyText)} {trail : List (Exchange (remote anyText))}
    {exchange : Exchange (remote anyText)} : uploadedOne (⟨pick, trail⟩, exchange) = true ↔
      pick.self = 1 ∧ (∃ image, pick.input = .pick image) ∧
        ∃ path data, exchange = ⟨.putData path data, true⟩ := by
  obtain ⟨serial, place, input, object⟩ := pick
  constructor
  · intro completed
    unfold uploadedOne at completed
    split at completed
    · rename_i mine picked uploads
      cases mine
      cases picked
      cases uploads
      cases completed
      exact ⟨rfl, ⟨_, rfl⟩, _, _, rfl⟩
    · cases completed
  · rintro ⟨mine, ⟨image, picked⟩, path, data, rfl⟩
    cases mine
    cases picked
    rfl

/-- The profile screen 1 shows the picture that was picked on it. -/
def showsPortrait (world : AccountWorld anyText) : Bool :=
  match (world.objects[1]? : Option (Instance (app anyText))) with
  | some ⟨1, .profile self⟩ =>
      !world.crashed 1 && self.profileImageView == some portrait && world.pending.isEmpty
  | _ => false

/-- The load is answered before the picked picture is located. -/
theorem picked_picture_kept_in_order :
    ∃ (world : AccountWorld anyText) (self : ProfileViewController),
      world.objects[1]? = some ⟨1, .profile self⟩ ∧ self.profileImageView = some portrait ∧
      (∀ next pending uid fields merge,
        world.step (.input 1 .updateUserData) = some next → pending ∈ next.pending →
        pending.past.entry.serial = world.clock →
        pending.request = .setData .users uid fields merge →
        (CarriesPick world 1 fields ↔ LastNameFits world 1)) ∧
      (ShowsNamed world.server self ↔ LastPictureFits world 1) := by
  obtain ⟨world, reached, shown⟩ := Machine.exists_reaches (m := system anyText)
    (system anyText).anyStep (start anyText)
    (picking ++ [.serve 0 .ok, .reply 0, .reply 0, .serve 0 .fail, .reply 0])
    showsPortrait (by decide +kernel)
  unfold showsPortrait at shown
  split at shown
  · rename_i self placed
    simp only [Bool.and_eq_true, Bool.not_eq_true', beq_iff_eq] at shown
    obtain ⟨⟨runs, image⟩, -⟩ := shown
    exact ⟨world, self, placed, image, picked_picture_kept reached placed runs⟩
  · cases shown

/-- A load that is answered after a picked picture was located takes its URL away. -/
theorem update_loses_picked_picture :
    ¬ ∀ (rules : URLRules) (world : AccountWorld rules) (index process : Nat)
        (self : ProfileViewController),
      (system rules).Reaches (system rules).anyStep (start rules) world →
      world.objects[index]? = some ⟨process, .profile self⟩ → world.crashed process = false →
      (∀ next pending uid fields merge,
        world.step (.input index .updateUserData) = some next → pending ∈ next.pending →
        pending.past.entry.serial = world.clock →
        pending.request = .setData .users uid fields merge → CarriesPick world index fields) ∧
      (world.pending = [] → ShowsNamed world.server self) := by
  intro kept
  obtain ⟨world, reached, named⟩ := Machine.exists_reaches (m := system anyText)
    (system anyText).anyStep (start anyText) (picking ++ [.reply 1, .serve 0 .ok, .reply 0])
    namesFirst (by decide +kernel)
  unfold namesFirst at named
  split at named
  · rename_i self placed
    simp only [Bool.and_eq_true, Bool.not_eq_true', beq_iff_eq] at named
    obtain ⟨⟨⟨⟨runs, first⟩, pressed⟩, picked⟩, others⟩ := named
    obtain ⟨next, taken, written⟩ := (Option.any_eq_true _ _).mp pressed
    obtain ⟨pending, member, fresh⟩ := List.any_eq_true.mp written
    obtain ⟨fresh, isSet⟩ := Bool.and_eq_true_iff.mp fresh
    obtain ⟨⟨⟨pick, trail⟩, exchange⟩, done, latest⟩ := List.any_eq_true.mp picked
    obtain ⟨uploaded, latest⟩ := Bool.and_eq_true_iff.mp latest
    obtain ⟨mine, isPick, path, data, rfl⟩ := uploadedOne_iff.mp uploaded
    have recent : MostRecent world 1 pick := by
      refine ⟨⟨mine, isPick, trail, path, data, done⟩, fun other completed => ?_⟩
      obtain ⟨trail', path', data', done'⟩ := completed.completed
      have bounded := List.all_eq_true.mp latest _ done'
      rw [uploadedOne_iff.mpr ⟨completed.screen, completed.picked, _, _, rfl⟩] at bounded
      simpa using bounded
    have carries := (kept _ world 1 1 self reached placed runs).1
    split at isSet
    · rename_i uid fields merge request
      have fresh := beq_iff_eq.mp fresh
      obtain ⟨url, ⟨trail', path', obtained⟩, same⟩ :=
        carries next pending uid fields merge taken member fresh request pick recent
      rw [image_of_update (accounts_of_reachable reached) placed taken member fresh request,
        first] at same
      have other := List.all_eq_true.mp others _ obtained
      simp [obtainedFirst, mine, ← Option.some.inj same] at other
    · cases isSet
  · cases named

end Schedules

end Gbc.Account
