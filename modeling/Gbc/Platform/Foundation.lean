/-!
# URLs and images

`URL(string:)` is a partial function of which the program relies on two facts:
it rejects the empty string, and it accepts the text of every URL. The second is
carried by `URL` itself. Images are compared by what they show.
-/

namespace Gbc

/-- Which strings `URL(string:)` accepts. -/
structure URLRules where
  accepts : String → Bool
  rejects_empty : accepts "" = false

/-- A URL, by its absolute string. -/
structure URL (rules : URLRules) where
  string : String
  accepted : rules.accepts string = true
  deriving DecidableEq

/-- `URL(string:)`. -/
def URL.ofString (rules : URLRules) (string : String) : Option (URL rules) :=
  if accepted : rules.accepts string = true then some ⟨string, accepted⟩ else none

variable {rules : URLRules}

theorem URL.ofString_of_accepts {string : String} (accepted : rules.accepts string = true) :
    URL.ofString rules string = some ⟨string, accepted⟩ := by
  simp [URL.ofString, accepted]

@[simp] theorem URL.ofString_string (url : URL rules) :
    URL.ofString rules url.string = some url := URL.ofString_of_accepts url.accepted

/-- The rules under which every nonempty text is a URL. -/
def anyText : URLRules := ⟨fun text => text != "", rfl⟩

/-- Encoded picture data, by the picture it encodes. -/
structure ImageData where
  picture : String
  deriving DecidableEq

/-- A picture in memory, and whether it can be encoded. -/
structure UIImage where
  picture : String
  encodable : Bool
  deriving DecidableEq

/-- `jpegData(compressionQuality:)`. -/
def UIImage.jpegData (image : UIImage) : Option ImageData :=
  if image.encodable then some ⟨image.picture⟩ else none

/-- `pngData()`. -/
def UIImage.pngData (image : UIImage) : Option ImageData :=
  if image.encodable then some ⟨image.picture⟩ else none

/-- Why a handler stops the process. -/
inductive Fault where
  /-- The `Image` of a document is missing or no URL. -/
  | image
  /-- `Auth.auth().currentUser!`. -/
  | currentUser
  /-- `imageView.image!`. -/
  | imageView
  /-- `url!` of a failed download URL lookup. -/
  | downloadURL
  /-- An array index out of range. -/
  | index
  /-- `document("")`: the path has an odd number of segments. -/
  | documentPath
  /-- A field of a user's document is missing. -/
  | userData
  /-- `userId!`, `email!` or `imageUrl!` of the profile screen. -/
  | profile
  /-- `handle!` of the auth state listener. -/
  | listener
  /-- `urlToImage` or `url` of an article is no URL. -/
  | article
  /-- `user.profile.email` of a Google sign-in without a user or without a profile. -/
  | googleUser
  deriving DecidableEq

end Gbc
