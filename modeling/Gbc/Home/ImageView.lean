import Mathlib.Logic.Function.Basic
import Gbc.Platform.Foundation
import Gbc.Semantics.Machine

/-!
# The image view with a cache

`CustomImageView` and what it runs on: the data tasks of `URLSession.shared`, whose
completion handlers run one at a time on the delegate queue, the main queue, and the
`imageCache` that all views share. A completion handler runs beside the main thread, so
storing an image and dispatching its assignment are steps of their own.
-/

namespace Gbc

/-- The body of a response, by the image that it encodes. -/
structure Data where
  encoded : Option UIImage

/-- `UIImage(data:)`. -/
def UIImage.ofData (data : Data) : Option UIImage := data.encoded

/-- `CustomImageView`. -/
structure CustomImageView where
  image : Option UIImage
  /-- The task by its number among all tasks. -/
  task : Option Nat

namespace Images

/-- How far a data task is. -/
inductive Progress where
  | running
  | canceling
  /-- Its completion handler has been put on the delegate queue, with this body. -/
  | completed (data : Option Data)

/-- `cancel()` of a task. A completed task stays as it is. -/
def Progress.cancel : Progress → Progress
  | .running => .canceling
  | progress => progress

/-- Whether a task may complete in this way. A cancelled one delivers no data. -/
def Progress.completes : Progress → Option Data → Bool
  | .running, _ => true
  | .canceling, data => data.isNone
  | .completed _, _ => false

/-- A data task, with what its completion handler captures. -/
structure DataTask (rules : URLRules) where
  view : Nat
  url : URL rules
  progress : Progress

/-- A completion handler on the delegate queue. -/
structure CompletionHandler (rules : URLRules) where
  view : Nat
  url : URL rules
  data : Option Data
  /-- It has run as far as `imageCache.setObject`. -/
  stored : Bool

/-- `newImage` of a completion handler, if its `guard` passes. -/
def CompletionHandler.newImage {rules : URLRules} (handler : CompletionHandler rules) :
    Option UIImage :=
  handler.data.bind UIImage.ofData

/-- The block `self.image = newImage` on the main queue. -/
structure Assignment where
  view : Nat
  newImage : UIImage

/-- All image views of a process, the tasks and queues, and the cache. -/
structure Process (rules : URLRules) where
  views : List CustomImageView
  tasks : List (DataTask rules)
  delegateQueue : List (CompletionHandler rules)
  mainQueue : List Assignment
  imageCache : String → Option UIImage

/-- What may happen next. -/
inductive Event (rules : URLRules) where
  /-- A view is created, with the image that the storyboard gives it. -/
  | create (image : Option UIImage)
  | loadImageUsingUrlString (view : Nat) (url : URL rules)
  | complete (task : Nat) (data : Option Data)
  /-- The completion handler at the head of the delegate queue runs to its next effect. -/
  | handle
  /-- The block at the head of the main queue runs. -/
  | assign
  /-- The cache drops an entry. -/
  | evict (key : String)

namespace Process

variable {rules : URLRules}

/-- No view has been created. -/
def launched (rules : URLRules) : Process rules where
  views := []
  tasks := []
  delegateQueue := []
  mainQueue := []
  imageCache _ := none

variable (process : Process rules)

/-- Assign to the properties of a view. -/
def setView (view : Nat) (change : CustomImageView → CustomImageView) : Process rules :=
  { process with views := process.views.modify view change }

/-- `if let task = task { task.cancel() }`. -/
def cancel : Option Nat → Process rules
  | none => process
  | some task =>
      { process with
        tasks := process.tasks.modify task fun task =>
          { task with progress := task.progress.cancel } }

/-- `URLSession.shared.dataTask(with:)` and `resume()`. -/
def dataTask (view : Nat) (url : URL rules) : Process rules :=
  { process with tasks := process.tasks ++ [⟨view, url, .running⟩] }

def loadImageUsingUrlString (self : Nat) (view : CustomImageView) (url : URL rules) :
    Process rules :=
  let cleared := (process.setView self fun view => { view with image := none }).cancel view.task
  match cleared.imageCache url.string with
  | some imageFromCache =>
      cleared.setView self fun view => { view with image := some imageFromCache }
  | none =>
      (cleared.dataTask self url).setView self fun view =>
        { view with task := some cleared.tasks.length }

/-- A task completes: its handler is put on the delegate queue. -/
def complete (index : Nat) (task : DataTask rules) (data : Option Data) : Process rules :=
  { process with
    tasks := process.tasks.set index { task with progress := .completed data }
    delegateQueue := process.delegateQueue ++ [⟨task.view, task.url, data, false⟩] }

/-- The next effect of the completion handler before these others. -/
def handle (handler : CompletionHandler rules) (others : List (CompletionHandler rules)) :
    Process rules :=
  match handler.newImage with
  | none => { process with delegateQueue := others }
  | some newImage =>
      if handler.stored then
        { process with
          delegateQueue := others
          mainQueue := process.mainQueue ++ [⟨handler.view, newImage⟩] }
      else
        { process with
          delegateQueue := { handler with stored := true } :: others
          imageCache := Function.update process.imageCache handler.url.string (some newImage) }

/-- The effect of one event, if it can happen. -/
def step : Event rules → Option (Process rules)
  | .create image => some { process with views := process.views ++ [⟨image, none⟩] }
  | .loadImageUsingUrlString self url =>
      process.views[self]?.map fun view => process.loadImageUsingUrlString self view url
  | .complete index data =>
      match process.tasks[index]? with
      | some task =>
          if task.progress.completes data then some (process.complete index task data) else none
      | none => none
  | .handle =>
      match process.delegateQueue with
      | handler :: others => some (process.handle handler others)
      | [] => none
  | .assign =>
      match process.mainQueue with
      | block :: blocks =>
          some (({ process with mainQueue := blocks } : Process rules).setView block.view
            fun view => { view with image := some block.newImage })
      | [] => none
  | .evict key =>
      some { process with imageCache := Function.update process.imageCache key none }

end Process

/-- The image views as a machine. -/
abbrev system (rules : URLRules) : Machine where
  State := Process rules
  Event := Event rules
  step := Process.step

end Images

end Gbc
