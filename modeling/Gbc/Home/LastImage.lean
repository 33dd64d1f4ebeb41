import Gbc.Home.ImageView

/-!
# The last requested image

A view whose `loadImageUsingUrlString` is called again may still have assignments of
earlier loads under way: on the main queue, or in completion handlers that `cancel` came
too late for. They run after the call. What a view shows once nothing is outstanding
follows from the images that were under way at its last call.
-/

namespace Gbc.Images

variable {rules : URLRules}

/-- The image that a task has delivered. -/
def DataTask.newImage (task : DataTask rules) : Option UIImage :=
  match task.progress with
  | .completed data => data.bind UIImage.ofData
  | _ => none

/-- The assignments to a view that are under way, by their images; the first one to run
is the first. -/
def underWay (self : Nat) (process : Process rules) : List UIImage :=
  (process.mainQueue.filterMap fun block =>
    if block.view = self then some block.newImage else none) ++
  process.delegateQueue.filterMap fun handler =>
    if handler.view = self then handler.newImage else none

/-- A call of `loadImageUsingUrlString`: what the cache held for its URL, and what was
under way to the view. Without a hit, `task` is the number of the task it started. -/
structure Call (rules : URLRules) where
  url : URL rules
  found : Option UIImage
  underWay : List UIImage
  task : Nat

/-- The image that the task of a call has delivered. -/
def Call.delivered (call : Call rules) (process : Process rules) : Option UIImage :=
  if call.found.isSome then none else process.tasks[call.task]?.bind DataTask.newImage

/-- The image of the requested URL: from the cache or from the task, or none if the load
failed. -/
def Call.requested (call : Call rules) (process : Process rules) : Option UIImage :=
  call.found.or (call.delivered process)

/-- Remember the last call on each view. -/
def noteCall (process : Process rules) (event : Event rules)
    (calls : Nat → Option (Call rules)) : Nat → Option (Call rules) :=
  match event with
  | .loadImageUsingUrlString self url =>
      Function.update calls self
        (some ⟨url, process.imageCache url.string, underWay self process, process.tasks.length⟩)
  | _ => calls

/-- The image views and the last call on each. -/
abbrev calling (rules : URLRules) : Machine := (system rules).noting noteCall

/-- No view has been created. -/
def uncalled (rules : URLRules) : (calling rules).State := (.launched rules, fun _ => none)

/-- The completion handler of the task has been put on the delegate queue. -/
def Progress.isCompleted : Progress → Bool
  | .completed _ => true
  | _ => false

/-- No task of a view and no assignment to it is outstanding. -/
structure Settled (place : Nat) (process : Process rules) : Prop where
  tasks : ∀ task ∈ process.tasks, task.view = place → task.progress.isCompleted = true
  handlers : ∀ handler ∈ process.delegateQueue, handler.view ≠ place
  blocks : ∀ block ∈ process.mainQueue, block.view ≠ place

instance (place : Nat) (process : Process rules) : Decidable (Settled place process) :=
  decidable_of_iff
    ((∀ task ∈ process.tasks, task.view = place → task.progress.isCompleted = true) ∧
      (∀ handler ∈ process.delegateQueue, handler.view ≠ place) ∧
      ∀ block ∈ process.mainQueue, block.view ≠ place)
    ⟨fun ⟨tasks, handlers, blocks⟩ => ⟨tasks, handlers, blocks⟩,
      fun ⟨tasks, handlers, blocks⟩ => ⟨tasks, handlers, blocks⟩⟩

/-- A task has delivered this image for a URL with this string. -/
def Loaded (process : Process rules) (key : String) (image : UIImage) : Prop :=
  ∃ task ∈ process.tasks, task.url.string = key ∧ task.newImage = some image

/-- The view shows the image of the URL of a call. -/
structure ShowsRequested (process : Process rules) (view : CustomImageView)
    (call : Call rules) : Prop where
  shown : view.image = call.requested process
  loaded : ∀ image, view.image = some image → Loaded process call.url.string image

section Tracking

variable {process later : Process rules} {self : Nat} {view : CustomImageView}
  {call : Call rules}

/-- What has happened to a view since its last call. The assignments under way at the
call and the one of its task run in this order, and the last one that has run is shown. -/
structure Tracked (process : Process rules) (place : Nat) (view : CustomImageView)
    (call : Call rules) : Prop where
  order : ∃ ran, call.underWay ++ (call.delivered process).toList = ran ++ underWay place process ∧
    view.image = ran.getLast?.or call.found
  own : call.found = none → view.task = some call.task ∧
    ∃ task, process.tasks[call.task]? = some task ∧ task.view = place ∧ task.url = call.url
  idle : call.found.isSome = true → ∀ task ∈ process.tasks, task.view = place →
    task.progress ≠ .running
  found : ∀ image, call.found = some image → Loaded process call.url.string image

/-- A settled view shows the last image that was under way, or else what its call left. -/
theorem Tracked.image_of_settled (tracked : Tracked process self view call)
    (settled : Settled self process) :
    view.image = (call.underWay ++ (call.delivered process).toList).getLast?.or call.found := by
  have none : underWay self process = [] := by
    unfold underWay
    rw [List.append_eq_nil_iff, List.filterMap_eq_nil_iff, List.filterMap_eq_nil_iff]
    constructor
    · intro block member
      rw [if_neg (settled.blocks block member)]
    · intro handler member
      rw [if_neg (settled.handlers handler member)]
  obtain ⟨ran, order, image⟩ := tracked.order
  rw [none, List.append_nil] at order
  rw [order]
  exact image

/-- Where the last assignment comes from decides what a settled view shows. -/
theorem requested_iff :
    (call.underWay ++ (call.delivered process).toList).getLast?.or call.found =
      call.requested process ↔
    (call.delivered process).isSome = true ∨
      ∀ image ∈ call.underWay.getLast?, call.found = some image := by
  unfold Call.requested
  cases delivered : call.delivered process with
  | some image =>
      have missed : call.found = none := by
        unfold Call.delivered at delivered
        split at delivered
        · cases delivered
        · rename_i missed
          exact Option.not_isSome_iff_eq_none.mp missed
      simp [missed]
  | none =>
      simp only [Option.toList_none, List.append_nil, Option.or_none, Option.isSome_none,
        Bool.false_eq_true, false_or]
      cases last : call.underWay.getLast? with
      | none => simp
      | some image =>
          simp only [Option.some_or, Option.mem_def, Option.some.injEq, forall_eq']
          exact eq_comm

/-- The tasks are still there later, and have delivered at least what they had. -/
def Extends (process later : Process rules) : Prop :=
  ∀ (index : Nat) (task : DataTask rules), process.tasks[index]? = some task →
    ∃ after, later.tasks[index]? = some after ∧ after.view = task.view ∧ after.url = task.url ∧
      ∀ image, task.newImage = some image → after.newImage = some image

theorem Extends.of_tasks (tasks : later.tasks = process.tasks) : Extends process later :=
  fun _ task found => ⟨task, tasks ▸ found, rfl, rfl, fun _ => id⟩

theorem Loaded.mono {key : String} {image : UIImage} (loaded : Loaded process key image)
    (kept : Extends process later) : Loaded later key image := by
  obtain ⟨task, member, url, delivered⟩ := loaded
  obtain ⟨index, found⟩ := List.mem_iff_getElem?.mp member
  obtain ⟨after, still, -, same, more⟩ := kept index task found
  exact ⟨after, List.mem_of_getElem? still, same ▸ url, more image delivered⟩

theorem delivered_of_tasks (tasks : later.tasks = process.tasks) :
    call.delivered later = call.delivered process := by
  unfold Call.delivered
  rw [tasks]

/-- A step that leaves the tasks and the assignments under way leaves a view tracked. -/
theorem Tracked.keep (tracked : Tracked process self view call)
    (tasks : later.tasks = process.tasks) (same : underWay self later = underWay self process) :
    Tracked later self view call where
  order := by
    rw [delivered_of_tasks tasks, same]
    exact tracked.order
  own := by
    rw [tasks]
    exact tracked.own
  idle := by
    rw [tasks]
    exact tracked.idle
  found image shown := (tracked.found image shown).mono (.of_tasks tasks)

section Steps

variable {handler : CompletionHandler rules} {others : List (CompletionHandler rules)}
  {block : Assignment} {blocks : List Assignment} {task : DataTask rules} {index : Nat}
  {data : Option Data} {url : URL rules}

/-- A completion handler moves its assignment from one queue to the other, behind all that
were dispatched before. -/
theorem underWay_handle (self : Nat) (listed : process.delegateQueue = handler :: others) :
    underWay self (process.handle handler others) = underWay self process := by
  unfold Process.handle
  cases ends : handler.newImage with
  | none => simp [underWay, listed, ends]
  | some newImage =>
      cases stored : handler.stored with
      | true =>
          by_cases here : handler.view = self <;>
            simp [underWay, listed, ends, here, List.filterMap_append]
      | false =>
          simp only [underWay, listed, Bool.false_eq_true, if_false]
          rfl

/-- The first assignment on the main queue is the first under way to its view. -/
theorem underWay_assign (listed : process.mainQueue = block :: blocks) :
    underWay self process =
      (if block.view = self then [block.newImage] else []) ++
        underWay self { process with mainQueue := blocks } := by
  unfold underWay
  rw [listed, List.filterMap_cons]
  by_cases here : block.view = self
  · simp [here]
  · simp [here]

/-- The image of a task that completes is the last under way to its view. -/
theorem underWay_complete :
    underWay self (process.complete index task data) = underWay self process ++
      if task.view = self then (data.bind UIImage.ofData).toList else [] := by
  unfold underWay Process.complete
  rw [List.filterMap_append, List.append_assoc]
  congr 2
  by_cases here : task.view = self
  · cases shown : data.bind UIImage.ofData <;>
      simp [here, CompletionHandler.newImage, shown]
  · simp [here]

/-- A view whose load is called again: what `loadImageUsingUrlString` does to it and to the
tasks. -/
structure Requested (process later : Process rules) (place : Nat) (view : CustomImageView)
    (url : URL rules) : Prop where
  shown : later.views[place]? = some
    ⟨process.imageCache url.string,
      if (process.imageCache url.string).isSome then view.task else some process.tasks.length⟩
  others : ∀ other, other ≠ place → later.views[other]? = process.views[other]?
  tasks : later.tasks = (process.cancel view.task).tasks ++
    if (process.imageCache url.string).isSome then [] else [⟨place, url, .running⟩]
  delegateQueue : later.delegateQueue = process.delegateQueue
  mainQueue : later.mainQueue = process.mainQueue
  imageCache : later.imageCache = process.imageCache

@[simp] theorem length_cancel (number : Option Nat) :
    (process.cancel number).tasks.length = process.tasks.length := by
  cases number <;> simp [Process.cancel]

theorem requested_load (url : URL rules) (placed : process.views[self]? = some view) :
    Requested process (process.loadImageUsingUrlString self view url) self view url := by
  have cleared : (process.setView self fun view => { view with image := none }).cancel view.task =
      { process with
        views := process.views.modify self fun view => { view with image := none }
        tasks := (process.cancel view.task).tasks } := by
    cases view.task <;> rfl
  unfold Process.loadImageUsingUrlString
  rw [cleared]
  cases hit : process.imageCache url.string with
  | some image =>
      simp only [hit]
      constructor
      · simp [Process.setView, placed, hit]
      · intro other elsewhere
        simp [Process.setView, Ne.symm elsewhere]
      · simp [Process.setView, hit]
      all_goals rfl
  | none =>
      simp only [hit]
      constructor
      · simp [Process.setView, Process.dataTask, placed, hit]
      · intro other elsewhere
        simp [Process.setView, Process.dataTask, Ne.symm elsewhere]
      · simp [Process.setView, Process.dataTask, hit]
      all_goals rfl

@[simp] theorem newImage_cancel (task : DataTask rules) :
    ({ task with progress := task.progress.cancel } : DataTask rules).newImage =
      task.newImage := by
  obtain ⟨view, url, progress⟩ := task
  cases progress <;> rfl

theorem getElem?_cancel (process : Process rules) (number : Option Nat) (index : Nat) :
    (process.cancel number).tasks[index]? = process.tasks[index]?.map fun task =>
      if number = some index then { task with progress := task.progress.cancel } else task := by
  cases number with
  | none => simp [Process.cancel]
  | some other =>
      simp only [Process.cancel, List.getElem?_modify, Option.some.injEq]
      split <;> simp_all

namespace Requested

/-- A task that was there before is cancelled at most. -/
theorem older (requested : Requested process later self view url)
    (found : process.tasks[index]? = some task) :
    later.tasks[index]? = some (if view.task = some index then
      { task with progress := task.progress.cancel } else task) := by
  have cancelled := getElem?_cancel process view.task index
  rw [found, Option.map_some] at cancelled
  rw [requested.tasks, List.getElem?_append_left (List.getElem?_eq_some_iff.mp cancelled).1]
  exact cancelled

theorem extended (requested : Requested process later self view url) :
    Extends process later := by
  intro index task found
  refine ⟨_, requested.older found, ?_⟩
  split
  · exact ⟨rfl, rfl, fun image => by rw [newImage_cancel]; exact id⟩
  · exact ⟨rfl, rfl, fun image => id⟩

/-- The running tasks: not the one that the view remembered, and the new one, if any. -/
theorem running (requested : Requested process later self view url)
    (found : later.tasks[index]? = some task) (runs : task.progress = .running) :
    (process.tasks[index]? = some task ∧ view.task ≠ some index) ∨
      (process.imageCache url.string = none ∧ index = process.tasks.length ∧
        task = ⟨self, url, .running⟩) := by
  cases before : process.tasks[index]? with
  | some task' =>
      obtain rfl := Option.some.inj (found.symm.trans (requested.older before))
      split at runs
      · obtain ⟨view', url', progress⟩ := task'
        cases progress <;> cases runs
      · rename_i kept
        rw [if_neg kept]
        exact .inl ⟨rfl, kept⟩
  | none =>
      have beyond := List.getElem?_eq_none_iff.mp before
      rw [requested.tasks, List.getElem?_append_right (by rw [length_cancel]; exact beyond),
        length_cancel] at found
      split at found
      · cases found
      · rename_i missed
        have first : index - process.tasks.length = 0 := by
          by_contra further
          rw [List.getElem?_eq_none (by simp; omega)] at found
          cases found
        rw [first] at found
        exact .inr ⟨Option.not_isSome_iff_eq_none.mp missed, by omega,
          (Option.some.inj found).symm⟩

/-- Without a hit a new task runs. -/
theorem started (requested : Requested process later self view url)
    (missed : process.imageCache url.string = none) :
    later.tasks[process.tasks.length]? = some ⟨self, url, .running⟩ := by
  rw [requested.tasks, List.getElem?_append_right (by simp)]
  simp [missed]

theorem underWay_eq (requested : Requested process later self view url) (other : Nat) :
    underWay other later = underWay other process := by
  unfold underWay
  rw [requested.mainQueue, requested.delegateQueue]

end Requested

/-- After a call the cached image is shown, or none, and all that is under way is older. -/
theorem Requested.tracked (requested : Requested process later self view url)
    (remembered : ∀ (index : Nat) (task : DataTask rules), process.tasks[index]? = some task →
      task.view = self → task.progress = .running → view.task = some index)
    (cached : ∀ image, process.imageCache url.string = some image →
      Loaded process url.string image) :
    Tracked later self
      ⟨process.imageCache url.string, if (process.imageCache url.string).isSome then view.task
        else some process.tasks.length⟩
      ⟨url, process.imageCache url.string, underWay self process, process.tasks.length⟩ where
  order := by
    refine ⟨[], ?_, rfl⟩
    rw [List.nil_append, requested.underWay_eq]
    unfold Call.delivered
    cases hit : process.imageCache url.string with
    | some image => simp
    | none =>
        simp [requested.started hit, DataTask.newImage]
  own missed := by
    have missed : process.imageCache url.string = none := missed
    exact ⟨by simp [missed], ⟨self, url, .running⟩, requested.started missed, rfl, rfl⟩
  idle hit task member own runs := by
    obtain ⟨index, found⟩ := List.mem_iff_getElem?.mp member
    rcases requested.running found runs with ⟨before, forgotten⟩ | ⟨missed, -, -⟩
    · exact forgotten (remembered index task before own runs)
    · simp [missed] at hit
  found image hit := (cached image hit).mono requested.extended

/-- A call leaves the other views tracked. -/
theorem Requested.other {other : Nat} {shown : CustomImageView}
    (requested : Requested process later self view url) (elsewhere : other ≠ self)
    (tracked : Tracked process other shown call) : Tracked later other shown call where
  order := by
    have same : call.delivered later = call.delivered process := by
      unfold Call.delivered
      split
      · rfl
      · rename_i missed
        obtain ⟨-, task, found, -⟩ := tracked.own (Option.not_isSome_iff_eq_none.mp missed)
        rw [requested.older found, found, Option.bind_some, Option.bind_some]
        split
        · exact newImage_cancel task
        · rfl
    rw [same, requested.underWay_eq]
    exact tracked.order
  own missed := by
    obtain ⟨remembered, task, found, own, asked⟩ := tracked.own missed
    obtain ⟨after, still, view, url, -⟩ := requested.extended _ task found
    exact ⟨remembered, after, still, view.trans own, url.trans asked⟩
  idle hit task member own runs := by
    obtain ⟨index, found⟩ := List.mem_iff_getElem?.mp member
    rcases requested.running found runs with ⟨before, -⟩ | ⟨-, -, rfl⟩
    · exact tracked.idle hit task (List.mem_of_getElem? before) own runs
    · exact elsewhere own.symm
  found image hit := (tracked.found image hit).mono requested.extended

theorem getElem?_complete (data : Option Data) (found : process.tasks[index]? = some task)
    (other : Nat) :
    (process.complete index task data).tasks[other]? =
      if index = other then some { task with progress := .completed data }
      else process.tasks[other]? := by
  have bound := (List.getElem?_eq_some_iff.mp found).1
  by_cases here : index = other
  · subst here
    simp [Process.complete, bound]
  · simp [Process.complete, here]

/-- A task that completes had delivered nothing. -/
theorem newImage_of_completes (completes : task.progress.completes data = true) :
    task.newImage = none := by
  obtain ⟨view, url, progress⟩ := task
  cases progress with
  | completed data => cases completes
  | _ => rfl

/-- A task that completes was running, or it delivers nothing. -/
theorem running_or_none (completes : task.progress.completes data = true) :
    task.progress = .running ∨ data = none := by
  cases progress : task.progress with
  | running => exact .inl rfl
  | canceling =>
      rw [progress] at completes
      exact .inr (Option.isNone_iff_eq_none.mp completes)
  | completed data =>
      rw [progress] at completes
      cases completes

theorem extends_complete (found : process.tasks[index]? = some task)
    (completes : task.progress.completes data = true) :
    Extends process (process.complete index task data) := by
  intro other before present
  rw [getElem?_complete data found]
  by_cases here : index = other
  · subst here
    obtain rfl := Option.some.inj (found.symm.trans present)
    refine ⟨_, if_pos rfl, rfl, rfl, fun image delivered => ?_⟩
    rw [newImage_of_completes completes] at delivered
    cases delivered
  · exact ⟨before, (if_neg here).trans present, rfl, rfl, fun image => id⟩

/-- What a call has been delivered after a task has completed. -/
theorem delivered_complete (found : process.tasks[index]? = some task)
    (missed : call.found = none) :
    call.delivered (process.complete index task data) =
      if index = call.task then data.bind UIImage.ofData else call.delivered process := by
  unfold Call.delivered
  rw [getElem?_complete data found]
  by_cases own : index = call.task
  · simp [own, missed, DataTask.newImage]
  · simp [own]

/-- A task that completes delivers its image to the last call on its view, or it was
cancelled and delivers none. -/
theorem Tracked.complete (tracked : Tracked process self view call)
    (found : process.tasks[index]? = some task)
    (completes : task.progress.completes data = true)
    (remembered : task.progress = .running → task.view = self → view.task = some index) :
    Tracked (process.complete index task data) self view call where
  order := by
    obtain ⟨ran, order, image⟩ := tracked.order
    refine ⟨ran, ?_, image⟩
    rw [underWay_complete, ← List.append_assoc, ← order, List.append_assoc]
    congr 1
    cases missed : call.found with
    | some cached =>
        have none : ∀ state, call.delivered state = none := fun state => by
          simp [Call.delivered, missed]
        rw [none, none]
        split
        · rename_i own
          rcases running_or_none completes with runs | rfl
          · exact absurd runs
              (tracked.idle (by simp [missed]) task (List.mem_of_getElem? found) own)
          · rfl
        · rfl
    | none =>
        obtain ⟨current, started, present, own, -⟩ := tracked.own missed
        rw [delivered_complete found missed]
        by_cases same : index = call.task
        · subst same
          obtain rfl := Option.some.inj (found.symm.trans present)
          have before : call.delivered process = none := by
            simp [Call.delivered, missed, found, newImage_of_completes completes]
          simp [before, own]
        · rw [if_neg same]
          split
          · rename_i viewed
            rcases running_or_none completes with runs | rfl
            · have now := remembered runs viewed
              rw [current] at now
              exact absurd (Option.some.inj now).symm same
            · simp
          · simp
  own missed := by
    obtain ⟨current, started, present, own, asked⟩ := tracked.own missed
    obtain ⟨after, still, view, url, -⟩ := extends_complete found completes _ started present
    exact ⟨current, after, still, view.trans own, url.trans asked⟩
  idle hit other member own runs := by
    obtain ⟨place, present⟩ := List.mem_iff_getElem?.mp member
    rw [getElem?_complete data found] at present
    split at present
    · obtain rfl := Option.some.inj present
      cases runs
    · exact tracked.idle hit other (List.mem_of_getElem? present) own runs
  found image hit := (tracked.found image hit).mono (extends_complete found completes)

/-- The first block on the main queue shows its image. -/
theorem Tracked.assign (tracked : Tracked process self view call)
    (listed : process.mainQueue = block :: blocks) :
    Tracked (({ process with mainQueue := blocks } : Process rules).setView block.view
      fun view => { view with image := some block.newImage }) self
      (if block.view = self then { view with image := some block.newImage } else view) call where
  order := by
    obtain ⟨ran, order, image⟩ := tracked.order
    rw [underWay_assign listed] at order
    by_cases here : block.view = self
    · refine ⟨ran ++ [block.newImage], ?_, by simp [here]⟩
      rw [if_pos here] at order
      rw [List.append_assoc]
      exact order
    · rw [if_neg here, List.nil_append] at order
      rw [if_neg here]
      exact ⟨ran, order, image⟩
  own missed := by
    obtain ⟨current, started⟩ := tracked.own missed
    refine ⟨?_, started⟩
    split <;> exact current
  idle := tracked.idle
  found := tracked.found

end Steps

end Tracking

section Runs

variable {state next : (calling rules).State} {event : Event rules}

/-- Every running task is the one that its view remembers, images come from tasks for their
URLs, and every view that has been called is tracked. -/
structure Valid (state : (calling rules).State) : Prop where
  running : ∀ (index : Nat) (task : DataTask rules), state.1.tasks[index]? = some task →
    task.progress = .running →
    ∃ view, state.1.views[task.view]? = some view ∧ view.task = some index
  handlers : ∀ handler ∈ state.1.delegateQueue, ∀ image, handler.newImage = some image →
    Loaded state.1 handler.url.string image
  cached : ∀ key image, state.1.imageCache key = some image → Loaded state.1 key image
  calls : ∀ self call, state.2 self = some call →
    ∃ view, state.1.views[self]? = some view ∧ Tracked state.1 self view call

theorem valid_uncalled : Valid (uncalled rules) where
  running _ _ found := by simp [uncalled, Process.launched] at found
  handlers _ member := by simp [uncalled, Process.launched] at member
  cached _ _ found := by simp [uncalled, Process.launched] at found
  calls _ _ noted := by simp [uncalled] at noted

/-- A step that touches neither the tasks nor what is under way. -/
theorem Valid.keep {process : Process rules} (valid : Valid state)
    (tasks : process.tasks = state.1.tasks)
    (views : ∀ (index : Nat) (view : CustomImageView), state.1.views[index]? = some view →
      process.views[index]? = some view)
    (same : ∀ self, underWay self process = underWay self state.1)
    (handlers : ∀ handler ∈ process.delegateQueue, ∀ image, handler.newImage = some image →
      Loaded state.1 handler.url.string image)
    (cached : ∀ key image, process.imageCache key = some image → Loaded state.1 key image) :
    Valid (process, state.2) where
  running index task found runs := by
    obtain ⟨view, placed, remembers⟩ := valid.running index task (tasks ▸ found) runs
    exact ⟨view, views _ view placed, remembers⟩
  handlers handler member image ends := (handlers handler member image ends).mono (.of_tasks tasks)
  cached key image hit := (cached key image hit).mono (.of_tasks tasks)
  calls self call noted := by
    obtain ⟨view, placed, tracked⟩ := valid.calls self call noted
    exact ⟨view, views self view placed, tracked.keep tasks (same self)⟩

theorem Valid.create (valid : Valid state) (image : Option UIImage) :
    Valid ({ state.1 with views := state.1.views ++ [⟨image, none⟩] }, state.2) := by
  refine valid.keep rfl ?_ (fun _ => rfl) valid.handlers valid.cached
  intro index view placed
  rw [List.getElem?_append_left (List.getElem?_eq_some_iff.mp placed).1]
  exact placed

theorem Valid.load {self : Nat} {view : CustomImageView} {url : URL rules} (valid : Valid state)
    (placed : state.1.views[self]? = some view) :
    Valid (state.1.loadImageUsingUrlString self view url,
      noteCall state.1 (.loadImageUsingUrlString self url) state.2) := by
  have requested := requested_load url placed
  refine ⟨fun index task found runs => ?_, fun handler member image ends => ?_,
    fun key image hit => ?_, fun other call noted => ?_⟩
  · rcases requested.running found runs with ⟨before, forgotten⟩ | ⟨missed, rfl, rfl⟩
    · obtain ⟨shown, present, remembers⟩ := valid.running index task before runs
      by_cases own : task.view = self
      · rw [own, placed] at present
        obtain rfl := Option.some.inj present
        exact absurd remembers forgotten
      · exact ⟨shown, (requested.others _ own).trans present, remembers⟩
    · exact ⟨_, requested.shown, by simp [missed]⟩
  · have member : handler ∈ state.1.delegateQueue := requested.delegateQueue ▸ member
    exact (valid.handlers handler member image ends).mono requested.extended
  · have hit : state.1.imageCache key = some image := requested.imageCache ▸ hit
    exact (valid.cached key image hit).mono requested.extended
  · by_cases own : other = self
    · subst own
      simp only [noteCall, Function.update_self, Option.some.injEq] at noted
      subst noted
      refine ⟨_, requested.shown, requested.tracked ?_ (valid.cached url.string)⟩
      intro index task found viewed runs
      obtain ⟨shown, present, remembers⟩ := valid.running index task found runs
      rw [viewed, placed] at present
      obtain rfl := Option.some.inj present
      exact remembers
    · simp only [noteCall, Function.update_of_ne own] at noted
      obtain ⟨shown, present, tracked⟩ := valid.calls other call noted
      exact ⟨shown, (requested.others other own).trans present, requested.other own tracked⟩

theorem Valid.complete {index : Nat} {task : DataTask rules} {data : Option Data}
    (valid : Valid state) (found : state.1.tasks[index]? = some task)
    (completes : task.progress.completes data = true) :
    Valid (state.1.complete index task data, state.2) := by
  have kept := extends_complete found completes
  refine ⟨fun other running present runs => ?_, fun handler member image ends => ?_,
    fun key image hit => ?_, fun self call noted => ?_⟩
  · rw [getElem?_complete data found] at present
    split at present
    · obtain rfl := Option.some.inj present
      cases runs
    · exact valid.running other running present runs
  · rcases List.mem_append.mp member with older | added
    · exact (valid.handlers handler older image ends).mono kept
    · obtain rfl := List.mem_singleton.mp added
      have present := (getElem?_complete data found index).trans (if_pos rfl)
      exact ⟨_, List.mem_of_getElem? present, rfl, ends⟩
  · exact (valid.cached key image hit).mono kept
  · obtain ⟨view, placed, tracked⟩ := valid.calls self call noted
    refine ⟨view, placed, tracked.complete found completes fun runs own => ?_⟩
    obtain ⟨shown, present, remembers⟩ := valid.running index task found runs
    rw [own, placed] at present
    obtain rfl := Option.some.inj present
    exact remembers

theorem Valid.handle {handler : CompletionHandler rules} {others : List (CompletionHandler rules)}
    (valid : Valid state) (listed : state.1.delegateQueue = handler :: others) :
    Valid (state.1.handle handler others, state.2) := by
  have later : ∀ other ∈ others, ∀ image, other.newImage = some image →
      Loaded state.1 other.url.string image := fun other member =>
    valid.handlers other (listed ▸ List.mem_cons_of_mem _ member)
  have first := valid.handlers handler (listed ▸ List.mem_cons_self)
  have same := fun self => underWay_handle self listed
  unfold Process.handle at same ⊢
  cases ends : handler.newImage with
  | none =>
      simp only [ends] at same ⊢
      exact valid.keep rfl (fun _ _ => id) same later valid.cached
  | some newImage =>
      simp only [ends] at same ⊢
      split
      · rename_i stored
        simp only [stored, if_true] at same
        exact valid.keep rfl (fun _ _ => id) same later valid.cached
      · rename_i stored
        simp only [stored, if_false, Bool.false_eq_true] at same
        refine valid.keep rfl (fun _ _ => id) same ?_ ?_
        · intro other member image delivered
          rcases List.mem_cons.mp member with rfl | older
          · exact first image delivered
          · exact later other older image delivered
        · intro key image hit
          have hit : Function.update state.1.imageCache handler.url.string (some newImage) key =
              some image := hit
          rw [Function.update_apply] at hit
          split at hit
          · rename_i here
            exact here ▸ first image (ends.trans hit)
          · exact valid.cached key image hit

theorem Valid.assign {block : Assignment} {blocks : List Assignment} (valid : Valid state)
    (listed : state.1.mainQueue = block :: blocks) :
    Valid (({ state.1 with mainQueue := blocks } : Process rules).setView block.view
      fun view => { view with image := some block.newImage }, state.2) := by
  have shown : ∀ (index : Nat) (view : CustomImageView), state.1.views[index]? = some view →
      (state.1.views.modify block.view fun view =>
        { view with image := some block.newImage })[index]? =
          some (if block.view = index then { view with image := some block.newImage }
            else view) := by
    intro index view placed
    rw [List.getElem?_modify, placed]
    split <;> rfl
  refine ⟨fun index task found runs => ?_, valid.handlers, valid.cached,
    fun self call noted => ?_⟩
  · obtain ⟨view, placed, remembers⟩ := valid.running index task found runs
    refine ⟨_, shown _ view placed, ?_⟩
    split <;> exact remembers
  · obtain ⟨view, placed, tracked⟩ := valid.calls self call noted
    exact ⟨_, shown self view placed, tracked.assign listed⟩

theorem Valid.evict (valid : Valid state) (key : String) :
    Valid ({ state.1 with imageCache := Function.update state.1.imageCache key none },
      state.2) := by
  refine valid.keep rfl (fun _ _ => id) (fun _ => rfl) valid.handlers ?_
  intro other image hit
  have hit : Function.update state.1.imageCache key none other = some image := hit
  rw [Function.update_apply] at hit
  split at hit
  · cases hit
  · exact valid.cached other image hit

theorem Valid.step (valid : Valid state)
    (taken : (calling rules).step state event = some next) : Valid next := by
  obtain ⟨taken, noted⟩ := Machine.noting_step.mp taken
  obtain ⟨later, calls⟩ := next
  obtain rfl : noteCall state.1 event state.2 = calls := noted
  have taken : state.1.step event = some later := taken
  cases event with
  | create image =>
      cases taken
      exact valid.create image
  | loadImageUsingUrlString self url =>
      obtain ⟨view, placed, rfl⟩ := Option.map_eq_some_iff.mp taken
      exact valid.load placed
  | complete index data =>
      simp only [Process.step] at taken
      split at taken
      · rename_i task found
        split at taken
        · rename_i completes
          cases taken
          exact valid.complete found completes
        · cases taken
      · cases taken
  | handle =>
      simp only [Process.step] at taken
      split at taken
      · rename_i handler others listed
        cases taken
        exact valid.handle listed
      · cases taken
  | assign =>
      simp only [Process.step] at taken
      split at taken
      · rename_i block blocks listed
        cases taken
        exact valid.assign listed
      · cases taken
  | evict key =>
      cases taken
      exact valid.evict key

theorem valid_of_reaches
    (reached : (calling rules).Reaches (calling rules).anyStep (uncalled rules) state) :
    Valid state :=
  reached.invariant valid_uncalled fun valid _ taken => valid.step taken

/-- The image that a call was answered with was loaded for its URL. -/
theorem Tracked.loaded {process : Process rules} {self : Nat} {view : CustomImageView}
    {call : Call rules} {image : UIImage} (tracked : Tracked process self view call)
    (requested : call.requested process = some image) :
    Loaded process call.url.string image := by
  unfold Call.requested at requested
  cases found : call.found with
  | some cached =>
      rw [found, Option.some_or] at requested
      exact tracked.found image (found.trans requested)
  | none =>
      rw [found, Option.none_or] at requested
      obtain ⟨-, task, started, -, url⟩ := tracked.own found
      simp only [Call.delivered, found, Option.isSome_none, Bool.false_eq_true, if_false, started,
        Option.bind_some] at requested
      exact ⟨task, List.mem_of_getElem? started, by rw [url], requested⟩

/-- Once nothing of a view is outstanding, it shows the image of its last call exactly if
the task of the call delivered it, or nothing was under way at the call, or what was under
way ended with the image that the cache gave the call. -/
theorem shows_requested_iff {self : Nat} {view : CustomImageView} {call : Call rules}
    (reached : (calling rules).Reaches (calling rules).anyStep (uncalled rules) state)
    (placed : state.1.views[self]? = some view) (last : state.2 self = some call)
    (settled : Settled self state.1) :
    ShowsRequested state.1 view call ↔
      (call.delivered state.1).isSome = true ∨
        ∀ image ∈ call.underWay.getLast?, call.found = some image := by
  obtain ⟨shown, present, tracked⟩ := (valid_of_reaches reached).calls self call last
  obtain rfl := Option.some.inj (placed.symm.trans present)
  have image := tracked.image_of_settled settled
  rw [← requested_iff, ← image]
  constructor
  · exact fun shows => shows.shown
  · intro same
    exact ⟨same, fun image found => tracked.loaded (same.symm.trans found)⟩

end Runs

section Schedules

/-- The URLs and the images of two postings. -/
def firstURL : URL anyText := ⟨"https://market/1", by decide⟩

def secondURL : URL anyText := ⟨"https://market/2", by decide⟩

def firstImage : UIImage := ⟨"first", true⟩

def secondImage : UIImage := ⟨"second", true⟩

/-- A view is asked for the second image after the first one has been dispatched to it. -/
def overtaken : List (Event anyText) :=
  [.loadImageUsingUrlString 0 firstURL, .complete 1 (some ⟨some firstImage⟩), .handle, .handle,
    .loadImageUsingUrlString 0 secondURL]

/-- Another view has loaded an image before. -/
def cachedBefore (url : URL anyText) (image : UIImage) : List (Event anyText) :=
  [.create none, .create none, .loadImageUsingUrlString 1 url, .complete 0 (some ⟨some image⟩),
    .handle, .handle, .assign]

/-- View 0 is settled after a call, and this holds of it and the call. -/
def settledWith (check : Process anyText → CustomImageView → Call anyText → Bool)
    (state : (calling anyText).State) : Bool :=
  match state.1.views[0]?, state.2 0 with
  | some view, some call => decide (Settled 0 state.1) && check state.1 view call
  | _, _ => false

theorem exists_settledWith (check : Process anyText → CustomImageView → Call anyText → Bool)
    (events : List (Event anyText))
    (succeeds : ((calling anyText).runWhile (calling anyText).anyStep (uncalled anyText)
      events).any (settledWith check) = true) :
    ∃ state view call,
      (calling anyText).Reaches (calling anyText).anyStep (uncalled anyText) state ∧
        state.1.views[0]? = some view ∧ state.2 0 = some call ∧ Settled 0 state.1 ∧
        check state.1 view call = true := by
  obtain ⟨state, reached, checked⟩ := Machine.exists_reaches (m := calling anyText) _ _ events
    (settledWith check) succeeds
  unfold settledWith at checked
  split at checked
  · rename_i view call placed last
    rw [Bool.and_eq_true, decide_eq_true_eq] at checked
    exact ⟨state, view, call, reached, placed, last, checked⟩
  · cases checked

/-- The second image is loaded after the first one has been dispatched. -/
theorem shows_requested_iff_delivered :
    ∃ (state : (calling anyText).State) (view : CustomImageView) (call : Call anyText),
      (calling anyText).Reaches (calling anyText).anyStep (uncalled anyText) state ∧
        call.underWay = [firstImage] ∧ ShowsRequested state.1 view call := by
  obtain ⟨state, view, call, reached, placed, last, settled, checked⟩ := exists_settledWith
    (fun process _ call =>
      (call.delivered process).isSome && decide (call.underWay = [firstImage]))
    (cachedBefore firstURL firstImage ++ [.evict firstURL.string] ++ overtaken ++
      [.assign, .complete 2 (some ⟨some secondImage⟩), .handle, .handle, .assign])
    (by decide +kernel)
  rw [Bool.and_eq_true, decide_eq_true_eq] at checked
  exact ⟨state, view, call, reached, checked.2,
    (shows_requested_iff reached placed last settled).mpr (.inl checked.1)⟩

/-- The second image is in the cache and is shown at once; then the assignment of the first
one runs. -/
theorem shows_overtaken_image :
    ¬ ∀ (rules : URLRules) (state : (calling rules).State) (self : Nat)
      (view : CustomImageView) (call : Call rules),
      (calling rules).Reaches (calling rules).anyStep (uncalled rules) state →
      state.1.views[self]? = some view → state.2 self = some call → Settled self state.1 →
      ShowsRequested state.1 view call := by
  intro holds
  obtain ⟨state, view, call, reached, placed, last, settled, checked⟩ := exists_settledWith
    (fun process view call => decide (view.image = some firstImage) &&
      decide (call.requested process = some secondImage))
    (cachedBefore secondURL secondImage ++ overtaken ++ [.assign]) (by decide +kernel)
  rw [Bool.and_eq_true, decide_eq_true_eq, decide_eq_true_eq] at checked
  have shows := holds anyText state 0 view call reached placed last settled
  have same : some firstImage = some secondImage :=
    checked.1.symm.trans (shows.shown.trans checked.2)
  exact absurd same (by decide)

end Schedules

end Gbc.Images
