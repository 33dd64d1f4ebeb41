import Mathlib
import Gbc.Home.LastImage

/-!
# Downloads

What holds of the image views at every moment, with loads, cancellations, completion
handlers and assignments in any order: where a shown image comes from, which downloads
still deliver data, and that all that is outstanding comes to an end.
-/

namespace Gbc.Images

variable {rules : URLRules}

/-- What a step can do. -/
inductive Stepped (process : Process rules) : Event rules → Process rules → Prop where
  | created (image : Option UIImage) :
      Stepped process (.create image)
        { process with views := process.views ++ [⟨image, none⟩] }
  | requested {self : Nat} {view : CustomImageView} (url : URL rules)
      (placed : process.views[self]? = some view) :
      Stepped process (.loadImageUsingUrlString self url)
        (process.loadImageUsingUrlString self view url)
  | completed {index : Nat} {task : DataTask rules} {data : Option Data}
      (found : process.tasks[index]? = some task)
      (completes : task.progress.completes data = true) :
      Stepped process (.complete index data) (process.complete index task data)
  | handled {handler : CompletionHandler rules} {others : List (CompletionHandler rules)}
      (listed : process.delegateQueue = handler :: others) :
      Stepped process .handle (process.handle handler others)
  | assigned {block : Assignment} {blocks : List Assignment}
      (listed : process.mainQueue = block :: blocks) :
      Stepped process .assign
        (({ process with mainQueue := blocks } : Process rules).setView block.view
          fun view => { view with image := some block.newImage })
  | evicted (key : String) :
      Stepped process (.evict key)
        { process with imageCache := Function.update process.imageCache key none }

theorem stepped_of_step {process later : Process rules} {event : Event rules}
    (taken : process.step event = some later) : Stepped process event later := by
  cases event with
  | create image =>
      cases taken
      exact .created image
  | loadImageUsingUrlString self url =>
      obtain ⟨view, placed, rfl⟩ := Option.map_eq_some_iff.mp taken
      exact .requested url placed
  | complete index data =>
      simp only [Process.step] at taken
      split at taken
      · rename_i task found
        obtain ⟨completes, same⟩ := Option.ite_none_right_eq_some.mp taken
        cases same
        exact .completed found completes
      · cases taken
  | handle =>
      simp only [Process.step] at taken
      split at taken
      · rename_i handler others listed
        cases taken
        exact .handled listed
      · cases taken
  | assign =>
      simp only [Process.step] at taken
      split at taken
      · rename_i block blocks listed
        cases taken
        exact .assigned listed
      · cases taken
  | evict key =>
      cases taken
      exact .evicted key

section Sources

/-- The images that the storyboard has given to the views, by view. -/
def created : List (Event rules) → List (Option UIImage)
  | [] => []
  | .create image :: events => created events ++ [image]
  | _ :: events => created events

/-- The view has been asked for the image of the URL. -/
def Asked (events : List (Event rules)) (self : Nat) (url : URL rules) : Prop :=
  .loadImageUsingUrlString self url ∈ events

/-- The image has been delivered for a URL that the view has been asked for. -/
def Provided (events : List (Event rules)) (process : Process rules) (self : Nat)
    (image : UIImage) : Prop :=
  ∃ url, Asked events self url ∧ Loaded process url.string image

/-- What a view may show. -/
inductive Shown (events : List (Event rules)) (process : Process rules) (self : Nat) :
    Option UIImage → Prop where
  | storyboard {image : Option UIImage} (given : (created events)[self]? = some image)
      (unasked : ∀ url, ¬ Asked events self url) : Shown events process self image
  | cleared {url : URL rules} (asked : Asked events self url) : Shown events process self none
  | loaded {image : UIImage} (provided : Provided events process self image) :
      Shown events process self (some image)

/-- All images come from tasks that were started for a view's own request. -/
structure Sourced (events : List (Event rules)) (process : Process rules) : Prop where
  created : (created events).length = process.views.length
  asked : ∀ self url, Asked events self url → self < process.views.length
  views : ∀ self view, process.views[self]? = some view → Shown events process self view.image
  tasks : ∀ task ∈ process.tasks, Asked events task.view task.url
  handlers : ∀ handler ∈ process.delegateQueue, Asked events handler.view handler.url ∧
    ∀ image, handler.newImage = some image → Loaded process handler.url.string image
  blocks : ∀ block ∈ process.mainQueue, Provided events process block.view block.newImage
  cached : ∀ key image, process.imageCache key = some image → Loaded process key image

variable {events : List (Event rules)} {process later : Process rules} {event : Event rules}
  {self : Nat}

/-- What the storyboard gave to a view stays known. -/
theorem created_next {image : Option UIImage} (given : (created events)[self]? = some image) :
    (created (event :: events))[self]? = some image := by
  cases event with
  | create other =>
      have bound := (List.getElem?_eq_some_iff.mp given).1
      exact (List.getElem?_append_left bound).trans given
  | _ => exact given

theorem Asked.next {url : URL rules} (asked : Asked events self url) :
    Asked (event :: events) self url := List.mem_cons_of_mem _ asked

theorem Provided.next {image : UIImage} (provided : Provided events process self image)
    (kept : Extends process later) : Provided (event :: events) later self image := by
  obtain ⟨url, asked, loaded⟩ := provided
  exact ⟨url, asked.next, loaded.mono kept⟩

/-- A view that is not asked for another image shows what it showed. -/
theorem Shown.next {image : Option UIImage} (shown : Shown events process self image)
    (kept : Extends process later) (other : ∀ url, event ≠ .loadImageUsingUrlString self url) :
    Shown (event :: events) later self image := by
  cases shown with
  | storyboard given unasked =>
      refine .storyboard (created_next given) fun url asked => ?_
      rcases List.mem_cons.mp asked with same | older
      · exact other url same.symm
      · exact unasked url older
  | cleared asked => exact .cleared asked.next
  | loaded provided => exact .loaded (provided.next kept)

namespace Sourced

theorem launched : Sourced [] (Process.launched rules) where
  created := rfl
  asked self url asked := absurd asked List.not_mem_nil
  views self view placed := by simp [Process.launched] at placed
  tasks task member := by simp [Process.launched] at member
  handlers handler member := by simp [Process.launched] at member
  blocks block member := by simp [Process.launched] at member
  cached key image hit := by simp [Process.launched] at hit

/-- A new view shows what the storyboard gives it. -/
theorem create (sourced : Sourced events process) (image : Option UIImage) :
    Sourced (.create image :: events)
      { process with views := process.views ++ [⟨image, none⟩] } where
  created := by simp [Images.created, sourced.created]
  asked self url asked := by
    have older := sourced.asked self url ((List.mem_cons.mp asked).resolve_left nofun)
    rw [List.length_append]
    omega
  views self view placed := by
    rcases Nat.lt_or_ge self process.views.length with older | beyond
    · rw [List.getElem?_append_left older] at placed
      exact (sourced.views self view placed).next (.of_tasks rfl) nofun
    · rw [List.getElem?_append_right beyond, List.getElem?_singleton] at placed
      split at placed
      · rename_i first
        cases placed
        have last : self = process.views.length := by omega
        subst last
        refine .storyboard ?_ fun url asked => ?_
        · simp [Images.created, ← sourced.created]
        · have older := sourced.asked _ url ((List.mem_cons.mp asked).resolve_left nofun)
          omega
      · cases placed
  tasks task member := (sourced.tasks task member).next
  handlers handler member := by
    obtain ⟨asked, loaded⟩ := sourced.handlers handler member
    exact ⟨asked.next, fun image ends => (loaded image ends).mono (.of_tasks rfl)⟩
  blocks block member := (sourced.blocks block member).next (.of_tasks rfl)
  cached key image hit := (sourced.cached key image hit).mono (.of_tasks rfl)

theorem length_views_load (process : Process rules) (self : Nat) (view : CustomImageView)
    (url : URL rules) :
    (process.loadImageUsingUrlString self view url).views.length = process.views.length := by
  unfold Process.loadImageUsingUrlString
  dsimp only
  cases view.task <;> split <;> simp [Process.setView, Process.cancel, Process.dataTask]

/-- A view that is asked for an image shows the cached one, or none. -/
theorem load {view : CustomImageView} {url : URL rules} (sourced : Sourced events process)
    (placed : process.views[self]? = some view) :
    Sourced (.loadImageUsingUrlString self url :: events)
      (process.loadImageUsingUrlString self view url) := by
  have requested := requested_load url placed
  have now : Asked (.loadImageUsingUrlString self url :: events) self url := List.mem_cons_self
  have length := length_views_load process self view url
  have kept := requested.extended
  refine ⟨?_, ?_, ?_, ?_, ?_, ?_, ?_⟩
  · rw [length]
    exact sourced.created
  · intro other url' asked
    rw [length]
    rcases List.mem_cons.mp asked with same | older
    · cases same
      exact (List.getElem?_eq_some_iff.mp placed).1
    · exact sourced.asked other url' older
  · intro other shown present
    by_cases own : other = self
    · subst own
      obtain rfl := Option.some.inj (requested.shown.symm.trans present)
      cases hit : process.imageCache url.string with
      | none => exact .cleared now
      | some image => exact .loaded ⟨url, now, (sourced.cached _ image hit).mono kept⟩
    · rw [requested.others other own] at present
      refine (sourced.views other shown present).next kept fun url' same => ?_
      cases same
      exact own rfl
  · intro task member
    rw [requested.tasks] at member
    rcases List.mem_append.mp member with older | added
    · obtain ⟨index, found⟩ := List.mem_iff_getElem?.mp older
      rw [getElem?_cancel] at found
      obtain ⟨before, present, rfl⟩ := Option.map_eq_some_iff.mp found
      have asked := sourced.tasks before (List.mem_of_getElem? present)
      split <;> exact asked.next
    · split at added
      · cases added
      · obtain rfl := List.mem_singleton.mp added
        exact now
  · intro handler member
    obtain ⟨asked, loaded⟩ := sourced.handlers handler (requested.delegateQueue ▸ member)
    exact ⟨asked.next, fun image ends => (loaded image ends).mono kept⟩
  · intro block member
    exact (sourced.blocks block (requested.mainQueue ▸ member)).next kept
  · intro key image hit
    rw [requested.imageCache] at hit
    exact (sourced.cached key image hit).mono kept

/-- A task delivers for the request that it was started for. -/
theorem complete {index : Nat} {task : DataTask rules} {data : Option Data}
    (sourced : Sourced events process) (found : process.tasks[index]? = some task)
    (completes : task.progress.completes data = true) :
    Sourced (.complete index data :: events) (process.complete index task data) := by
  have kept := extends_complete found completes
  have asked := sourced.tasks task (List.mem_of_getElem? found)
  refine ⟨sourced.created, ?_, ?_, ?_, ?_, ?_, ?_⟩
  · intro other url older
    exact sourced.asked other url ((List.mem_cons.mp older).resolve_left nofun)
  · intro other view placed
    exact (sourced.views other view placed).next kept nofun
  · intro other member
    rcases List.mem_or_eq_of_mem_set member with older | rfl
    · exact (sourced.tasks other older).next
    · exact asked.next
  · intro handler member
    rcases List.mem_append.mp member with older | added
    · obtain ⟨asked, loaded⟩ := sourced.handlers handler older
      exact ⟨asked.next, fun image ends => (loaded image ends).mono kept⟩
    · obtain rfl := List.mem_singleton.mp added
      refine ⟨asked.next, fun image ends => ?_⟩
      have present := (getElem?_complete data found index).trans (if_pos rfl)
      exact ⟨_, List.mem_of_getElem? present, rfl, ends⟩
  · intro block member
    exact (sourced.blocks block member).next kept
  · intro key image hit
    exact (sourced.cached key image hit).mono kept

/-- A completion handler stores and dispatches what its task has delivered. -/
theorem handle {handler : CompletionHandler rules} {others : List (CompletionHandler rules)}
    (sourced : Sourced events process) (listed : process.delegateQueue = handler :: others) :
    Sourced (.handle :: events) (process.handle handler others) := by
  have asked : ∀ other url, Asked (.handle :: events) other url → other < process.views.length :=
    fun other url older =>
      sourced.asked other url ((List.mem_cons.mp older).resolve_left nofun)
  have views : ∀ later : Process rules, later.tasks = process.tasks →
      ∀ other view, process.views[other]? = some view →
        Shown (.handle :: events) later other view.image :=
    fun later tasks other view placed =>
      (sourced.views other view placed).next (.of_tasks tasks) nofun
  obtain ⟨owner, delivered⟩ := sourced.handlers handler (listed ▸ List.mem_cons_self)
  have rest : ∀ other ∈ others, Asked (.handle :: events) other.view other.url ∧
      ∀ image, other.newImage = some image → Loaded process other.url.string image := by
    intro other member
    obtain ⟨asked, loaded⟩ := sourced.handlers other (listed ▸ List.mem_cons_of_mem _ member)
    exact ⟨asked.next, loaded⟩
  unfold Process.handle
  cases ends : handler.newImage with
  | none =>
      exact ⟨sourced.created, asked, views _ rfl,
        fun task member => (sourced.tasks task member).next, rest,
        fun block member => (sourced.blocks block member).next (.of_tasks rfl), sourced.cached⟩
  | some newImage =>
      have loaded := delivered newImage ends
      dsimp only
      split
      · refine ⟨sourced.created, asked, views _ rfl,
          fun task member => (sourced.tasks task member).next, rest, ?_, sourced.cached⟩
        intro block member
        rcases List.mem_append.mp member with older | added
        · exact (sourced.blocks block older).next (.of_tasks rfl)
        · obtain rfl := List.mem_singleton.mp added
          exact ⟨handler.url, owner.next, loaded⟩
      · refine ⟨sourced.created, asked, views _ rfl,
          fun task member => (sourced.tasks task member).next, ?_,
          fun block member => (sourced.blocks block member).next (.of_tasks rfl), ?_⟩
        · intro other member
          rcases List.mem_cons.mp member with rfl | older
          · exact ⟨owner.next, delivered⟩
          · exact rest other older
        · intro key image hit
          have hit : Function.update process.imageCache handler.url.string (some newImage) key =
              some image := hit
          rw [Function.update_apply] at hit
          split at hit
          · rename_i here
            cases hit
            exact here ▸ loaded
          · exact sourced.cached key image hit

/-- The first block on the main queue shows its image. -/
theorem assign {block : Assignment} {blocks : List Assignment}
    (sourced : Sourced events process) (listed : process.mainQueue = block :: blocks) :
    Sourced (.assign :: events)
      (({ process with mainQueue := blocks } : Process rules).setView block.view
        fun view => { view with image := some block.newImage }) := by
  have first : Provided (.assign :: events) process block.view block.newImage :=
    (sourced.blocks block (listed ▸ List.mem_cons_self)).next (.of_tasks rfl)
  refine ⟨?_, ?_, ?_, fun task member => (sourced.tasks task member).next, ?_, ?_, sourced.cached⟩
  · exact sourced.created.trans (List.length_modify ..).symm
  · intro other url asked
    have older := sourced.asked other url ((List.mem_cons.mp asked).resolve_left nofun)
    exact lt_of_lt_of_eq older (List.length_modify ..).symm
  · intro other view placed
    have placed : (process.views.modify block.view fun view =>
        { view with image := some block.newImage })[other]? = some view := placed
    rw [List.getElem?_modify] at placed
    obtain ⟨before, present, rfl⟩ := Option.map_eq_some_iff.mp placed
    split
    · rename_i own
      exact own ▸ .loaded first
    · exact (sourced.views other before present).next (.of_tasks rfl) nofun
  · intro handler member
    obtain ⟨asked, loaded⟩ := sourced.handlers handler member
    exact ⟨asked.next, loaded⟩
  · intro other member
    exact (sourced.blocks other (listed ▸ List.mem_cons_of_mem _ member)).next (.of_tasks rfl)

/-- The cache forgets an image. -/
theorem evict (sourced : Sourced events process) (key : String) :
    Sourced (.evict key :: events)
      { process with imageCache := Function.update process.imageCache key none } where
  created := sourced.created
  asked self url asked := sourced.asked self url ((List.mem_cons.mp asked).resolve_left nofun)
  views self view placed := (sourced.views self view placed).next (.of_tasks rfl) nofun
  tasks task member := (sourced.tasks task member).next
  handlers handler member := by
    obtain ⟨asked, loaded⟩ := sourced.handlers handler member
    exact ⟨asked.next, loaded⟩
  blocks block member := (sourced.blocks block member).next (.of_tasks rfl)
  cached other image hit := by
    have hit : Function.update process.imageCache key none other = some image := hit
    rw [Function.update_apply] at hit
    split at hit
    · cases hit
    · exact sourced.cached other image hit

theorem step (sourced : Sourced events process) (taken : process.step event = some later) :
    Sourced (event :: events) later := by
  cases stepped_of_step taken with
  | created image => exact sourced.create image
  | requested url placed => exact sourced.load placed
  | completed found completes => exact sourced.complete found completes
  | handled listed => exact sourced.handle listed
  | assigned listed => exact sourced.assign listed
  | evicted key => exact sourced.evict key

end Sourced

/-- At every moment, whatever order loads, cancellations and completion handlers come in, a
view that has been asked for images shows none or one that was delivered for a URL it was
asked for, any other view what the storyboard gave it, and the cache holds under every URL
an image delivered for it. -/
theorem views_show_requested_images
    (reached : (system rules).recording.Reaches (system rules).recording.anyStep
      (Process.launched rules, []) (process, events)) :
    (∀ self view, process.views[self]? = some view → Shown events process self view.image) ∧
      ∀ key image, process.imageCache key = some image → Loaded process key image := by
  have sourced : Sourced events process :=
    reached.recorded .launched fun _ _ _ _ sourced taken => sourced.step taken
  exact ⟨sourced.views, sourced.cached⟩

/-- A view shows the cached image of its last request, with an earlier one on its way. -/
theorem views_show_requested_images_cached :
    ∃ (process : Process anyText) (events : List (Event anyText)) (view : CustomImageView),
      process.views[0]? = some view ∧ view.image = some secondImage ∧
        Shown events process 0 view.image := by
  obtain ⟨⟨process, events⟩, reached, shows⟩ := Machine.exists_reaches
    (m := (system anyText).recording) (system anyText).recording.anyStep
    (Process.launched anyText, []) (cachedBefore secondURL secondImage ++ overtaken)
    (fun state => state.1.views[0]?.any fun view => view.image == some secondImage)
    (by decide +kernel)
  obtain ⟨view, placed, image⟩ := (Option.any_eq_true _ _).mp shows
  exact ⟨process, events, view, placed, beq_iff_eq.mp image,
    (views_show_requested_images reached).1 0 view placed⟩

end Sources

section Current

variable {state next : (calling rules).State} {event : Event rules}

/-- The task is the one that the last call on its view has started, for the URL of the call. -/
def IsCurrent (state : (calling rules).State) (index : Nat) : Prop :=
  ∃ task call, state.1.tasks[index]? = some task ∧ state.2 task.view = some call ∧
    call.found = none ∧ call.task = index ∧ task.url = call.url

/-- Tasks are started by calls. -/
def Called (state : (calling rules).State) : Prop :=
  ∀ task ∈ state.1.tasks, (state.2 task.view).isSome = true

@[simp] theorem tasks_handle (process : Process rules) (handler : CompletionHandler rules)
    (others : List (CompletionHandler rules)) :
    (process.handle handler others).tasks = process.tasks := by
  unfold Process.handle
  split
  · rfl
  · split <;> rfl

theorem Called.step (called : Called state)
    (taken : (calling rules).step state event = some next) : Called next := by
  obtain ⟨stepped, noted⟩ := Machine.noting_step.mp taken
  obtain ⟨later, calls⟩ := next
  obtain rfl : noteCall state.1 event state.2 = calls := noted
  have stepped : state.1.step event = some later := stepped
  intro task member
  cases stepped_of_step stepped with
  | created image => exact called task member
  | @requested self view url placed =>
      have member : task ∈ (state.1.loadImageUsingUrlString self view url).tasks := member
      rw [(requested_load url placed).tasks] at member
      by_cases own : task.view = self
      · simp [noteCall, own]
      · simp only [noteCall, Function.update_of_ne own]
        rcases List.mem_append.mp member with older | added
        · obtain ⟨index, found⟩ := List.mem_iff_getElem?.mp older
          rw [getElem?_cancel] at found
          obtain ⟨before, present, rfl⟩ := Option.map_eq_some_iff.mp found
          have known := called before (List.mem_of_getElem? present)
          split <;> exact known
        · split at added
          · cases added
          · obtain rfl := List.mem_singleton.mp added
            exact absurd rfl own
  | @completed index before data found completes =>
      rcases List.mem_or_eq_of_mem_set member with older | rfl
      · exact called task older
      · exact called before (List.mem_of_getElem? found)
  | @handled handler others listed =>
      exact called task (tasks_handle state.1 handler others ▸ member)
  | assigned listed => exact called task member
  | evicted key => exact called task member

/-- A task that still runs was started by the last call on its view. -/
theorem isCurrent_of_running (valid : Valid state) (called : Called state) {index : Nat}
    {task : DataTask rules} (found : state.1.tasks[index]? = some task)
    (runs : task.progress = .running) : IsCurrent state index := by
  obtain ⟨view, placed, remembers⟩ := valid.running index task found runs
  have listed := List.mem_of_getElem? found
  obtain ⟨call, last⟩ := Option.isSome_iff_exists.mp (called task listed)
  obtain ⟨shown, present, tracked⟩ := valid.calls _ call last
  obtain rfl := Option.some.inj (placed.symm.trans present)
  have missed : call.found = none := by
    by_contra hit
    exact tracked.idle (Option.isSome_iff_ne_none.mpr hit) task listed rfl runs
  obtain ⟨current, started, asked, -, url⟩ := tracked.own missed
  have same : call.task = index := Option.some.inj (current.symm.trans remembers)
  rw [same, found] at asked
  cases asked
  exact ⟨task, call, found, last, missed, same, url⟩

/-- No download that runs, and no data that a task may still deliver, serve an outdated request.
Data that a completion handler already holds are not meant: they may be outdated. -/
structure ServesCurrent (state : (calling rules).State) : Prop where
  running : ∀ index task, state.1.tasks[index]? = some task → task.progress = .running →
    IsCurrent state index
  /-- A task may still deliver data for the last request on its view only. -/
  arriving : ∀ index data next, state.1.step (.complete index (some data)) = some next →
    IsCurrent state index
  /-- No view downloads twice at a time. -/
  single : ∀ (first second : Nat) (task task' : DataTask rules), state.1.tasks[first]? = some task →
    state.1.tasks[second]? = some task' → task.progress = .running →
    task'.progress = .running → task.view = task'.view → first = second

/-- In every run, the downloads that run and the data that tasks may still deliver are those of
the last request on their view. -/
theorem downloads_serve_current
    (reached : (calling rules).Reaches (calling rules).anyStep (uncalled rules) state) :
    ServesCurrent state := by
  have valid := valid_of_reaches reached
  have none : Called (uncalled rules) := fun task member => absurd member List.not_mem_nil
  have called : Called state := reached.invariant none fun called _ taken => called.step taken
  have running : ∀ index task, state.1.tasks[index]? = some task → task.progress = .running →
      IsCurrent state index := fun _ _ => isCurrent_of_running valid called
  refine ⟨running, ?_, ?_⟩
  · intro index data next taken
    cases stepped_of_step taken with
    | completed found completes =>
        rcases running_or_none completes with runs | none
        · exact running index _ found runs
        · cases none
  · intro first second task task' found found' runs runs' same
    obtain ⟨current, call, present, last, -, started, -⟩ := running first task found runs
    obtain ⟨current', call', present', last', -, started', -⟩ := running second task' found' runs'
    obtain rfl := Option.some.inj (found.symm.trans present)
    obtain rfl := Option.some.inj (found'.symm.trans present')
    rw [same, last'] at last
    cases last
    exact started.symm.trans started'

/-- The second image is being loaded while the first one is on the main queue. -/
theorem downloads_serve_current_overtaken :
    ∃ state : (calling anyText).State,
      (∃ index data, (state.1.step (.complete index (some data))).isSome = true ∧
        IsCurrent state index) ∧ ServesCurrent state := by
  obtain ⟨state, reached, arrives⟩ := Machine.exists_reaches (m := calling anyText)
    (calling anyText).anyStep (uncalled anyText)
    (cachedBefore firstURL firstImage ++ [.evict firstURL.string] ++ overtaken)
    (fun state => (state.1.step (.complete 2 (some ⟨some secondImage⟩))).isSome)
    (by decide +kernel)
  have serves := downloads_serve_current reached
  obtain ⟨next, taken⟩ := Option.isSome_iff_exists.mp arrives
  exact ⟨state, ⟨2, _, arrives, serves.arriving 2 _ next taken⟩, serves⟩

end Current

section Settling

variable {process later : Process rules} {event : Event rules}

/-- An event by which something outstanding goes on: no view is created or asked for another
image, and the cache keeps its entries. -/
def goesOn (_ : Process rules) : Event rules → Bool
  | .complete _ _ | .handle | .assign => true
  | _ => false

/-- How many steps the outstanding tasks, completion handlers and assignments may still
take: a task completes, stores its image, dispatches the assignment and shows it. -/
def Process.work (process : Process rules) : Nat :=
  4 * process.tasks.countP (fun task => !task.progress.isCompleted) +
    (process.delegateQueue.map fun handler => if handler.stored then 2 else 3).sum +
    process.mainQueue.length

/-- A task that completes is no longer outstanding. -/
theorem countP_complete {index : Nat} {task : DataTask rules} {data : Option Data}
    (found : process.tasks[index]? = some task)
    (completes : task.progress.completes data = true) :
    ((process.complete index task data).tasks.countP fun task => !task.progress.isCompleted) + 1 =
      process.tasks.countP fun task => !task.progress.isCompleted := by
  obtain ⟨bound, rfl⟩ := List.getElem?_eq_some_iff.mp found
  have outstanding : (process.tasks[index]).progress.isCompleted = false := by
    cases progress : (process.tasks[index]).progress with
    | completed data => rw [progress] at completes; cases completes
    | _ => rfl
  have positive : 0 < process.tasks.countP fun task => !task.progress.isCompleted :=
    List.countP_pos_iff.mpr ⟨_, List.getElem_mem bound, by rw [outstanding]; rfl⟩
  have done : (Progress.completed data).isCompleted = true := rfl
  simp only [Process.complete, List.countP_set bound, outstanding, done, Bool.not_false,
    Bool.not_true, if_true, if_false, Bool.false_eq_true]
  omega

/-- Whatever goes on comes closer to its end. -/
theorem work_decreases (goes : goesOn process event = true)
    (taken : process.step event = some later) : later.work < process.work := by
  cases stepped_of_step taken with
  | created image => cases goes
  | requested url placed => cases goes
  | completed found completes =>
      have fewer := countP_complete found completes
      simp only [Process.work]
      simp only [Process.complete, List.map_append, List.sum_append] at fewer ⊢
      simp
      omega
  | @handled handler others listed =>
      unfold Process.handle
      cases ends : handler.newImage with
      | none =>
          simp only [Process.work, listed, List.map_cons, List.sum_cons]
          split <;> omega
      | some newImage =>
          dsimp only
          split
          · rename_i stored
            simp [Process.work, listed, stored]
            omega
          · rename_i stored
            simp [Process.work, listed, stored]
  | assigned listed =>
      simp [Process.work, listed, Process.setView]
  | evicted key => cases goes

/-- Where nothing can go on, everything has come to its end. -/
theorem settled_of_stuck (stuck : ∀ event, goesOn process event = true → process.step event = none)
    (self : Nat) : Settled self process where
  tasks task member own := by
    obtain ⟨index, found⟩ := List.mem_iff_getElem?.mp member
    have refused := stuck (.complete index none) rfl
    simp only [Process.step, found] at refused
    cases progress : task.progress with
    | completed data => rfl
    | running => simp [progress, Progress.completes] at refused
    | canceling => simp [progress, Progress.completes] at refused
  handlers handler member := by
    have refused := stuck .handle rfl
    simp only [Process.step] at refused
    split at refused
    · cases refused
    · rename_i empty
      rw [empty] at member
      cases member
  blocks block member := by
    have refused := stuck .assign rfl
    simp only [Process.step] at refused
    split at refused
    · cases refused
    · rename_i empty
      rw [empty] at member
      cases member

/-- Without new requests everything outstanding comes to an end, in whatever order tasks
complete: no run of completions, handlers and assignments is longer than `Process.work`, and
where none can go on all views have settled. -/
theorem loads_settle {events : List (Event rules)}
    (ran : (system rules).runWhile goesOn process events = some later) :
    events.length + later.work ≤ process.work ∧
      ((∀ event, goesOn later event = true → later.step event = none) →
        ∀ self, Settled self later) := by
  constructor
  · exact Machine.length_le_of_runWhile (fun _ _ _ => work_decreases) ran
  · exact settled_of_stuck

/-- A load completes, is stored, dispatched and shown. -/
theorem loads_settle_one :
    ∃ process later : Process anyText, process.work = 4 ∧
      (system anyText).runWhile goesOn process
        [.complete 0 (some ⟨some firstImage⟩), .handle, .handle, .assign] = some later ∧
      4 + later.work ≤ process.work := by
  obtain ⟨process, reached, ready⟩ := Machine.exists_reaches (m := system anyText)
    (system anyText).anyStep (.launched anyText)
    [.create none, .loadImageUsingUrlString 0 firstURL]
    (fun process => process.work == 4 && ((system anyText).runWhile goesOn process
      [.complete 0 (some ⟨some firstImage⟩), .handle, .handle, .assign]).isSome)
    (by decide +kernel)
  obtain ⟨work, runs⟩ := Bool.and_eq_true_iff.mp ready
  obtain ⟨later, ran⟩ := Option.isSome_iff_exists.mp runs
  exact ⟨process, later, beq_iff_eq.mp work, ran, (loads_settle ran).1⟩

end Settling

end Gbc.Images
