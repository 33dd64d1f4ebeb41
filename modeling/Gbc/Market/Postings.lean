import Gbc.Market.ProvenanceSafe

/-!
# Reading and managing postings

What the provenance contract gives the screens: no reader traps on a picture
while every delivered document has one, a Manage row leads to its own document
while every listed document names itself, and update screens only ever write
postings of their own user.
-/

namespace Gbc

open Callback Handler

variable {rules : URLRules}

namespace Postings

/-- The screen that an event delivers documents to, with those it goes on to use. -/
def delivery (world : PostingsWorld rules) (event : Event (app rules) (firebase rules)) :
    Option (Screen × Snapshot) :=
  match event with
  | .reply index => do
      let pending ← world.pending[index]?
      let target ← world.objects[pending.self]?
      some (target.object, target.object.reads (delivered pending))
  | _ => none

/-- Every delivered document that a reader uses has its `Image`. -/
def imagesDelivered (world : PostingsWorld rules) (event : Event (app rules) (firebase rules)) :
    Bool :=
  (delivery world event).all fun read => read.2.all fun document => document.2.contains "Image"

/-- A checked delivery meets the reply guard of the contract. -/
theorem guard_of_delivery {demands : Demands} {world : PostingsWorld rules}
    {event : Event (app rules) (firebase rules)}
    (meets : ∀ screen documents, delivery world event = some (screen, documents) →
      ∀ document ∈ documents, (demands.images → "Image" ∈ document.2) ∧
        (demands.refs → screen.isManage = true → "Ref" ∈ document.2)) :
    (contract rules demands).guard world event := by
  cases event with
  | launch process root => trivial
  | input self input => exact fun _ _ => trivial
  | serve index choice => exact fun _ _ => trivial
  | reply index =>
      intro pending response target found answered placed
      obtain ⟨self, past, request, completion, answer⟩ := pending
      cases request with
      | getDocuments collection =>
          intro documents same
          have snapshot : answer = some (some documents) := answered.trans (congrArg some same)
          refine meets target.object _ ?_
          simp only at placed
          simp [delivery, found, placed, delivered, snapshot]
      | _ => trivial

/-- Every run keeps the provenance contract that demands nothing of the snapshots. -/
theorem holds_of_reaches {world : PostingsWorld rules}
    {test : PostingsWorld rules → Event (app rules) (firebase rules) → Bool}
    (reached : (system rules).Reaches test (start rules) world) :
    (contract rules ⟨False, False⟩).Holds world := by
  refine holds_of_reachable (reached.weaken fun _ _ _ => ?_)
  exact guard_of_delivery fun _ _ _ _ _ => ⟨nofun, nofun⟩

/-- Every snapshot is delivered with its pictures, so no reader traps on one: no
row, no detail screen and no update screen meets an `Image` it cannot unwrap. -/
theorem readers_never_trap_on_images {world : PostingsWorld rules}
    (reached : (system rules).Reaches imagesDelivered (start rules) world) :
    ∀ fault ∈ world.faults, fault.2 ≠ .image := by
  have holds : (contract rules ⟨True, False⟩).Holds world := by
    refine holds_of_reachable (reached.weaken ?_)
    intro world event checked
    refine guard_of_delivery fun screen documents found document member => ⟨fun _ => ?_, nofun⟩
    simp only [imagesDelivered, found, Option.all_some, List.all_eq_true] at checked
    exact Std.ExtTreeMap.mem_iff_contains.mpr (checked document member)
  exact fun fault member => holds.faults fault member trivial

/-- A detail screen shows a job. -/
def showsJob (world : PostingsWorld rules) : Bool :=
  world.objects.any fun target =>
    match target.object with
    | .detail self => self.titleDisplay == "Job"
    | _ => false

/-- A published posting is rendered and opened. -/
theorem readers_never_trap_on_images_opened :
    ∃ world, (system anyText).Reaches imagesDelivered (start anyText) world ∧
      showsJob world = true ∧ ∀ fault ∈ world.faults, fault.2 ≠ .image := by
  obtain ⟨world, reached, shown⟩ := Machine.exists_reaches (m := system anyText)
    imagesDelivered (start anyText)
    (publishing ++ [.launch 1 .market, .input 1 .viewDidLoad, .serve 0 .ok, .reply 0,
      .input 1 (.cellForRowAt 0 0), .input 1 (.didSelectRowAt 0)]) showsJob (by decide +kernel)
  exact ⟨world, reached, shown, readers_never_trap_on_images reached⟩

/-- A market place that loads a posting before its picture is there traps on it. -/
theorem readers_trap_on_unpublished :
    ¬ ∀ (rules : URLRules) (world : PostingsWorld rules),
      (system rules).Reaches (system rules).anyStep (start rules) world →
      ∀ fault ∈ world.faults, fault.2 ≠ .image := by
  intro never
  obtain ⟨world, reached, trapped⟩ := Machine.exists_reaches (m := system anyText)
    (system anyText).anyStep
    (start anyText) (submitting ++ [.serve 0 (.name "d1"), .launch 1 .market, .input 1 .viewDidLoad,
      .serve 1 .ok, .reply 1, .input 1 (.cellForRowAt 0 0)])
    (fun world : PostingsWorld anyText => world.faults.any fun fault => fault.2 == .image)
    (by decide +kernel)
  obtain ⟨fault, member, same⟩ := List.any_eq_true.mp trapped
  exact never anyText world reached fault member (beq_iff_eq.mp same)

/-- A write of the `Upload` collection that began on an update screen is addressed
as the contract demands. -/
theorem addressed_of_writes {demands : Demands} {server : Server rules}
    {past : Past (app rules)} {request : Request rules} {document : String}
    (valid : RequestOk demands server past request)
    (writes : request.writes = some (.upload, document)) :
    AddressedFrom demands server past document := by
  cases request with
  | setData collection written data merge =>
      cases writes
      exact valid.2.2.2.2.2
  | delete collection written =>
      cases writes
      exact valid.2
  | _ => cases writes

/-- A write that began on an update screen is outstanding. -/
def writesFromUpdate (world : PostingsWorld rules) : Bool :=
  world.pending.any fun pending =>
    match pending.past.entry.object with
    | .update self => self.source.isSome && pending.request.writes == some (.upload, self.opened)
    | _ => false

/-- Every write that began on an update screen with a nonempty path is addressed
to a document that its user posted. -/
def WritesOwnPostings (world : PostingsWorld rules) : Prop :=
  ∀ pending ∈ world.pending, ∀ self : UpdatePostingsViewController,
    pending.past.entry.object = .update self →
    ∀ document, pending.request.writes = some (.upload, document) → document ≠ "" →
      CreatedBy world.server document self.user.uid

/-- In every run, update screens write only postings of their own user. -/
theorem writes_own_postings {world : PostingsWorld rules}
    (reached : (system rules).Reaches (system rules).anyStep (start rules) world) :
    WritesOwnPostings world := by
  have holds := holds_of_reaches reached
  intro pending member self began document writes _
  exact (addressed_of_writes (holds.pending pending member).request writes self began).owner

/-- A posting is deleted from its Manage row. -/
theorem writes_own_postings_deleted :
    ∃ world, (system anyText).Reaches (system anyText).anyStep (start anyText) world ∧
      writesFromUpdate world = true ∧ WritesOwnPostings world := by
  obtain ⟨world, reached, writes⟩ := Machine.exists_reaches (m := system anyText)
    (system anyText).anyStep
    (start anyText) (publishing ++ managing ++ [.input 2 .deleteButton, .input 2 .confirmDelete])
    writesFromUpdate (by decide +kernel)
  exact ⟨world, reached, writes, writes_own_postings reached⟩

end Postings

end Gbc
