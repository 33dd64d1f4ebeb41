import Gbc.Callback.History

/-!
# Contracts of callback programs

A `Contract` says what the backend, the objects, the requests and the answers of
a program satisfy while the backend evolves. `Code.Safe` is the weakest
precondition of one handler under a contract: a completion handler must be safe
in every later state of the backend and of its object. `Contract.sound` lifts
safe handlers and a safe service to all interleavings.
-/

namespace Gbc.Callback

variable {I : Interface} {app : App I} {service : Service I}

/-- What holds of the parts of a world, and the guards its steps may rely on. -/
structure Contract (app : App I) (service : Service I) where
  Evolves : service.State → service.State → Prop
  Server : service.State → Prop
  Object : service.State → app.Object → Prop
  Request : service.State → Past app → I.Request → Prop
  Response : service.State → Past app → (request : I.Request) → I.Response request → Prop
  Fault : app.Fault → Prop
  InputGuard : app.Object → app.Input → Prop
  ServeGuard : service.State → Past app → I.Request → service.Choice → Prop
  ReplyGuard : app.Object → Past app → (request : I.Request) → I.Response request → Prop

namespace Contract

/-- A handler body keeps the contract from an object state on, now and in all of
its completion handlers. -/
def Safe (contract : Contract app service) (server : service.State) :
    Past app → Code I app.Object app.Fault → app.Object → Prop
  | _, .done, _ => True
  | _, .trap fault, _ => contract.Fault fault
  | past, .look next, object => Safe contract server past (next object) object
  | past, .modify change next, object =>
      contract.Object server (change object) ∧ Safe contract server past next (change object)
  | past, .alert _ next, object => Safe contract server past next object
  | past, .call request completion next, object =>
      contract.Request server past request ∧
      (∀ later response target, contract.Evolves server later → contract.Server later →
        contract.Response later past request response → contract.Object later target →
        contract.ReplyGuard target past request response →
        Safe contract later (past.answered request response) (completion response) target) ∧
      Safe contract server past next object
  | past, .present object start, _ =>
      contract.Object server object ∧ Safe contract server past start object

section Rules

variable {contract : Contract app service} {server : service.State} {past : Past app}
  {object : app.Object}

/-- A forced unwrap traps on no value. -/
theorem safe_unwrap {Value : Type} {value : Option Value} {fault : app.Fault}
    {next : Value → Code I app.Object app.Fault} :
    contract.Safe server past (.unwrap value fault next) object ↔
      (value = none → contract.Fault fault) ∧
      ∀ found, value = some found → contract.Safe server past (next found) object := by
  cases value <;> simp [Code.unwrap, Safe]

/-- An operation without a completion handler only has to be admitted. -/
theorem safe_fire {request : I.Request} {next : Code I app.Object app.Fault} :
    contract.Safe server past (.fire request next) object ↔
      contract.Request server past request ∧ contract.Safe server past next object := by
  simp [Code.fire, Safe]

end Rules

/-- The obligations under which a contract holds in every interleaving. -/
structure Sound (contract : Contract app service) : Prop where
  refl : ∀ server, contract.Evolves server server
  trans : ∀ {first second third}, contract.Evolves first second →
    contract.Evolves second third → contract.Evolves first third
  object : ∀ {server later object}, contract.Evolves server later →
    contract.Object server object → contract.Object later object
  request : ∀ {server later past request}, contract.Evolves server later →
    contract.Request server past request → contract.Request later past request
  response : ∀ {server later past request response}, contract.Evolves server later →
    contract.Response server past request response →
    contract.Response later past request response
  root : ∀ server root, contract.Server server → contract.Object server (app.root root)
  input : ∀ server past object input, contract.Server server → contract.Object server object →
    contract.InputGuard object input → past.entry.input = input → past.entry.object = object →
    past.trail = [] → contract.Safe server past (app.handler input) object
  serve : ∀ {server past request choice later response}, contract.Server server →
    contract.Request server past request → contract.ServeGuard server past request choice →
    service.serve server request choice = some (later, response) →
    contract.Evolves server later ∧ contract.Server later ∧
      contract.Response later past request response

/-- An outstanding operation that keeps the contract whenever it is handled. -/
structure Keeps (contract : Contract app service) (server : service.State)
    (pending : Pending app) : Prop where
  request : contract.Request server pending.past pending.request
  answer : ∀ response, pending.answer = some response →
    contract.Response server pending.past pending.request response
  completion : ∀ later response target, contract.Evolves server later → contract.Server later →
    contract.Response later pending.past pending.request response →
    contract.Object later target →
    contract.ReplyGuard target pending.past pending.request response →
    contract.Safe later (pending.past.answered pending.request response)
      (pending.completion response) target

/-- The contract holds of every part of a world. -/
structure Holds (contract : Contract app service) (world : World app service) : Prop where
  server : contract.Server world.server
  objects : ∀ target ∈ world.objects, contract.Object world.server target.object
  pending : ∀ pending ∈ world.pending, contract.Keeps world.server pending
  acknowledged : ∀ handled ∈ world.acknowledged,
    contract.Request world.server handled.1 handled.2.request
  faults : ∀ fault ∈ world.faults, contract.Fault fault.2

/-- The contract's guards as a condition on the steps of a world. -/
def guard (contract : Contract app service) : (World.machine app service).Guard :=
  fun (world : World app service) (event : Event app service) =>
    match event with
    | .launch _ _ => True
    | .input self input => ∀ target, world.objects[self]? = some target →
        contract.InputGuard target.object input
    | .serve index choice => ∀ pending, world.pending[index]? = some pending →
        contract.ServeGuard world.server pending.past pending.request choice
    | .reply index => ∀ pending response target, world.pending[index]? = some pending →
        pending.answer = some response → world.objects[pending.self]? = some target →
        contract.ReplyGuard target.object pending.past pending.request response

variable {contract : Contract app service}

theorem Keeps.later (sound : contract.Sound) {server later : service.State}
    {pending : Pending app} (evolves : contract.Evolves server later)
    (keeps : contract.Keeps server pending) : contract.Keeps later pending where
  request := sound.request evolves keeps.request
  answer response answered := sound.response evolves (keeps.answer response answered)
  completion := fun last response target further =>
    keeps.completion last response target (sound.trans evolves further)

/-- A safe handler leaves a world in which the contract holds. -/
theorem Holds.exec {world : World app service} {self : Nat} {past : Past app}
    {target : Instance app} {code : Code I app.Object app.Fault}
    (holds : contract.Holds world) (safe : contract.Safe world.server past code target.object) :
    contract.Holds (World.exec self past code target world) := by
  induction code generalizing self target world with
  | done => exact holds
  | trap fault =>
      exact { holds with
        faults := by
          intro other member
          rcases List.mem_cons.mp member with rfl | older
          · exact safe
          · exact holds.faults other older }
  | look next inductionHypothesis => exact inductionHypothesis _ holds safe
  | modify change next inductionHypothesis =>
      refine inductionHypothesis ?_ safe.2
      exact { holds with
        objects := by
          intro other member
          rcases List.mem_or_eq_of_mem_set member with older | rfl
          · exact holds.objects other older
          · exact safe.1 }
  | alert title next inductionHypothesis =>
      exact inductionHypothesis { holds with } safe
  | call request completion next _ inductionHypothesis =>
      refine inductionHypothesis ?_ safe.2.2
      exact { holds with
        pending := by
          intro other member
          rcases List.mem_append.mp member with older | added
          · exact holds.pending other older
          · obtain rfl := List.mem_singleton.mp added
            exact ⟨safe.1, (by intro response answered; cases answered), safe.2.1⟩ }
  | present object start inductionHypothesis =>
      refine inductionHypothesis ?_ safe.2
      exact { holds with
        objects := by
          intro other member
          rcases List.mem_append.mp member with older | added
          · exact holds.objects other older
          · obtain rfl := List.mem_singleton.mp added
            exact safe.1 }

/-- A change of the backend that the contract allows keeps the rest of a world. -/
theorem Holds.evolve (sound : contract.Sound) {world : World app service}
    {later : service.State} (holds : contract.Holds world)
    (evolves : contract.Evolves world.server later) (server : contract.Server later) :
    contract.Holds { world with server := later } where
  server := server
  objects target member := sound.object evolves (holds.objects target member)
  pending pending member := (holds.pending pending member).later sound evolves
  acknowledged handled member := sound.request evolves (holds.acknowledged handled member)
  faults := holds.faults

/-- Every step that meets the guards keeps the contract. -/
theorem Holds.step (sound : contract.Sound) {world next : World app service}
    {event : Event app service} (holds : contract.Holds world)
    (meets : contract.guard world event) (taken : world.step event = some next) :
    contract.Holds next := by
  cases World.stepped_of_step taken with
  | launched =>
      exact { holds with
        objects := by
          intro other member
          rcases List.mem_append.mp member with older | added
          · exact holds.objects other older
          · obtain rfl := List.mem_singleton.mp added
            exact sound.root _ _ holds.server }
  | @began self input target placed =>
      have ticked : contract.Holds { world with clock := world.clock + 1 } := { holds with }
      refine ticked.exec ?_
      exact sound.input _ _ _ _ holds.server
        (holds.objects target (List.mem_of_getElem? placed)) (meets target placed) rfl rfl rfl
  | @served index self choice past request completion later response found serves =>
      have old := holds.pending _ (List.mem_of_getElem? found)
      obtain ⟨evolves, server, responded⟩ :=
        sound.serve holds.server old.request (meets _ found) serves
      have moved := holds.evolve sound evolves server
      exact { moved with
        pending := by
          intro other member
          rcases List.mem_or_eq_of_mem_set member with older | rfl
          · exact moved.pending other older
          · refine ⟨sound.request evolves old.request, ?_, (old.later sound evolves).completion⟩
            intro answer answered
            cases answered
            exact responded }
  | @completed index self past request completion response target found placed =>
      have keeps := holds.pending _ (List.mem_of_getElem? found)
      refine Holds.exec ?_ ?_
      · exact { holds with
          pending := fun other member => holds.pending other (List.mem_of_mem_eraseIdx member)
          acknowledged := by
            intro handled member
            rcases List.mem_cons.mp member with rfl | older
            · exact keeps.request
            · exact holds.acknowledged handled older }
      · exact keeps.completion _ response target.object (sound.refl _) holds.server
          (keeps.answer response rfl) (holds.objects target (List.mem_of_getElem? placed))
          (meets _ response target found rfl placed)

/-- A sound contract holds in every world that a run under its guards reaches. -/
theorem Holds.reachable (sound : contract.Sound) {start world : World app service}
    (initial : contract.Holds start)
    (reached : Machine.Reachable (m := World.machine app service) contract.guard start world) :
    contract.Holds world :=
  reached.invariant initial fun holds meets taken => holds.step sound meets taken

/-- Answered operations were admitted. -/
theorem Holds.answered {world : World app service} {past : Past app} {exchange : Exchange I}
    (holds : contract.Holds world) (answered : world.Answered past exchange) :
    contract.Request world.server past exchange.request := by
  cases answered with
  | handled member => exact holds.acknowledged _ member
  | awaiting member => exact (holds.pending _ member).request

/-- The contract holds before any process has started. -/
theorem holds_initial {server : service.State} (valid : contract.Server server) :
    contract.Holds (World.initial app server) where
  server := valid
  objects := by intro target member; cases member
  pending := by intro pending member; cases member
  acknowledged := by intro handled member; cases member
  faults := by intro fault member; cases member

end Contract

end Gbc.Callback
