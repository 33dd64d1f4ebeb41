import Gbc.Callback.Effects

/-!
# Chains of operations

A chain goes on when the completion handler of one operation starts the next.
`Followed` records what the completion handlers of the handled operations have
started. When nothing is outstanding, all of that has been handled as well.
-/

namespace Gbc.Callback.World

variable {I : Interface} {app : App I} {service : Service I}

/-- When nothing is outstanding, every answer has been handled. -/
theorem Answered.settled {world : World app service} {past : Past app} {exchange : Exchange I}
    (answered : world.Answered past exchange) (settled : world.pending = []) :
    (past, exchange) ∈ world.acknowledged := by
  cases answered with
  | handled member => exact member
  | awaiting member => rw [settled] at member; cases member

/-- A handler with this past has started this operation. -/
inductive Issued (world : World app service) (past : Past app) (request : I.Request) : Prop where
  | outstanding {pending : Pending app} (member : pending ∈ world.pending)
      (same : pending.past = past) (asked : pending.request = request)
  | handled {response : I.Response request}
      (member : (past, ⟨request, response⟩) ∈ world.acknowledged)

/-- The completion handler of every handled operation has started operations that follow
its answer. -/
def Followed (follows : Exchange I → List I.Request → Prop) (world : World app service) : Prop :=
  ∀ handled ∈ world.acknowledged, ∃ started, follows handled.2 started ∧
    ∀ request ∈ started,
      world.Issued (handled.1.answered handled.2.request handled.2.response) request

section Steps

variable {world next : World app service} {event : Event app service} {past : Past app}
  {request : I.Request} {follows : Exchange I → List I.Request → Prop}

/-- What has been started is outstanding or handled from then on. -/
theorem Issued.step (issued : world.Issued past request) (taken : world.step event = some next) :
    next.Issued past request := by
  cases issued with
  | handled member => exact .handled (mem_acknowledged_of_step taken member)
  | @outstanding pending member same asked =>
      cases stepped_of_step taken with
      | launched => exact .outstanding member same asked
      | began => exact .outstanding (mem_exec_pending member) same asked
      | @served index self choice older other completion later response found =>
          by_cases here : pending = ⟨self, older, other, completion, none⟩
          · subst here
            have bound := (List.getElem?_eq_some_iff.mp found).1
            exact .outstanding (List.mem_set bound _) same asked
          · exact .outstanding ((mem_rest_of_ne found member here).2 _) same asked
      | @completed index self older other completion response target found =>
          by_cases here : pending = ⟨self, older, other, completion, some response⟩
          · subst here
            cases same
            cases asked
            exact .handled (by rw [exec_acknowledged]; exact List.mem_cons_self)
          · have rest := (mem_rest_of_ne found member here).1
            exact .outstanding (mem_exec_pending rest) same asked

/-- When nothing is outstanding, everything that has been started has been handled. -/
theorem Issued.settled (issued : world.Issued past request) (settled : world.pending = []) :
    ∃ response, (past, ⟨request, response⟩) ∈ world.acknowledged := by
  cases issued with
  | outstanding member => rw [settled] at member; cases member
  | handled member => exact ⟨_, member⟩

/-- The completion handler that a reply runs starts operations that follow its answer. -/
def GoesOn (follows : Exchange I → List I.Request → Prop) (world : World app service)
    (event : Event app service) : Prop :=
  ∀ ⦃index self past request completion response target⦄, event = .reply index →
    world.pending[index]? = some ⟨self, past, request, completion, some response⟩ →
    world.objects[self]? = some target →
    follows ⟨request, response⟩ ((completion response).requests target.object)

/-- A step keeps the chains going if its completion handler does. -/
theorem Followed.step (followed : Followed follows world) (goesOn : GoesOn follows world event)
    (taken : world.step event = some next) : Followed follows next := by
  have older : ∀ handled ∈ world.acknowledged, ∃ started, follows handled.2 started ∧
      ∀ request ∈ started,
        next.Issued (handled.1.answered handled.2.request handled.2.response) request := by
    intro handled member
    obtain ⟨started, onward, issued⟩ := followed handled member
    exact ⟨started, onward, fun request asked => (issued request asked).step taken⟩
  intro handled member
  cases stepped_of_step taken with
  | launched => exact older handled member
  | began => rw [exec_acknowledged] at member; exact older handled member
  | served => exact older handled member
  | @completed index self past request completion response target found placed =>
      rw [exec_acknowledged] at member
      rcases List.mem_cons.mp member with rfl | before
      · refine ⟨_, goesOn rfl found placed, fun request asked => ?_⟩
        obtain ⟨pending, outstanding, same, rfl⟩ := exec_requests asked
        exact .outstanding outstanding same rfl
      · exact older handled before

/-- Chains go on in every run whose replies keep them going. -/
theorem followed_of_reachable {guard : (machine app service).Guard} {server : service.State}
    (goesOn : ∀ {world : World app service} {event},
      Machine.Reachable guard (World.initial app server) world → guard world event →
      GoesOn follows world event)
    (reached : Machine.Reachable guard (World.initial app server) world) :
    Followed follows world := by
  have onward : Machine.Reachable (m := machine app service) (GoesOn follows)
      (World.initial app server) world :=
    reached.weakenWith fun prior meets _ => goesOn prior meets
  refine onward.invariant ?_ fun followed goesOn taken => followed.step goesOn taken
  intro handled member
  cases member

end Steps

end Gbc.Callback.World
