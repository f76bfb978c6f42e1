import TensorArena.Proofs.Arena.Moves

/-!
# Invariants of a walk

The planner changes its state by placing a tensor, counting a reader, or giving a slot back. What
these keep holds whenever the planner comes to a move, and at the end of a walk.
-/

set_option autoImplicit false

namespace TensorArena

namespace Graph

variable {graph : Graph} {lifetimes : Lifetimes} {options : ArenaOptions} {state : PlannerState}

/-- The planner starts with an empty arena. -/
theorem initialState_eq_ok (success : graph.initialState lifetimes = .ok state) :
    ∃ entries remaining, state = ⟨[], 0, [], entries, remaining⟩ ∧
      ∀ entry ∈ entries, entry = none := by
  unfold initialState at success
  obtain ⟨remaining, _, success⟩ := bind_eq_ok.mp success
  obtain rfl := pure_eq_ok.mp success
  refine ⟨_, remaining, rfl, fun entry member => ?_⟩
  obtain ⟨_, _, waiting⟩ := List.mem_map.mp member
  exact waiting.symm

/-- What holds of the empty arena and is kept by every move that is made holds whenever the planner
comes to a move. -/
theorem Makes.induction {move : Move} (makes : graph.Makes lifetimes options state move)
    {holds : PlannerState → Prop}
    (empty : ∀ initial, graph.initialState lifetimes = .ok initial → holds initial)
    (kept : ∀ before made after, graph.Makes lifetimes options before made → holds before →
      before.move graph lifetimes options made = .ok after → holds after) :
    holds state := by
  obtain ⟨initial, done, rest, started, whole, reached⟩ := makes
  -- A move is made where the moves before it have led.
  have invariant := foldlM_induction reached
    (fun first state => holds state ∧
      first.foldlM (PlannerState.move graph lifetimes options) initial = .ok state)
    ⟨empty initial started, rfl⟩ fun first made others before after split known moved => by
      have made : graph.Makes lifetimes options before made :=
        ⟨initial, first, others ++ move :: rest, started, by simp [whole, split], known.2⟩
      refine ⟨kept _ _ after made known.1 moved, ?_⟩
      rw [List.foldlM_append, known.2, ok_bind, List.foldlM_cons, moved]
      rfl
  exact invariant.1

end Graph

namespace PlannerState

/-- Counting a reader and giving a slot back keep a property of the planner's state. -/
structure Keeps (holds : PlannerState → Prop) : Prop where
  countRead : ∀ {state : PlannerState} (position : Nat), holds state →
    holds (state.countRead position)
  release : ∀ {state : PlannerState} (position step : Nat), holds state →
    holds (state.release position step)

theorem Keeps.releaseUnread {graph : Graph} {holds : PlannerState → Prop} {state : PlannerState}
    {step : Nat} (keeps : Keeps holds) (position : Nat) (name : String) (before : holds state) :
    holds (state.releaseUnread graph step position name) := by
  unfold PlannerState.releaseUnread
  split
  · exact keeps.release position step before
  · exact before

/-- All moves of the planner keep a property of its state. -/
structure Preserves (lifetimes : Lifetimes) (options : ArenaOptions)
    (holds : PlannerState → Prop) : Prop extends Keeps holds where
  place : ∀ {position : Nat} {tensor : Tensor} {state after : PlannerState}, holds state →
    state.place lifetimes options position tensor = .ok after → holds after

namespace Preserves

variable {graph : Graph} {lifetimes : Lifetimes} {options : ArenaOptions}
  {holds : PlannerState → Prop} {state after : PlannerState}

theorem move (preserves : Preserves lifetimes options holds) {move : Move} (before : holds state)
    (moved : state.move graph lifetimes options move = .ok after) : holds after := by
  cases move with
  | place position tensor => exact preserves.place before moved
  | read step position name =>
    obtain rfl := Except.ok.inj moved
    exact preserves.releaseUnread position name (preserves.countRead position before)
  | drop step position name =>
    obtain rfl := Except.ok.inj moved
    exact preserves.releaseUnread position name before

/-- What holds of the empty arena and is kept by the moves holds of the state a plan is read off. -/
theorem plan (preserves : Preserves lifetimes options holds) (exact : lifetimes.Exact graph)
    {plan : Plan} (empty : ∀ entries remaining, (∀ entry ∈ entries, entry = none) →
      holds ⟨[], 0, [], entries, remaining⟩)
    (success : graph.plan lifetimes options = .ok plan) :
    ∃ final, holds final ∧ final.arenaEnd = plan.arenaSize ∧
      Graph.collectEntries graph.tensors final.entries = .ok plan.entries := by
  obtain ⟨initial, final, started, walked, arenaEnd, collected⟩ :=
    Graph.exists_run_of_plan_eq_ok exact success
  obtain ⟨entries, remaining, rfl, waiting⟩ := Graph.initialState_eq_ok started
  refine ⟨final, ?_, arenaEnd, collected⟩
  exact foldlM_induction walked (fun _ state => holds state) (empty entries remaining waiting)
    fun _ _ _ _ _ _ before moved => preserves.move before moved

end Preserves

end PlannerState

namespace Graph

theorem Makes.of_preserves {graph : Graph} {lifetimes : Lifetimes} {options : ArenaOptions}
    {state : PlannerState} {move : Move} (makes : graph.Makes lifetimes options state move)
    {holds : PlannerState → Prop} (preserves : PlannerState.Preserves lifetimes options holds)
    (empty : ∀ entries remaining, (∀ entry ∈ entries, entry = none) →
      holds ⟨[], 0, [], entries, remaining⟩) : holds state := by
  refine makes.induction (fun initial started => ?_) fun _ _ _ _ before moved =>
    preserves.move before moved
  obtain ⟨entries, remaining, rfl, waiting⟩ := initialState_eq_ok started
  exact empty entries remaining waiting

theorem mem_of_collectEntries {tensors : List Tensor} {entries : List (Option PlanEntry)}
    {collected : List PlanEntry} (success : collectEntries tensors entries = .ok collected)
    {entry : PlanEntry} (member : entry ∈ collected) : some entry ∈ entries := by
  induction tensors generalizing entries collected with
  | nil =>
    obtain rfl := Except.ok.inj success
    cases member
  | cons tensor tensors ih =>
    unfold collectEntries at success
    split at success
    · rename_i placed entries same
      obtain ⟨-, rfl⟩ := List.cons.inj same
      split at success
      · cases success
      · rename_i first
        obtain ⟨others, rest, success⟩ := bind_eq_ok.mp success
        obtain rfl := pure_eq_ok.mp success
        rcases List.mem_cons.mp member with rfl | member
        · exact List.mem_cons_self
        · exact List.mem_cons_of_mem _ (ih rest member)
    · obtain rfl := Except.ok.inj success
      cases member

end Graph

end TensorArena
