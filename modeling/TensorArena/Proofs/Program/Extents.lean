import TensorArena.Proofs.Arena.Ownership
import TensorArena.Proofs.Arena.Sums
import TensorArena.Proofs.Program.Session

/-!
# Extents

The slots of a plan end within its arena, and the arena of a plan ends at an address. So nothing
that is added up from a plan is too large for an address, neither the ends of slots nor the bytes
that are taken at a position nor what a replay compares when it registers a tensor.
-/

set_option autoImplicit false

namespace TensorArena

/-- What is added up to compare two slots. -/
def Storage.overlapSums : Storage → Storage → List Nat
  | .arena left leftSize, .arena right rightSize => [right + rightSize, left + leftSize]
  | _, _ => []

theorem Storage.eq_stop_of_mem_overlapSums {left right : Storage} {sum : Nat}
    (member : sum ∈ left.overlapSums right) : sum = left.stop ∨ sum = right.stop := by
  cases left with
  | rom => cases member
  | arena offset size =>
    cases right with
    | rom => cases member
    | arena other otherSize => simpa [overlapSums, stop, or_comm] using member

/-- What is added up in a step of an execution: a tensor is compared with all that are
registered. -/
def Execution.sums {World : Type} (plan : Plan) (execution : Execution World) : Step → List Nat
  | .register tensor =>
    match plan.entry? tensor with
    | some entry => execution.context.tensors.flatMap fun registration =>
        registration.storage.overlapSums entry.storage
    | none => []
  | _ => []

namespace Plan

/-- The sizes of the slots that are taken at a position. -/
def sizesAt (plan : Plan) (position : Nat) : List Nat :=
  (plan.entries.filter fun entry => entry.interval.contains position).map
    fun entry => entry.storage.arenaSize

/-- Nothing that is added up from the plan is too large for an address. -/
structure Addresses (graph : Graph) (plan : Plan) : Prop where
  extents : ∀ entry ∈ plan.entries, ∀ start stop, entry.extent? = some (start, stop) →
    stop < sizeLimit
  totals : ∀ position, ∀ sum ∈ runningTotals 0 (plan.sizesAt position), sum < sizeLimit
  replay : ∀ (table : InstanceTable) (done : List Step) (execution : Execution Unit),
    done.foldlM (Execution.step graph plan table fun _ symbol => .idle Unit symbol)
      { context := { world := () } } = .ok execution →
      ∀ step, ∀ sum ∈ execution.sums plan step, sum < sizeLimit

end Plan

/-! ### Replays -/

/-- Every registered tensor has the storage of an entry of the plan. -/
def Execution.Stores {World : Type} (plan : Plan) (execution : Execution World) : Prop :=
  ∀ handle ∈ execution.context.handles, ∃ entry ∈ plan.entries, entry.storage = handle.storage

namespace Execution

variable {World : Type} {graph : Graph} {plan : Plan} {table : InstanceTable}
  {kernel : Nat → String → Kernel World} {execution middle : Execution World}

theorem Stores.step (stores : execution.Stores plan) {step : Step}
    (moved : execution.step graph plan table kernel step = .ok middle) : middle.Stores plan := by
  cases step with
  | declare id =>
    unfold Execution.step declare at moved
    dsimp only at moved
    split at moved
    · obtain rfl := Except.ok.inj moved
      exact stores
    · cases moved
  | construct id =>
    obtain rfl := Except.ok.inj moved
    exact stores
  | register tensor =>
    unfold Execution.step register at moved
    dsimp only at moved
    split at moved
    · rename_i entry found
      rw [(withOutcome_eq_ok moved).2]
      intro handle member
      rcases Context.mem_register_handles member with before | rfl
      · exact stores handle before
      · exact ⟨entry, List.mem_reverse.mp (List.mem_of_find?_eq_some found), rfl⟩
    · cases moved
  | enqueue position index id =>
    unfold Execution.step enqueue at moved
    dsimp only at moved
    split at moved
    · cases moved
    · split at moved
      · cases moved
      · rw [(withOutcome_eq_ok moved).2]
        unfold Stores
        rw [Context.enqueue_handles]
        exact stores
  | flush =>
    rw [(withOutcome_eq_ok moved).2]
    exact fun handle member => stores handle (execution.context.flush_handles.subset member)

theorem Stores.sums_lt (stores : execution.Stores plan)
    (small : ∀ entry ∈ plan.entries, entry.storage.stop < sizeLimit) {step : Step} {sum : Nat}
    (member : sum ∈ execution.sums plan step) : sum < sizeLimit := by
  cases step with
  | register tensor =>
    unfold sums at member
    dsimp only at member
    split at member
    · rename_i entry found
      obtain ⟨registration, registered, member⟩ := List.mem_flatMap.mp member
      rcases Storage.eq_stop_of_mem_overlapSums member with rfl | rfl
      · obtain ⟨other, listed, stored⟩ := stores _ (List.mem_map_of_mem registered)
        have below := small other listed
        rw [stored] at below
        exact below
      · exact small entry (List.mem_reverse.mp (List.mem_of_find?_eq_some found))
    · cases member
  | declare | construct | enqueue | flush => cases member

end Execution

namespace Plan.Fits

variable {graph : Graph} {lifetimes : Lifetimes} {options : ArenaOptions} {plan : Plan}

theorem addresses (fits : plan.Fits graph lifetimes options) (exact : lifetimes.Exact graph)
    (small : plan.arenaSize < sizeLimit) : plan.Addresses graph := by
  have stops : ∀ entry ∈ plan.entries, entry.storage.stop < sizeLimit :=
    fun entry member => Nat.lt_of_le_of_lt (fits.inside entry member) small
  refine ⟨?_, ?_, ?_⟩
  · intro entry member start stop extent
    rw [← PlanEntry.stop_of_extent? extent]
    exact stops entry member
  · intro position sum member
    have total := le_of_mem_runningTotals member
    rw [Nat.zero_add] at total
    exact Nat.lt_of_le_of_lt (Nat.le_trans total (fits.bytesAt_le exact position)) small
  · intro table done execution replayed step sum member
    have stores : execution.Stores plan :=
      foldlM_induction replayed (fun _ execution => execution.Stores plan) nofun
        fun _ _ _ _ _ _ stores moved => stores.step moved
    exact stores.sums_lt stops member

end Plan.Fits

namespace Graph

/-- Nothing that the planner adds up is too large for an address, for every graph, every execution
that stops after the first `count` operators and all options. The planner ends with a plan, or
because a size is too large, or because the arena is; no name that it looks up is missing. On the way
and on the plan all sums that are formed without a check are addresses. -/
theorem plan_adds_addresses (graph : Graph) (count : Nat) (options : ArenaOptions)
    (lifetimes : Lifetimes) (analysed : (graph.truncate count).lifetimes = .ok lifetimes) :
    (graph.truncate count).plan lifetimes options =
        (graph.truncate count).planByMoves lifetimes options ∧
      (∀ state move, (graph.truncate count).Makes lifetimes options state move →
        ∀ sum ∈ state.sums (graph.truncate count) lifetimes options move, sum < sizeLimit) ∧
      ((∃ plan, (graph.truncate count).plan lifetimes options = .ok plan ∧
          plan.Addresses (graph.truncate count)) ∨
        (∃ tensor, (graph.truncate count).plan lifetimes options = .error (.sizeOverflow tensor)) ∨
          ∃ tensor requested required limit liveBytes live,
            (graph.truncate count).plan lifetimes options =
              .error (.arenaOverflow tensor requested required limit liveBytes live)) := by
  have exact := Graph.lifetimes_eq_ok analysed
  generalize graph.truncate count = graph at exact ⊢
  refine ⟨plan_eq_planByMoves exact options, fun state move makes sum member =>
    makes.sums_lt exact member, ?_⟩
  cases planned : graph.plan lifetimes options with
  | ok plan =>
    obtain ⟨final, within, arenaEnd, _⟩ := (PlannerState.Within.preserves lifetimes options).plan
      exact (fun entries remaining _ => .empty options entries remaining) planned
    exact .inl ⟨plan, rfl, (plan_eq_ok exact planned).addresses exact (arenaEnd ▸ within.small)⟩
  | error error =>
    obtain ⟨state, position, tensor, makes, failed⟩ := exists_place_of_plan_eq_error exact planned
    obtain ⟨_, _, turn⟩ := makes.ready exact
    obtain ⟨_, outcome⟩ := PlannerState.place_eq_error (turn.declares.get? exact) failed
    rcases outcome with rfl | ⟨_, _, _, _, _, _, _, rfl⟩
    · exact .inr (.inl ⟨_, rfl⟩)
    · exact .inr (.inr ⟨_, _, _, _, _, _, rfl⟩)

/-- A tensor that leaves no room for another one. -/
def brimful : Graph where
  name := "brimful"
  tensors := [{ name := "x", kind := .si8, shape := [18446744073709551612] }]
  operators := []
  inputs := ["x"]
  outputs := ["x"]

theorem brimful_adds_addresses :
    ∃ lifetimes plan, (brimful.truncate 0).lifetimes = .ok lifetimes ∧
      (brimful.truncate 0).plan lifetimes {} = .ok plan ∧
      plan.arenaSize = 18446744073709551612 ∧ plan.Addresses (brimful.truncate 0) := by
  rcases (plan_adds_addresses brimful 0 {} _ rfl).2.2 with ⟨plan, planned, addresses⟩ |
    ⟨_, failed⟩ | ⟨_, _, _, _, _, _, failed⟩
  · obtain rfl := Except.ok.inj planned
    exact ⟨_, _, rfl, rfl, rfl, addresses⟩
  · cases failed
  · cases failed

end Graph

end TensorArena
