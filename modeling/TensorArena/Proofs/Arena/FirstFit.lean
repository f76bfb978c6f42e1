import Mathlib.Order.Bounds.Basic
import TensorArena.Proofs.Arena.Ownership

/-!
# First fit

The planner keeps a list of gaps, and takes a slot from the first one that fits or lets the arena
grow. That list makes no difference to where a slot ends up: every slot is at the lowest offset at
which it meets none of the slots that are held when it is taken.
-/

set_option autoImplicit false

namespace TensorArena

/-- The slot of a tensor is still held when another tensor gets its own. A step gives slots back
after it has allocated its outputs, and at the entry none has been given back. -/
def PlanEntry.HeldFor (graph : Graph) (entry other : PlanEntry) : Prop :=
  ∀ step released, graph.Writes step entry.name → other.releasedAfter = some released →
    step ≤ released

/-- The offsets at which a tensor meets none of the slots that were allocated before its own and
are held at that moment. No end of the arena limits them. -/
def Plan.freeOffsets (plan : Plan) (graph : Graph) (entry : PlanEntry) (size : Nat) : Set Nat :=
  { offset | ∀ other ∈ plan.entries, graph.AllocatedBefore other.name entry.name →
    entry.HeldFor graph other → (Storage.arena offset size).overlaps other.storage = false }

namespace Plan.Fits

variable {graph : Graph} {lifetimes : Lifetimes} {options : ArenaOptions} {plan : Plan}
  {entry other : PlanEntry}

/-- A slot is held up to the end of the live interval of its tensor. -/
theorem heldFor_iff (fits : plan.Fits graph lifetimes options) (exact : lifetimes.Exact graph)
    (member : entry ∈ plan.entries) (isOther : other ∈ plan.entries) :
    entry.HeldFor graph other ↔ entry.interval.start ≤ other.interval.stop := by
  obtain ⟨lifetime, inLifetimes, _, records⟩ := fits.lifetime_of_mem exact member
  obtain ⟨lifetimeOther, otherInLifetimes, _, recordsOther⟩ := fits.lifetime_of_mem exact isOther
  have known := exact.exact_of_mem inLifetimes
  have inside := known.start_le_length
  have positive := (exact.exact_of_mem otherInLifetimes).stop_pos
  unfold PlanEntry.HeldFor
  rw [records.name, records.interval, recordsOther.interval, recordsOther.releasedAfter]
  constructor
  · intro held
    cases start : lifetime.interval.start with
    | zero => exact Nat.zero_le _
    | succ step =>
      by_cases ended : lifetimeOther.interval.stop ≤ graph.operators.length
      · have := held step _ (known.writes_of_start start) (if_pos ended)
        omega
      · omega
  · intro kept step released written given
    rw [known.start_of_writes written] at kept
    by_cases ended : lifetimeOther.interval.stop ≤ graph.operators.length
    · rw [if_pos ended] at given
      have := Option.some.inj given
      omega
    · rw [if_neg ended] at given
      cases given

/-- Two tensors that get slots one after the other have live intervals that start in this order. -/
theorem start_le_of_allocatedBefore (fits : plan.Fits graph lifetimes options)
    (exact : lifetimes.Exact graph) (member : entry ∈ plan.entries)
    (isOther : other ∈ plan.entries) (inArena : entry.storage ≠ .rom)
    (before : graph.AllocatedBefore other.name entry.name) :
    other.interval.start ≤ entry.interval.start := by
  obtain ⟨lifetime, inLater, _, records⟩ := fits.lifetime_of_mem exact member
  obtain ⟨lifetimeOther, inEarlier, _, recordsOther⟩ := fits.lifetime_of_mem exact isOther
  rw [records.name, recordsOther.name] at before
  rw [records.interval, recordsOther.interval]
  exact exact.start_le_of_allocatedBefore inEarlier inLater (mt records.constant inArena) before

theorem mem_allocationOrder (fits : plan.Fits graph lifetimes options)
    (exact : lifetimes.Exact graph) (member : entry ∈ plan.entries)
    (inArena : entry.storage ≠ .rom) : entry.name ∈ graph.allocationOrder := by
  obtain ⟨lifetime, inLifetimes, _, records⟩ := fits.lifetime_of_mem exact member
  rw [records.name]
  exact exact.mem_allocationOrder inLifetimes (mt records.constant inArena)

/-- The slot of a tensor meets none of those that are held when it is taken. -/
theorem mem_freeOffsets (fits : plan.Fits graph lifetimes options) (exact : lifetimes.Exact graph)
    (member : entry ∈ plan.entries) {offset size : Nat}
    (isArena : entry.storage = .arena offset size) :
    offset ∈ plan.freeOffsets graph entry size := by
  have inArena : entry.storage ≠ .rom := by
    rw [isArena]
    exact nofun
  intro other isOther before held
  have order := fits.start_le_of_allocatedBefore exact member isOther inArena before
  have kept := (fits.heldFor_iff exact member isOther).mp held
  obtain ⟨lifetime, inLifetimes, _, records⟩ := fits.lifetime_of_mem exact member
  have lasts := (exact.exact_of_mem inLifetimes).start_le_stop
  rw [← records.interval] at lasts
  have together : entry.interval.overlaps other.interval = true := by
    simp only [Interval.overlaps, Bool.and_eq_true, decide_eq_true_eq]
    omega
  have unlike : entry ≠ other := by
    rintro rfl
    exact not_sublist_swap exact.allocationOrder_nodup before before
  obtain ⟨i, j, apart, found, foundOther⟩ := exists_positions_of_ne member isOther unlike
  rw [← isArena, ← Bool.not_eq_true, Storage.overlaps_iff]
  rintro ⟨address, covers, covered⟩
  exact fits.disjoint exact apart found foundOther together address covers covered

/-- At any lower offset the tensor would meet a slot that is held when it gets its own. -/
theorem lowest_freeOffset (fits : plan.Fits graph lifetimes options)
    (exact : lifetimes.Exact graph) (member : entry ∈ plan.entries) {offset size : Nat}
    (isArena : entry.storage = .arena offset size) (positive : 0 < size) :
    offset ∈ lowerBounds (plan.freeOffsets graph entry size) := by
  intro lower free
  by_contra below
  obtain ⟨other, isOther, blocked⟩ :=
    fits.lowest entry member offset size isArena positive lower (Nat.lt_of_not_le below)
  have apart := free other isOther blocked.earlier
    ((fits.heldFor_iff exact member isOther).mpr blocked.kept)
  rw [blocked.overlap] at apart
  cases apart

end Plan.Fits

/-- First fit with gaps agrees with a search for the lowest address. The tensors get their slots
one after the other, the inputs in the order of their declaration and then the outputs of each
step. A slot with addresses is at the lowest offset at which it meets no slot that is held when it
is taken, be that inside the arena or past its end. -/
theorem Graph.plan_lowest_offset (graph : Graph) (count : Nat) (options : ArenaOptions)
    (lifetimes : Lifetimes) (plan : Plan)
    (analysed : (graph.truncate count).lifetimes = .ok lifetimes)
    (planned : (graph.truncate count).plan lifetimes options = .ok plan) :
    (graph.truncate count).allocationOrder.Nodup ∧
      ∀ entry ∈ plan.entries, ∀ offset size, entry.storage = .arena offset size →
        entry.name ∈ (graph.truncate count).allocationOrder ∧
          (0 < size → IsLeast (plan.freeOffsets (graph.truncate count) entry size) offset) := by
  have exact := Graph.lifetimes_eq_ok analysed
  have fits := Graph.plan_eq_ok exact planned
  refine ⟨exact.allocationOrder_nodup, ?_⟩
  intro entry member offset size isArena
  constructor
  · refine fits.mem_allocationOrder exact member ?_
    rw [isArena]
    exact nofun
  · intro positive
    exact ⟨fits.mem_freeOffsets exact member isArena,
      fits.lowest_freeOffset exact member isArena positive⟩

/-- The result takes over the slot of the first of the two sums, which the second left free. -/
theorem Graph.relay_lowest_offset :
    ∃ lifetimes plan entry, (relay.truncate 3).lifetimes = .ok lifetimes ∧
      (relay.truncate 3).plan lifetimes {} = .ok plan ∧ plan.entry? "y" = some entry ∧
      entry.storage = .arena 4 4 ∧ IsLeast (plan.freeOffsets (relay.truncate 3) entry 4) 4 :=
  ⟨_, _, _, rfl, rfl, rfl, rfl,
    ((plan_lowest_offset relay 3 {} _ _ rfl rfl).2 _ (by decide) 4 4 rfl).2 (by decide)⟩

end TensorArena
