import TensorArena.Proofs.Arena.Arrangement

/-!
# Lowest offsets

A slot is taken at the lowest offset that is free. At any lower one it would share an address with
a slot that was taken earlier and is not given back before the live interval of the later one
starts.
-/

set_option autoImplicit false

namespace TensorArena

/-- The slot of another tensor stands in the way of a tensor at a place: it was taken earlier, it is
kept until the live interval of the tensor starts, and it has an address of the place. -/
structure PlanEntry.Blocked (before : String → String → Prop) (entry : PlanEntry) (place : Storage)
    (other : PlanEntry) : Prop where
  earlier : before other.name entry.name
  kept : entry.interval.start ≤ other.interval.stop
  overlap : place.overlaps other.storage = true

namespace PlannerState

variable {before : String → String → Prop} {state after : PlannerState}

/-- At any offset below its own, a slot that has been taken would be blocked. -/
def Lowest (before : String → String → Prop) (state : PlannerState) : Prop :=
  ∀ position entry, state.Holds position entry → ∀ offset size,
    entry.storage = .arena offset size → 0 < size → ∀ lower < offset,
      ∃ i other, state.Holds i other ∧ entry.Blocked before (.arena lower size) other

namespace Lowest

theorem of_entries (lowest : state.Lowest before) (same : after.entries = state.entries) :
    after.Lowest before := by
  unfold Lowest Holds at lowest ⊢
  rw [same]
  exact lowest

/-- Among the tensors that hold a slot are all that were placed and not yet released. -/
theorem place {now position : Nat} {storage : Storage} {available : Option Nat}
    {middle : PlannerState} {entry : PlanEntry} (lowest : state.Lowest before)
    (arranged : state.Arranged now) (allocated : Allocated state storage available middle)
    (unplaced : state.entries[position]? = some none)
    (entries : after.entries = middle.entries.set position (some entry))
    (stored : entry.storage = storage)
    (holding : storage ≠ .rom → ∀ i other, state.Holds i other → other.releasedAfter = none →
      other.storage ≠ .rom →
        before other.name entry.name ∧ entry.interval.start ≤ other.interval.stop) :
    after.Lowest before := by
  have written : after.entries = state.entries.set position (some entry) := by
    rw [entries, allocated.entries]
  intro i other placed offset size isArena positive lower below
  rcases (holds_set_iff unplaced written).mp placed with ⟨rfl, rfl⟩ | ⟨_, held⟩
  · obtain ⟨address, covers, inside, taken⟩ :=
      allocated.lowest offset size (stored.symm.trans isArena) positive lower below
    -- An address of the arena that is in no gap belongs to a slot.
    rcases arranged.complete address inside with ⟨step, free⟩ | ⟨j, blocking, held, kept, covered⟩
    · exact absurd free (taken step)
    · have own : storage ≠ .rom := by
        rw [← stored, isArena]
        exact nofun
      obtain ⟨earlier, overlapping⟩ := holding own j blocking held kept covered.ne_rom
      exact ⟨j, blocking, held.of_set unplaced written, earlier, overlapping,
        (Storage.overlaps_iff _ _).mpr ⟨address, covers, covered⟩⟩
  · obtain ⟨j, blocking, heldToo, blocked⟩ :=
      lowest i other held offset size isArena positive lower below
    exact ⟨j, blocking, heldToo.of_set unplaced written, blocked⟩

/-- A release changes no slot. -/
theorem release {position : Nat} {entry : PlanEntry} (lowest : state.Lowest before)
    (held : state.Holds position entry) (step : Nat) :
    (state.release position step).Lowest before := by
  intro i other placed offset size isArena positive lower below
  obtain ⟨former, heldFormer, named, interval, stored⟩ := held.exists_before_release placed
  obtain ⟨j, blocking, heldBlocking, blocked⟩ :=
    lowest i former heldFormer offset size (stored.trans isArena) positive lower below
  obtain ⟨changed, heldChanged, sameName, sameInterval, sameStorage⟩ :=
    held.exists_after_release step heldBlocking
  refine ⟨j, changed, heldChanged, ?_, ?_, ?_⟩
  · rw [← named, sameName]
    exact blocked.earlier
  · rw [← interval, sameInterval]
    exact blocked.kept
  · rw [sameStorage]
    exact blocked.overlap

end Lowest

end PlannerState

end TensorArena
