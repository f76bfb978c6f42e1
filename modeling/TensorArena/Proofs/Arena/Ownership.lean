import TensorArena.Proofs.Arena.Layout

/-!
# Ownership of addresses

At every position an address of the arena belongs to one live tensor at most. So a plan passes its
own check, and the arena is no smaller than the peak and no larger than all slots together.
-/

set_option autoImplicit false

namespace TensorArena

theorem foldl_max_le_iff {values : List Nat} {start bound : Nat} :
    values.foldl max start ≤ bound ↔ start ≤ bound ∧ ∀ value ∈ values, value ≤ bound := by
  induction values generalizing start with
  | nil => simp
  | cons value rest ih =>
    rw [List.foldl_cons, ih, List.forall_mem_cons, Nat.max_le, and_assoc]

theorem PlanEntry.stop_of_extent? {entry : PlanEntry} {start stop : Nat}
    (extent : entry.extent? = some (start, stop)) : entry.storage.stop = stop := by
  unfold extent? at extent
  cases stored : entry.storage with
  | rom =>
    rw [stored] at extent
    cases extent
  | arena offset size =>
    rw [stored] at extent
    obtain ⟨_, rfl⟩ := Prod.mk.inj (Option.some.inj extent)
    rfl

namespace Plan

theorem conflictIn?_eq_none_iff {entries : List PlanEntry} :
    conflictIn? entries = none ↔
      entries.Pairwise fun left right => left.conflicts right = false := by
  induction entries with
  | nil => simp [conflictIn?]
  | cons entry rest ih =>
    rw [conflictIn?, List.pairwise_cons]
    cases found : rest.find? entry.conflicts with
    | none =>
      rw [List.find?_eq_none] at found
      change conflictIn? rest = none ↔ _
      rw [ih]
      exact ⟨fun apart => ⟨fun other member => Bool.eq_false_iff.mpr (found other member),
        apart⟩, And.right⟩
    | some other =>
      have member := List.mem_of_find?_eq_some found
      have conflict := List.find?_some found
      simp only [reduceCtorEq, false_iff, not_and]
      intro free
      rw [free other member] at conflict
      cases conflict

theorem verify_eq_ok_iff {plan : Plan} :
    plan.verify = .ok () ↔
      plan.entries.Pairwise fun left right => left.conflicts right = false := by
  rw [← conflictIn?_eq_none_iff]
  unfold verify conflict?
  split
  · rename_i found
    simp [found]
  · rename_i found
    simp [found]

namespace Fits

variable {graph : Graph} {lifetimes : Lifetimes} {options : ArenaOptions} {plan : Plan}

/-- The tensors that are live at a position own their slots alone. -/
theorem pairwise_apart (fits : plan.Fits graph lifetimes options) (exact : lifetimes.Exact graph)
    (position : Nat) :
    (plan.entries.filter fun entry => entry.interval.contains position).Pairwise
      fun left right =>
        ∀ address, left.storage.Covers address → ¬ right.storage.Covers address := by
  rw [List.pairwise_filter, List.pairwise_iff_getElem]
  intro i j boundLeft boundRight below inLeft inRight
  refine fits.disjoint exact (Nat.ne_of_lt below) (List.getElem?_eq_getElem boundLeft)
    (List.getElem?_eq_getElem boundRight) ?_
  simp only [Interval.contains, Interval.overlaps, Bool.and_eq_true, decide_eq_true_eq] at *
  omega

theorem verify (fits : plan.Fits graph lifetimes options) (exact : lifetimes.Exact graph) :
    plan.verify = .ok () := by
  rw [verify_eq_ok_iff, List.pairwise_iff_getElem]
  intro i j boundLeft boundRight below
  unfold PlanEntry.conflicts
  rw [Bool.and_eq_false_imp]
  intro together
  rw [← Bool.not_eq_true, Storage.overlaps_iff]
  rintro ⟨address, covers, covered⟩
  exact fits.disjoint exact (Nat.ne_of_lt below) (List.getElem?_eq_getElem boundLeft)
    (List.getElem?_eq_getElem boundRight) together address covers covered

theorem bytesAt_le (fits : plan.Fits graph lifetimes options) (exact : lifetimes.Exact graph)
    (position : Nat) : plan.bytesAt position ≤ plan.arenaSize := by
  have apart := fits.pairwise_apart exact position
  have bounded := totalSize_le_of_apart (List.pairwise_map.mpr apart) plan.arenaSize (by
      intro storage member
      obtain ⟨entry, listed, rfl⟩ := List.mem_map.mp member
      exact fits.inside entry (List.mem_filter.mp listed).1)
  rw [List.map_map] at bounded
  exact bounded

theorem peakBytes_le (fits : plan.Fits graph lifetimes options) (exact : lifetimes.Exact graph) :
    plan.peakBytes ≤ plan.arenaSize := by
  unfold peakBytes
  refine foldl_max_le_iff.mpr ⟨Nat.zero_le _, ?_⟩
  intro bytes member
  obtain ⟨position, _, rfl⟩ := List.mem_map.mp member
  exact fits.bytesAt_le exact position

/-- The arena ends where the last of its slots does. -/
theorem arenaSize_eq (fits : plan.Fits graph lifetimes options) :
    plan.arenaSize = ((plan.entries.filterMap PlanEntry.extent?).map Prod.snd).foldl max 0 := by
  apply Nat.le_antisymm
  · rcases fits.reached with empty | ⟨entry, member, atEnd⟩
    · omega
    · rw [← atEnd]
      cases storage : entry.storage with
      | rom => exact Nat.zero_le _
      | arena offset size =>
        refine (foldl_max_le_iff.mp (Nat.le_refl _)).2 _ (List.mem_map.mpr
          ⟨(offset, offset + size), List.mem_filterMap.mpr ⟨entry, member, ?_⟩, rfl⟩)
        rw [PlanEntry.extent?, storage, Storage.extent?]
  · refine foldl_max_le_iff.mpr ⟨Nat.zero_le _, ?_⟩
    intro stop listed
    obtain ⟨⟨start, stop⟩, isExtent, rfl⟩ := List.mem_map.mp listed
    obtain ⟨entry, member, extent⟩ := List.mem_filterMap.mp isExtent
    rw [← PlanEntry.stop_of_extent? extent]
    exact fits.inside entry member

end Fits

end Plan

/-- No address of the arena is owned twice. At each position of an execution that stops after the
first `count` operators, the live tensors have slots without a common address, and all slots lie
inside the arena. The plan passes its check, its peak fits, and the arena is exactly as large as its
last slot demands. -/
theorem Graph.plan_owns_once (graph : Graph) (count : Nat) (options : ArenaOptions)
    (lifetimes : Lifetimes) (plan : Plan)
    (analysed : (graph.truncate count).lifetimes = .ok lifetimes)
    (planned : (graph.truncate count).plan lifetimes options = .ok plan) :
    plan.entries.map PlanEntry.interval = lifetimes.tensors.map Lifetime.interval ∧
      (∀ position, (plan.entries.filter fun entry => entry.interval.contains position).Pairwise
        fun left right => ∀ address, left.storage.Covers address → ¬ right.storage.Covers address) ∧
      (∀ entry ∈ plan.entries, ∀ start stop, entry.extent? = some (start, stop) →
        start ≤ stop ∧ stop ≤ plan.arenaSize) ∧
      plan.verify = .ok () ∧
      plan.peakBytes ≤ plan.arenaSize ∧
      plan.arenaSize ≤ totalSize (plan.entries.map fun entry => entry.storage.arenaSize) ∧
      plan.arenaSize = ((plan.entries.filterMap PlanEntry.extent?).map Prod.snd).foldl max 0 := by
  have exact := Graph.lifetimes_eq_ok analysed
  have fits := Graph.plan_eq_ok exact planned
  refine ⟨fits.intervals exact, fits.pairwise_apart exact, ?_, fits.verify exact,
    fits.peakBytes_le exact, fits.taken, fits.arenaSize_eq⟩
  intro entry member start stop extent
  have inside := fits.inside entry member
  unfold PlanEntry.extent? at extent
  cases storage : entry.storage with
  | rom =>
    rw [storage] at extent
    cases extent
  | arena offset size =>
    rw [storage] at extent inside
    obtain ⟨rfl, rfl⟩ := Prod.mk.inj (Option.some.inj extent)
    exact ⟨Nat.le_add_right _ _, inside⟩

/-- Three operators in a row, the last of which reads its operand twice. Two slots serve its four
tensors outside the constant. -/
def Graph.relay : Graph where
  name := "relay"
  tensors := [
    { name := "x", kind := .si8, shape := [4] },
    { name := "w", kind := .si8, shape := [4], data := some (.ints [1, 2, 3, 4]) },
    { name := "s", kind := .si8, shape := [4] },
    { name := "t", kind := .si8, shape := [4] },
    { name := "y", kind := .si8, shape := [4] }]
  operators := [
    { opType := "Add", inputs := ["x", "w"], outputs := ["s"] },
    { opType := "ReLU", inputs := ["s"], outputs := ["t"] },
    { opType := "Add", inputs := ["t", "t"], outputs := ["y"] }]
  inputs := ["x"]
  outputs := ["y"]

theorem Graph.relay_owns_once :
    ∃ lifetimes plan, (relay.truncate 3).lifetimes = .ok lifetimes ∧
      (relay.truncate 3).plan lifetimes {} = .ok plan ∧ plan.verify = .ok () ∧
      plan.peakBytes ≤ 8 ∧ totalSize (plan.entries.map fun entry => entry.storage.arenaSize) = 16 :=
  ⟨_, _, rfl, rfl, (plan_owns_once relay 3 {} _ _ rfl rfl).2.2.2.1,
    (plan_owns_once relay 3 {} _ _ rfl rfl).2.2.2.2.1, rfl⟩

end TensorArena
