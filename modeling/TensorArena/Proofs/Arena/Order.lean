import Mathlib.Data.List.Nodup
import TensorArena.Proofs.Lifetime.Interval

/-!
# The order of allocations

The inputs of a graph get their slots at the entry, in the order of their declaration. Then every
step allocates its outputs in their order. So a tensor gets its slot no later than any tensor whose
live interval starts later.
-/

set_option autoImplicit false

namespace TensorArena

/-- Two items of a list without repetition stand in one order only. -/
theorem not_sublist_swap {α : Type} {items : List α} (distinct : items.Nodup) {first second : α}
    (forth : [first, second].Sublist items) : ¬ [second, first].Sublist items := by
  induction items with
  | nil => cases forth
  | cons item rest ih =>
    obtain ⟨fresh, distinct⟩ := List.nodup_cons.mp distinct
    intro back
    rcases List.sublist_cons_iff.mp forth with inRest | ⟨_, same, inRest⟩
    · have present : second ∈ rest := inRest.subset (by simp)
      rcases List.sublist_cons_iff.mp back with backRest | ⟨_, same, _⟩
      · exact ih distinct inRest backRest
      · exact fresh ((List.cons.inj same).1 ▸ present)
    · obtain ⟨rfl, rfl⟩ := List.cons.inj same
      have present := List.singleton_sublist.mp inRest
      rcases List.sublist_cons_iff.mp back with backRest | ⟨_, same, _⟩
      · exact fresh (backRest.subset (by simp))
      · exact fresh ((List.cons.inj same).1 ▸ present)

namespace Graph

/-- The inputs with slots in the arena, in the order of their declaration. -/
def arenaInputs (graph : Graph) : List String :=
  (graph.tensors.filter fun tensor => graph.role? tensor.name = some .input).map Tensor.name

/-- The tensors with slots in the arena, in the order in which they get them. -/
def allocationOrder (graph : Graph) : List String :=
  graph.arenaInputs ++ graph.operators.flatMap Operator.outputs

/-- The one tensor gets its slot before the other. -/
def AllocatedBefore (graph : Graph) (earlier later : String) : Prop :=
  [earlier, later].Sublist graph.allocationOrder

/-- The inputs that are declared before an input are allocated before it. -/
theorem allocationOrder_of_input {graph : Graph} {position : Nat} {tensor : Tensor}
    (present : graph.tensors[position]? = some tensor)
    (input : graph.role? tensor.name = some .input) :
    ∃ rest, graph.allocationOrder = ((graph.tensors.take position).filter fun tensor =>
      graph.role? tensor.name = some .input).map Tensor.name ++ tensor.name :: rest := by
  have split : graph.tensors = graph.tensors.take position ++
      tensor :: graph.tensors.drop (position + 1) := by
    obtain ⟨inside, rfl⟩ := List.getElem?_eq_some_iff.mp present
    rw [← List.drop_eq_getElem_cons inside, List.take_append_drop]
  have inputs : graph.arenaInputs = ((graph.tensors.take position ++
      tensor :: graph.tensors.drop (position + 1)).filter fun tensor =>
        graph.role? tensor.name = some .input).map Tensor.name := split ▸ rfl
  rw [allocationOrder, inputs, List.filter_append, List.filter_cons_of_pos (by simpa using input),
    List.map_append, List.map_cons, List.append_assoc, List.cons_append]
  exact ⟨_, rfl⟩

theorem allocationOrder_split (graph : Graph) (steps : Nat) :
    graph.allocationOrder =
      (graph.arenaInputs ++ (graph.operators.take steps).flatMap Operator.outputs) ++
        (graph.operators.drop steps).flatMap Operator.outputs := by
  rw [allocationOrder, List.append_assoc, ← List.flatMap_append, List.take_append_drop]

/-- The outputs of a step are allocated after the inputs and the outputs of earlier steps. -/
theorem allocationOrder_of_output {graph : Graph} {step : Nat} {operator : Operator}
    (present : graph.operators[step]? = some operator) {done rest : List String} {name : String}
    (whole : operator.outputs = done ++ name :: rest) :
    ∃ later, graph.allocationOrder =
      (graph.arenaInputs ++ (graph.operators.take step).flatMap Operator.outputs ++ done) ++
        name :: later := by
  have next : graph.operators.drop step = operator :: graph.operators.drop (step + 1) := by
    obtain ⟨inside, rfl⟩ := List.getElem?_eq_some_iff.mp present
    exact List.drop_eq_getElem_cons inside
  rw [graph.allocationOrder_split step, next, List.flatMap_cons, whole]
  exact ⟨rest ++ (graph.operators.drop (step + 1)).flatMap Operator.outputs, by simp⟩

/-- Before a tensor come those that stand before it. -/
theorem allocatedBefore_iff_mem {graph : Graph} (distinct : graph.allocationOrder.Nodup)
    {done rest : List String} {earlier later : String}
    (order : graph.allocationOrder = done ++ later :: rest) :
    graph.AllocatedBefore earlier later ↔ earlier ∈ done := by
  constructor
  · intro before
    have listed : earlier ∈ done ++ later :: rest := order ▸ before.subset List.mem_cons_self
    rcases List.mem_append.mp listed with inDone | behind
    · exact inDone
    · rcases List.mem_cons.mp behind with rfl | inRest
      · have twice := distinct.sublist before
        simp at twice
      · have after : [later, earlier].Sublist graph.allocationOrder := by
          rw [order]
          exact (List.Sublist.cons_cons later (List.singleton_sublist.mpr inRest)).trans
            (List.sublist_append_right done _)
        exact absurd before (not_sublist_swap distinct after)
  · intro inDone
    unfold AllocatedBefore
    rw [order, ← List.singleton_append]
    exact (List.singleton_sublist.mpr inDone).append
      (List.singleton_sublist.mpr List.mem_cons_self)

theorem mem_take_outputs_iff {graph : Graph} {steps : Nat} {name : String} :
    name ∈ (graph.operators.take steps).flatMap Operator.outputs ↔
      ∃ step < steps, graph.Writes step name := by
  rw [List.mem_flatMap]
  constructor
  · rintro ⟨operator, listed, written⟩
    obtain ⟨step, inside, rfl⟩ := List.getElem_of_mem listed
    rw [List.length_take] at inside
    refine ⟨step, by omega, _, ?_, written⟩
    rw [List.getElem_take, List.getElem?_eq_getElem (by omega)]
  · rintro ⟨step, inside, operator, present, written⟩
    refine ⟨operator, List.mem_of_getElem? (i := step) ?_, written⟩
    rw [List.getElem?_take_of_lt inside]
    exact present

theorem mem_drop_outputs_iff {graph : Graph} {steps : Nat} {name : String} :
    name ∈ (graph.operators.drop steps).flatMap Operator.outputs ↔
      ∃ step, steps ≤ step ∧ graph.Writes step name := by
  rw [List.mem_flatMap]
  constructor
  · rintro ⟨operator, listed, written⟩
    obtain ⟨index, inside, rfl⟩ := List.getElem_of_mem listed
    rw [List.length_drop] at inside
    refine ⟨steps + index, Nat.le_add_right _ _, _, ?_, written⟩
    rw [List.getElem_drop, List.getElem?_eq_getElem (by omega)]
  · rintro ⟨step, inside, operator, present, written⟩
    refine ⟨operator, List.mem_of_getElem? (i := step - steps) ?_, written⟩
    rw [List.getElem?_drop, Nat.add_sub_cancel' inside]
    exact present

end Graph

namespace Lifetimes.Exact

variable {graph : Graph} {lifetimes : Lifetimes} {lifetime earlier later : Lifetime}

theorem mem_arenaInputs_iff (exact : lifetimes.Exact graph)
    (member : lifetime ∈ lifetimes.tensors) :
    lifetime.name ∈ graph.arenaInputs ↔ lifetime.role = .input := by
  have known := (exact.exact_of_mem member).role
  have declared : lifetime.name ∈ graph.tensors.map Tensor.name :=
    exact.names ▸ List.mem_map_of_mem member
  unfold Graph.arenaInputs
  constructor
  · intro listed
    obtain ⟨tensor, chosen, same⟩ := List.mem_map.mp listed
    have input : graph.role? tensor.name = some .input := by
      simpa using (List.mem_filter.mp chosen).2
    rw [same, known] at input
    exact Option.some.inj input
  · intro input
    obtain ⟨tensor, isTensor, same⟩ := List.mem_map.mp declared
    refine List.mem_map.mpr ⟨tensor, List.mem_filter.mpr ⟨isTensor, ?_⟩, same⟩
    simp [same, known, input]

/-- The tensors that have their slots before a step are those whose live intervals have started. -/
theorem mem_allocated_iff (exact : lifetimes.Exact graph) (member : lifetime ∈ lifetimes.tensors)
    (held : lifetime.role ≠ .constant) (steps : Nat) :
    lifetime.name ∈
        graph.arenaInputs ++ (graph.operators.take steps).flatMap Operator.outputs ↔
      lifetime.interval.start ≤ steps := by
  have known := exact.exact_of_mem member
  rw [List.mem_append, exact.mem_arenaInputs_iff member, Graph.mem_take_outputs_iff]
  constructor
  · rintro (input | ⟨step, inside, written⟩)
    · rw [known.start_eq_zero_iff.mpr (by simp [input])]
      exact Nat.zero_le _
    · rw [known.start_of_writes written]
      exact inside
  · intro started
    cases start : lifetime.interval.start with
    | zero =>
      have role := known.start_eq_zero_iff.mp start
      cases isRole : lifetime.role with
      | input => exact .inl rfl
      | constant => exact absurd isRole held
      | intermediate => exact absurd isRole role
    | succ step => exact .inr ⟨step, by omega, known.writes_of_start start⟩

theorem mem_unallocated_iff (exact : lifetimes.Exact graph)
    (member : lifetime ∈ lifetimes.tensors) (steps : Nat) :
    lifetime.name ∈ (graph.operators.drop steps).flatMap Operator.outputs ↔
      steps < lifetime.interval.start := by
  have known := exact.exact_of_mem member
  rw [Graph.mem_drop_outputs_iff]
  constructor
  · rintro ⟨step, late, written⟩
    rw [known.start_of_writes written]
    exact Nat.lt_succ_of_le late
  · intro late
    cases start : lifetime.interval.start with
    | zero => omega
    | succ step => exact ⟨step, by omega, known.writes_of_start start⟩

/-- Exactly the tensors outside the constants get slots. -/
theorem mem_allocationOrder (exact : lifetimes.Exact graph)
    (member : lifetime ∈ lifetimes.tensors) (held : lifetime.role ≠ .constant) :
    lifetime.name ∈ graph.allocationOrder := by
  rw [graph.allocationOrder_split graph.operators.length, List.mem_append]
  exact .inl ((exact.mem_allocated_iff member held _).mpr
    (exact.exact_of_mem member).start_le_length)

/-- No tensor gets two slots. -/
theorem allocationOrder_nodup (exact : lifetimes.Exact graph) : graph.allocationOrder.Nodup := by
  have inputs : graph.arenaInputs.Nodup :=
    exact.distinct.sublist (List.filter_sublist.map Tensor.name)
  refine List.nodup_append.mpr ⟨inputs, exact.outputs_nodup, ?_⟩
  rintro name isInput _ isOutput rfl
  obtain ⟨operator, listed, written⟩ := List.mem_flatMap.mp isOutput
  obtain ⟨step, present⟩ := List.mem_iff_getElem?.mp listed
  have writes : graph.Writes step name := ⟨operator, present, written⟩
  obtain ⟨lifetime, member, rfl⟩ := exact.exists_of_writes writes
  have input := (exact.mem_arenaInputs_iff member).mp isInput
  have started := (exact.exact_of_mem member).start_of_writes writes
  have entry := (exact.exact_of_mem member).start_eq_zero_iff.mpr (by simp [input])
  omega

/-- A live interval that starts earlier belongs to an earlier slot. -/
theorem allocatedBefore_of_start_lt (exact : lifetimes.Exact graph)
    (inEarlier : earlier ∈ lifetimes.tensors) (inLater : later ∈ lifetimes.tensors)
    (held : earlier.role ≠ .constant) (before : earlier.interval.start < later.interval.start) :
    graph.AllocatedBefore earlier.name later.name := by
  unfold Graph.AllocatedBefore
  rw [graph.allocationOrder_split earlier.interval.start, ← List.singleton_append]
  exact (List.singleton_sublist.mpr
    ((exact.mem_allocated_iff inEarlier held _).mpr (Nat.le_refl _))).append
    (List.singleton_sublist.mpr ((exact.mem_unallocated_iff inLater _).mpr before))

theorem start_le_of_allocatedBefore (exact : lifetimes.Exact graph)
    (inEarlier : earlier ∈ lifetimes.tensors) (inLater : later ∈ lifetimes.tensors)
    (held : later.role ≠ .constant) (before : graph.AllocatedBefore earlier.name later.name) :
    earlier.interval.start ≤ later.interval.start := by
  by_contra after
  exact not_sublist_swap exact.allocationOrder_nodup before
    (exact.allocatedBefore_of_start_lt inLater inEarlier held (Nat.lt_of_not_le after))

end Lifetimes.Exact

end TensorArena
