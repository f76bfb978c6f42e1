import TensorArena.Proofs.Arena.Moves

/-!
# What is known at every move

When the planner places a tensor, the tensor has been waiting, and those with slots are the ones
that come before it in the order of allocations. When it counts a reader or drops an output, the
tensor holds its storage.
-/

set_option autoImplicit false

namespace TensorArena

namespace PlannerState

/-! ### Stages -/

/-- The stages before a step. -/
def reached (step : Nat) (_ : Nat) (lifetime : Lifetime) : Option Nat :=
  if lifetime.interval.start ≤ step then some step else none

/-- The stages within a step when some of its outputs have been placed. -/
def placing (step : Nat) (done : List String) (_ : Nat) (lifetime : Lifetime) : Option Nat :=
  if lifetime.interval.start ≤ step ∨ lifetime.name ∈ done then some step else none

/-- The stages at the entry when the tensors before a position have had their turn. -/
def entering (position other : Nat) (lifetime : Lifetime) : Option Nat :=
  if other < position ∧ lifetime.role ≠ .intermediate then some 0 else none

/-- The stages within a step when it is done with some of its tensors. -/
def settled (step : Nat) (done : List String) (_ : Nat) (lifetime : Lifetime) : Option Nat :=
  if lifetime.name ∈ done then some (step + 1)
  else if lifetime.interval.start ≤ step + 1 then some step
  else none

/-! ### Moves -/

/-- It is a tensor's turn to be placed. The tensors that have been placed are those before it. -/
structure Turn (graph : Graph) (lifetimes : Lifetimes) (options : ArenaOptions)
    (state : PlannerState) (position : Nat) (tensor : Tensor) (lifetime : Lifetime)
    (stage : Nat → Lifetime → Option Nat) : Prop where
  declares : graph.Declares lifetimes position tensor lifetime
  consistent : state.Consistent graph lifetimes options (lifetime.interval.start - 1) stage
  waiting : stage position lifetime = none
  current : ∀ other otherLifetime clock, stage other otherLifetime = some clock →
    clock = lifetime.interval.start - 1
  earlier : lifetime.role ≠ .constant → ∀ other otherTensor otherLifetime,
    graph.Declares lifetimes other otherTensor otherLifetime → otherLifetime.role ≠ .constant →
      (stage other otherLifetime ≠ none ↔
        graph.AllocatedBefore otherLifetime.name lifetime.name)

/-- A step is about to be done with a tensor that it reads or writes. -/
structure InUse (graph : Graph) (lifetimes : Lifetimes) (options : ArenaOptions)
    (state : PlannerState) (step position : Nat) (name : String) (tensor : Tensor)
    (lifetime : Lifetime) (stage : Nat → Lifetime → Option Nat) : Prop where
  declares : graph.Declares lifetimes position tensor lifetime
  named : lifetime.name = name
  consistent : state.Consistent graph lifetimes options (step + 1) stage
  current : stage position lifetime = some step
  started : lifetime.interval.start ≤ step + 1
  unfinished : step < lifetime.interval.stop

/-- What is known of the state in which the planner makes a move. -/
def Ready (graph : Graph) (lifetimes : Lifetimes) (options : ArenaOptions)
    (state : PlannerState) : Move → Prop
  | .place position tensor =>
    ∃ lifetime stage, state.Turn graph lifetimes options position tensor lifetime stage
  | .read step position name | .drop step position name =>
    ∃ tensor lifetime stage,
      state.InUse graph lifetimes options step position name tensor lifetime stage

variable {graph : Graph} {lifetimes : Lifetimes} {options : ArenaOptions}
  {state after : PlannerState} {step position : Nat} {tensor : Tensor} {lifetime : Lifetime}
  {stage : Nat → Lifetime → Option Nat}

theorem Ready.arranged {move : Move} (ready : state.Ready graph lifetimes options move) :
    ∃ now, state.Arranged now := by
  cases move with
  | place position tensor =>
    obtain ⟨_, _, turn⟩ := ready
    exact ⟨_, turn.consistent.arranged⟩
  | read step position name =>
    obtain ⟨_, _, _, inUse⟩ := ready
    exact ⟨_, inUse.consistent.arranged⟩
  | drop step position name =>
    obtain ⟨_, _, _, inUse⟩ := ready
    exact ⟨_, inUse.consistent.arranged⟩

theorem Turn.unplaced (turn : state.Turn graph lifetimes options position tensor lifetime stage) :
    state.entries[position]? = some none := by
  have tracks := turn.consistent.tracks position tensor lifetime turn.declares
  rw [turn.waiting] at tracks
  exact tracks.1

/-- A tensor that is placed in its turn starts with the clock of the others. -/
theorem Turn.place (turn : state.Turn graph lifetimes options position tensor lifetime stage)
    (exact : lifetimes.Exact graph)
    (success : state.place lifetimes options position tensor = .ok after) :
    after.Consistent graph lifetimes options (lifetime.interval.start - 1) fun other lifetime' =>
      if other = position then some (lifetime.interval.start - 1) else stage other lifetime' := by
  refine turn.consistent.place exact turn.declares turn.waiting (by omega) ?_ success
  intro other otherTensor otherLifetime clock otherDeclares current
  have now := turn.current other otherLifetime clock current
  refine ⟨by omega, fun otherHeld held => ?_⟩
  apply (turn.earlier held other otherTensor otherLifetime otherDeclares otherHeld).mp
  rw [current]
  exact nofun

theorem InUse.exists_entry {name : String}
    (inUse : state.InUse graph lifetimes options step position name tensor lifetime stage) :
    ∃ entry, state.Holds position entry ∧ entry.releasedAfter = none := by
  have tracks := inUse.consistent.tracks position tensor lifetime inUse.declares
  rw [inUse.current] at tracks
  obtain ⟨⟨entry, held, records⟩, _⟩ := tracks
  refine ⟨entry, held, ?_⟩
  rw [records.releasedAfter, if_neg (Nat.not_le_of_lt inUse.unfinished)]

namespace Consistent

/-- At the entry the inputs get their slots in the order of their declaration. -/
theorem turn_entry (exact : lifetimes.Exact graph)
    (consistent : state.Consistent graph lifetimes options 0 (entering position))
    (declares : graph.Declares lifetimes position tensor lifetime)
    (boundary : lifetime.role ≠ .intermediate) :
    state.Turn graph lifetimes options position tensor lifetime (entering position) := by
  obtain ⟨named, known⟩ := declares.pair exact
  have start := known.start_eq_zero_iff.mpr boundary
  refine ⟨declares, by rw [start]; exact consistent, by simp [entering], ?_, ?_⟩
  · intro other otherLifetime clock current
    unfold entering at current
    split at current
    · rw [start]
      exact (Option.some.inj current).symm
    · cases current
  · intro held other otherTensor otherLifetime otherDeclares otherHeld
    obtain ⟨rest, order⟩ := Graph.allocationOrder_of_input declares.1
      (declares.role?_eq_input exact boundary held)
    obtain ⟨otherNamed, otherKnown⟩ := otherDeclares.pair exact
    rw [named, Graph.allocatedBefore_iff_mem exact.allocationOrder_nodup order, List.mem_map]
    simp only [entering, ne_eq, ite_eq_right_iff, reduceCtorEq, imp_false, not_not]
    constructor
    · rintro ⟨before, otherBoundary⟩
      refine ⟨otherTensor, List.mem_filter.mpr ⟨?_, ?_⟩, otherNamed.symm⟩
      · refine List.mem_of_getElem? (i := other) ?_
        rw [List.getElem?_take_of_lt before]
        exact otherDeclares.1
      · simpa using otherDeclares.role?_eq_input exact otherBoundary otherHeld
    · rintro ⟨listed, chosen, sameName⟩
      obtain ⟨inTake, input⟩ := List.mem_filter.mp chosen
      obtain ⟨index, present⟩ := List.mem_iff_getElem?.mp inTake
      have before : index < position := by
        have := (List.getElem?_eq_some_iff.mp present).1
        rw [List.length_take] at this
        omega
      rw [List.getElem?_take_of_lt before] at present
      obtain ⟨listedLifetime, listedDeclares⟩ := exact.declares_of_tensor present
      obtain rfl := otherDeclares.position_eq exact listedDeclares
        ((listedDeclares.pair exact).1.trans sameName)
      refine ⟨before, fun intermediate => ?_⟩
      have role := otherKnown.role
      rw [← sameName, intermediate] at role
      rw [role] at input
      simp at input

variable {operator : Operator}

/-- An output waits until those before it have been placed. -/
theorem placing_eq_none (exact : lifetimes.Exact graph)
    (present : graph.operators[step]? = some operator) {done rest : List String}
    (member : lifetime ∈ lifetimes.tensors)
    (whole : operator.outputs = done ++ lifetime.name :: rest) (position : Nat) :
    placing step done position lifetime = none := by
  have written : graph.Writes step lifetime.name := ⟨operator, present, by simp [whole]⟩
  have started := (exact.exact_of_mem member).start_of_writes written
  have fresh : lifetime.name ∉ done := by
    have distinct := exact.outputs operator (List.mem_of_getElem? present)
    rw [whole] at distinct
    exact fun listed => (List.nodup_append.mp distinct).2.2 _ listed _ (by simp) rfl
  simp [placing, started, fresh]

/-- A step allocates its outputs in their order. -/
theorem turn_output (exact : lifetimes.Exact graph)
    (present : graph.operators[step]? = some operator) {done rest : List String}
    (whole : operator.outputs = done ++ lifetime.name :: rest)
    (consistent : state.Consistent graph lifetimes options step (placing step done))
    (declares : graph.Declares lifetimes position tensor lifetime) :
    state.Turn graph lifetimes options position tensor lifetime (placing step done) := by
  have member := List.mem_of_getElem? declares.2
  have started := (declares.pair exact).2.start_of_writes ⟨operator, present, by simp [whole]⟩
  have clock : lifetime.interval.start - 1 = step := by omega
  obtain ⟨later, order⟩ := Graph.allocationOrder_of_output present whole
  refine ⟨declares, by rw [clock]; exact consistent,
    placing_eq_none exact present member whole position, ?_, ?_⟩
  · intro other otherLifetime current reached
    unfold placing at reached
    split at reached
    · rw [clock]
      exact (Option.some.inj reached).symm
    · cases reached
  · intro _ other otherTensor otherLifetime otherDeclares otherHeld
    rw [Graph.allocatedBefore_iff_mem exact.allocationOrder_nodup order, List.mem_append,
      exact.mem_allocated_iff (List.mem_of_getElem? otherDeclares.2) otherHeld]
    simp only [placing, ne_eq, ite_eq_right_iff, reduceCtorEq, imp_false, not_not]

variable {done : List String}

theorem inUse_input (exact : lifetimes.Exact graph)
    (consistent : state.Consistent graph lifetimes options (step + 1) (settled step done))
    (declares : graph.Declares lifetimes position tensor lifetime)
    (reads : graph.Reads step lifetime.name) (fresh : lifetime.name ∉ done) :
    state.InUse graph lifetimes options step position lifetime.name tensor lifetime
      (settled step done) := by
  have known := (declares.pair exact).2
  have started := Nat.le_succ_of_le (known.start_le_of_reads reads)
  exact ⟨declares, rfl, consistent, by simp [settled, fresh, started], started,
    known.lt_stop_of_reads reads⟩

theorem inUse_output (exact : lifetimes.Exact graph)
    (consistent : state.Consistent graph lifetimes options (step + 1) (settled step done))
    (declares : graph.Declares lifetimes position tensor lifetime)
    (writes : graph.Writes step lifetime.name) (fresh : lifetime.name ∉ done) :
    state.InUse graph lifetimes options step position lifetime.name tensor lifetime
      (settled step done) := by
  have known := (declares.pair exact).2
  have started := known.start_of_writes writes
  have lasts := known.start_le_stop
  exact ⟨declares, rfl, consistent, by simp [settled, fresh, started], Nat.le_of_eq started,
    by omega⟩

end Consistent

end PlannerState

end TensorArena
