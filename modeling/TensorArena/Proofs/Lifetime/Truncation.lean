import Mathlib.Data.List.Sort
import TensorArena.Proofs.Lifetime.Interval

/-!
# Lifetimes over the first steps

An execution may stop after some of the operators. The lifetimes over these first steps say which
of them write and read each tensor, and for how long it is kept. That determines them: no other
lifetime says the same.
-/

set_option autoImplicit false

namespace TensorArena

namespace Graph

variable {graph : Graph} {count step : Nat} {name : String}

theorem truncate_length (inside : count ≤ graph.operators.length) :
    (graph.truncate count).operators.length = count :=
  List.length_take_of_le inside

theorem truncate_getElem?_eq_some_iff {operator : Operator} :
    (graph.truncate count).operators[step]? = some operator ↔
      step < count ∧ graph.operators[step]? = some operator := by
  rw [truncate, List.getElem?_take]
  split
  · rename_i early
    exact (and_iff_right early).symm
  · rename_i late
    simp [late]

theorem truncate_writes_iff :
    (graph.truncate count).Writes step name ↔ step < count ∧ graph.Writes step name := by
  simp only [Writes, truncate_getElem?_eq_some_iff, and_assoc, exists_and_left]

theorem truncate_reads_iff :
    (graph.truncate count).Reads step name ↔ step < count ∧ graph.Reads step name := by
  simp only [Reads, truncate_getElem?_eq_some_iff, and_assoc, exists_and_left]

end Graph

/-- What the first `count` operators of a graph do with a tensor, and for how long it is kept. The
operator of step `i` runs at position `i + 1`. -/
structure Lifetime.Measures (graph : Graph) (count : Nat) (lifetime : Lifetime) : Prop where
  role : graph.role? lifetime.name = some lifetime.role
  producer : ∀ step,
    lifetime.producer = some step ↔ step < count ∧ graph.Writes step lifetime.name
  /-- Inputs and constants come from outside. -/
  unwritten : lifetime.producer = none ↔ lifetime.role ≠ .intermediate
  consumers : ∀ step,
    step ∈ lifetime.consumers ↔ step < count ∧ graph.Reads step lifetime.name
  ascending : lifetime.consumers.Pairwise (· < ·)
  isOutput : lifetime.isOutput = true ↔ lifetime.name ∈ graph.outputs
  refcount : lifetime.refcount =
    lifetime.consumers.length + if lifetime.name ∈ graph.outputs then 1 else 0
  start_unwritten : lifetime.producer = none → lifetime.interval.start = 0
  start_written : ∀ step, lifetime.producer = some step → lifetime.interval.start = step + 1
  stop_output : lifetime.name ∈ graph.outputs → lifetime.interval.stop = count + 1
  stop_read : lifetime.name ∉ graph.outputs → ∀ last ∈ lifetime.consumers,
    (∀ step ∈ lifetime.consumers, step ≤ last) → lifetime.interval.stop = last + 1
  stop_unread : lifetime.name ∉ graph.outputs → lifetime.consumers = [] →
    lifetime.interval.stop = lifetime.interval.start

namespace Lifetime.Measures

variable {graph : Graph} {count : Nat} {left right : Lifetime}

theorem consumers_eq (first : left.Measures graph count) (second : right.Measures graph count)
    (same : left.name = right.name) : left.consumers = right.consumers := by
  apply first.ascending.eq_of_mem_iff second.ascending
  intro step
  rw [first.consumers, second.consumers, same]

theorem start_eq (first : left.Measures graph count) (second : right.Measures graph count)
    (produced : left.producer = right.producer) : left.interval.start = right.interval.start := by
  cases known : right.producer with
  | none => rw [first.start_unwritten (produced.trans known), second.start_unwritten known]
  | some step =>
    rw [first.start_written step (produced.trans known), second.start_written step known]

theorem stop_eq (first : left.Measures graph count) (second : right.Measures graph count)
    (same : left.name = right.name) (consumed : left.consumers = right.consumers)
    (started : left.interval.start = right.interval.start) :
    left.interval.stop = right.interval.stop := by
  by_cases output : right.name ∈ graph.outputs
  · rw [first.stop_output (same ▸ output), second.stop_output output]
  · have inner : left.name ∉ graph.outputs := same ▸ output
    rcases last_of_ascending second.ascending with unread | ⟨last, _, member, greatest⟩
    · rw [first.stop_unread inner (consumed.trans unread), second.stop_unread output unread,
        started]
    · rw [second.stop_read output last member greatest]
      rw [← consumed] at member greatest
      exact first.stop_read inner last member greatest

/-- A tensor has no other lifetime over the same steps. -/
theorem unique (first : left.Measures graph count) (second : right.Measures graph count)
    (same : left.name = right.name) : left = right := by
  have role : left.role = right.role := by
    have known := first.role
    rw [same, second.role] at known
    exact (Option.some.inj known).symm
  have produced : left.producer = right.producer := by
    apply Option.ext
    intro step
    rw [first.producer, second.producer, same]
  have consumed := first.consumers_eq second same
  have output : left.isOutput = right.isOutput := by
    rw [Bool.eq_iff_iff, first.isOutput, second.isOutput, same]
  have interval : left.interval = right.interval :=
    have started := first.start_eq second produced
    congrArg₂ Interval.mk started (first.stop_eq second same consumed started)
  have counted : left.refcount = right.refcount := by
    rw [first.refcount, second.refcount, consumed, same]
  cases left
  cases right
  rw [Lifetime.mk.injEq]
  exact ⟨same, role, produced, consumed, output, interval, counted⟩

end Lifetime.Measures

theorem Lifetime.Exact.measures {graph : Graph} {count : Nat} {lifetime : Lifetime}
    (exact : lifetime.Exact (graph.truncate count)) (inside : count ≤ graph.operators.length) :
    lifetime.Measures graph count where
  role := exact.role
  producer step := (exact.producer step).trans Graph.truncate_writes_iff
  unwritten := by
    rw [Ne, exact.intermediate, Bool.not_eq_true, Option.isSome_eq_false_iff,
      Option.isNone_iff_eq_none]
  consumers step := (exact.consumers step).trans Graph.truncate_reads_iff
  ascending := exact.ascending
  isOutput := exact.isOutput_iff
  refcount := by
    rw [exact.refcount, if_congr exact.isOutput_iff rfl rfl]
    rfl
  start_unwritten absent := by rw [exact.start, absent]; rfl
  start_written step produced := by rw [exact.start, produced]; rfl
  stop_output output := by
    rw [exact.stop_of_output (exact.isOutput_iff.mpr output), Graph.truncate_length inside]
  stop_read inner last member greatest := by
    have output := Bool.eq_false_iff.mpr (mt exact.isOutput_iff.mp inner)
    rcases exact.stop_eq output with ⟨unread, _⟩ | ⟨other, listed, above, stop⟩
    · rw [unread] at member
      cases member
    · rw [stop, Nat.le_antisymm (greatest other listed) (above last member)]
  stop_unread inner unread := by
    have output := Bool.eq_false_iff.mpr (mt exact.isOutput_iff.mp inner)
    rcases exact.stop_eq output with ⟨_, stop⟩ | ⟨other, listed, _⟩
    · exact stop
    · rw [unread] at listed
      cases listed

/-- Only one lifetime says what all operators of a graph do with a tensor. -/
theorem Lifetime.Exact.unique {graph : Graph} {left right : Lifetime} (first : left.Exact graph)
    (second : right.Exact graph) (same : left.name = right.name) : left = right := by
  have whole : graph.truncate graph.operators.length = graph := by simp [Graph.truncate]
  rw [← whole] at first second
  exact (first.measures (Nat.le_refl _)).unique (second.measures (Nat.le_refl _)) same

/-- The lifetimes over the first steps are those that say what these steps do, one for each tensor.
Each ends where or after it starts, and not past the exit, and every step that reads the tensor
runs inside. -/
theorem Graph.truncate_lifetimes (graph : Graph) (count : Nat) (lifetimes : Lifetimes)
    (inside : count ≤ graph.operators.length)
    (analysed : (graph.truncate count).lifetimes = .ok lifetimes) :
    lifetimes.exit = count + 1 ∧
      lifetimes.tensors.map Lifetime.name = graph.tensors.map Tensor.name ∧
      (∀ name lifetime, lifetimes.get? name = some lifetime ↔
        lifetime.name = name ∧ lifetime.Measures graph count) ∧
      ∀ lifetime ∈ lifetimes.tensors,
        lifetime.interval.start ≤ lifetime.interval.stop ∧
        lifetime.interval.stop ≤ lifetimes.exit ∧
        ∀ step ∈ lifetime.consumers,
          lifetime.interval.start < step + 1 ∧ step + 1 ≤ lifetime.interval.stop := by
  have exact := Graph.lifetimes_eq_ok analysed
  have exit : lifetimes.exit = count + 1 := by
    rw [Lifetimes.exit, exact.steps, truncate_length inside]
  refine ⟨exit, exact.names, ?_, ?_⟩
  · intro name lifetime
    rw [exact.get?_eq_some_iff]
    constructor
    · intro ⟨member, named⟩
      exact ⟨named, (exact.exact_of_mem member).measures inside⟩
    · intro ⟨named, measures⟩
      have known : (graph.truncate count).role? lifetime.name = some lifetime.role := measures.role
      -- Its tensor is declared, so there is a lifetime with that name, which says the same.
      have ⟨other, member, same⟩ := exact.exists_of_role known
      have unique := ((exact.exact_of_mem member).measures inside).unique measures same
      exact ⟨unique ▸ member, named⟩
  · intro lifetime member
    have known := exact.exact_of_mem member
    refine ⟨known.start_le_stop, ?_, ?_⟩
    · rw [exit, ← truncate_length inside]
      exact known.stop_le_exit
    · intro step consumes
      have reads := (known.consumers step).mp consumes
      exact ⟨Nat.lt_succ_of_le (known.start_le_of_reads reads), known.lt_stop_of_reads reads⟩

/-- Two operators and a third one that only looks at what they wrote. -/
def Graph.observed : Graph where
  name := "observed"
  tensors := [
    { name := "x", kind := .si8, shape := [4] },
    { name := "s", kind := .si8, shape := [4] },
    { name := "y", kind := .si8, shape := [4] }]
  operators := [
    { opType := "ReLU", inputs := ["x"], outputs := ["s"] },
    { opType := "Add", inputs := ["x", "x"], outputs := ["y"] },
    { opType := "Print", inputs := ["s", "y"], outputs := [] }]
  inputs := ["x"]
  outputs := ["y"]

/-- Without the last operator nobody reads the first result, which is over at once. -/
theorem Graph.observed_truncate_lifetimes :
    ∃ lifetimes input result, (observed.truncate 2).lifetimes = .ok lifetimes ∧
      lifetimes.get? "x" = some input ∧ input.Measures observed 2 ∧
      input.consumers = [0, 1] ∧ input.interval = ⟨0, 2⟩ ∧
      lifetimes.get? "s" = some result ∧ result.Measures observed 2 ∧
      result.consumers = [] ∧ result.interval = ⟨1, 1⟩ := by
  have ⟨_, _, known, _⟩ := truncate_lifetimes observed 2 _ (by decide) rfl
  exact ⟨_, _, _, rfl, rfl, ((known "x" _).mp rfl).2, rfl, rfl,
    rfl, ((known "s" _).mp rfl).2, rfl, rfl⟩

end TensorArena
