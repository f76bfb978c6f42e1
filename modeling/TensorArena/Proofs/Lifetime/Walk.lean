import TensorArena.Lifetime.Analysis
import TensorArena.Proofs.Names
import TensorArena.Proofs.Results

/-!
# The walks over the operators

A step writes the outputs of its operator and reads its inputs. The first walk over the operators
collects who writes, the second one checks who reads, and what they find is just that.
-/

set_option autoImplicit false

namespace TensorArena

namespace Graph

/-- The tensor is an output of the operator of the step. -/
def Writes (graph : Graph) (step : Nat) (name : String) : Prop :=
  ∃ operator, graph.operators[step]? = some operator ∧ name ∈ operator.outputs

/-- The tensor is an input of the operator of the step. -/
def Reads (graph : Graph) (step : Nat) (name : String) : Prop :=
  ∃ operator, graph.operators[step]? = some operator ∧ name ∈ operator.inputs

theorem writes_iff {graph : Graph} {step : Nat} {operator : Operator}
    (present : graph.operators[step]? = some operator) (name : String) :
    graph.Writes step name ↔ name ∈ operator.outputs := by
  simp [Writes, present]

theorem reads_iff {graph : Graph} {step : Nat} {operator : Operator}
    (present : graph.operators[step]? = some operator) (name : String) :
    graph.Reads step name ↔ name ∈ operator.inputs := by
  simp [Reads, present]

/-- A step, counted from `start`, has the tensor among its operator's inputs or outputs. -/
def OccursFrom (operands : Operator → List String) (operators : List Operator)
    (start step : Nat) (name : String) : Prop :=
  ∃ index operator, operators[index]? = some operator ∧ name ∈ operands operator ∧
    step = start + index

theorem occursFrom_cons {operands : Operator → List String} {operator : Operator}
    {rest : List Operator} {start step : Nat} {name : String} :
    OccursFrom operands (operator :: rest) start step name ↔
      (step = start ∧ name ∈ operands operator) ∨
        OccursFrom operands rest (start + 1) step name := by
  constructor
  · rintro ⟨index, other, found, member, rfl⟩
    cases index with
    | zero =>
      obtain rfl : operator = other := by simpa using found
      exact .inl ⟨rfl, member⟩
    | succ index => exact .inr ⟨index, other, by simpa using found, member, by omega⟩
  · rintro (⟨rfl, member⟩ | ⟨index, other, found, member, rfl⟩)
    · exact ⟨0, operator, rfl, member, rfl⟩
    · exact ⟨index + 1, other, by simpa using found, member, by omega⟩

theorem occursFrom_outputs {graph : Graph} {step : Nat} {name : String} :
    OccursFrom Operator.outputs graph.operators 0 step name ↔ graph.Writes step name := by
  simp [OccursFrom, Writes]

theorem occursFrom_inputs {graph : Graph} {step : Nat} {name : String} :
    OccursFrom Operator.inputs graph.operators 0 step name ↔ graph.Reads step name := by
  simp [OccursFrom, Reads]

theorem Writes.lt_length {graph : Graph} {step : Nat} {name : String}
    (writes : graph.Writes step name) : step < graph.operators.length := by
  obtain ⟨operator, found, _⟩ := writes
  exact (List.getElem?_eq_some_iff.mp found).1

theorem Reads.lt_length {graph : Graph} {step : Nat} {name : String}
    (reads : graph.Reads step name) : step < graph.operators.length := by
  obtain ⟨operator, found, _⟩ := reads
  exact (List.getElem?_eq_some_iff.mp found).1

theorem mem_outputs_iff_writes {graph : Graph} {name : String} :
    name ∈ graph.operators.flatMap Operator.outputs ↔ ∃ step, graph.Writes step name := by
  rw [List.mem_flatMap]
  constructor
  · intro ⟨operator, listed, written⟩
    have ⟨step, present⟩ := List.mem_iff_getElem?.mp listed
    exact ⟨step, operator, present, written⟩
  · intro ⟨step, operator, present, written⟩
    exact ⟨operator, List.mem_of_getElem? present, written⟩

theorem mem_inputs_iff_reads {graph : Graph} {name : String} :
    (∃ operator ∈ graph.operators, name ∈ operator.inputs) ↔ ∃ step, graph.Reads step name := by
  constructor
  · intro ⟨operator, listed, read⟩
    have ⟨step, present⟩ := List.mem_iff_getElem?.mp listed
    exact ⟨step, operator, present, read⟩
  · intro ⟨step, operator, present, read⟩
    exact ⟨operator, List.mem_of_getElem? present, read⟩

/-! ### Names -/

theorem checkNames_eq_ok {seen : List String} {tensors : List Tensor}
    (success : checkNames seen tensors = .ok ()) :
    (tensors.map Tensor.name).Nodup ∧ ∀ tensor ∈ tensors, tensor.name ∉ seen := by
  induction tensors generalizing seen with
  | nil => simp
  | cons tensor rest ih =>
    unfold checkNames at success
    split at success
    · cases success
    · rename_i fresh
      obtain ⟨distinct, others⟩ := ih success
      simp only [List.contains_iff_mem] at fresh
      refine ⟨?_, ?_⟩
      · rw [List.map_cons, List.nodup_cons]
        refine ⟨?_, distinct⟩
        rintro repeated
        obtain ⟨other, member, same⟩ := List.mem_map.mp repeated
        exact others other member (by simp [same])
      · intro other member
        rcases List.mem_cons.mp member with rfl | member
        · exact fresh
        · exact fun old => others other member (by simp [old])

/-- With distinct names, every tensor is found under its own. -/
theorem tensor?_name {graph : Graph} (distinct : (graph.tensors.map Tensor.name).Nodup)
    {tensor : Tensor} (member : tensor ∈ graph.tensors) :
    graph.tensor? tensor.name = some tensor :=
  (find?_named_iff Tensor.name distinct).mpr ⟨member, rfl⟩

theorem tensor?_eq_some {graph : Graph} {name : String} {tensor : Tensor}
    (found : graph.tensor? name = some tensor) :
    tensor ∈ graph.tensors ∧ tensor.name = name := by
  unfold tensor? at found
  exact ⟨List.mem_of_find?_eq_some found, by simpa using List.find?_some found⟩

/-! ### Writers -/

theorem addProducer_eq_ok {graph : Graph} {step : Nat} {producers after : Producers}
    {name : String} (success : graph.addProducer step producers name = .ok after) :
    graph.role? name = some .intermediate ∧ producers.step? name = none ∧
      after = (name, step) :: producers := by
  unfold addProducer at success
  split at success
  · cases success
  · rename_i role
    split at success
    · cases success
    · rename_i fresh
      exact ⟨role, fresh, (Except.ok.inj success).symm⟩
  · cases success

/-- Every output of an operator becomes the newest tensor written. -/
theorem addProducers_eq_ok {graph : Graph} {step : Nat} {outputs : List String}
    {producers after : Producers}
    (success : outputs.foldlM (graph.addProducer step) producers = .ok after)
    (distinct : (producers.map Prod.fst).Nodup) :
    after = (outputs.map fun name => (name, step)).reverse ++ producers ∧
      (after.map Prod.fst).Nodup ∧ ∀ name ∈ outputs, graph.role? name = some .intermediate := by
  refine foldlM_induction success
    (fun done state => state = (done.map fun name => (name, step)).reverse ++ producers ∧
      (state.map Prod.fst).Nodup ∧ ∀ name ∈ done, graph.role? name = some .intermediate)
    ⟨rfl, distinct, by simp⟩ ?_
  rintro done name rest state next _ ⟨collected, unique, roles⟩ added
  obtain ⟨role, fresh, rfl⟩ := addProducer_eq_ok added
  refine ⟨by simp [collected], ?_, ?_⟩
  · rw [List.map_cons, List.nodup_cons]
    exact ⟨lookup_eq_none_iff.mp fresh, unique⟩
  · intro other member
    rcases List.mem_append.mp member with member | member
    · exact roles other member
    · exact List.mem_singleton.mp member ▸ role

theorem producersFrom_eq_ok {graph : Graph} {step : Nat} {producers after : Producers}
    {operators : List Operator}
    (success : graph.producersFrom step producers operators = .ok after)
    (distinct : (producers.map Prod.fst).Nodup) :
    (after.map Prod.fst).Nodup ∧
      (∀ name written, (name, written) ∈ after ↔
        (name, written) ∈ producers ∨ OccursFrom Operator.outputs operators step written name) ∧
      ∀ operator ∈ operators, operator.outputs.Nodup ∧
        ∀ name ∈ operator.outputs, graph.role? name = some .intermediate := by
  induction operators generalizing step producers with
  | nil =>
    obtain rfl : producers = after := Except.ok.inj success
    simp [distinct, OccursFrom]
  | cons operator rest ih =>
    unfold producersFrom at success
    obtain ⟨middle, added, success⟩ := bind_eq_ok.mp success
    obtain ⟨rfl, unique, roles⟩ := addProducers_eq_ok added distinct
    obtain ⟨final, written, others⟩ := ih success unique
    refine ⟨final, ?_, ?_⟩
    · intro name last
      rw [written, occursFrom_cons]
      simp only [List.mem_append, List.mem_reverse, List.mem_map, Prod.mk.injEq]
      constructor
      · rintro ((⟨other, member, rfl, rfl⟩ | old) | later)
        · exact .inr (.inl ⟨rfl, member⟩)
        · exact .inl old
        · exact .inr (.inr later)
      · rintro (old | ⟨rfl, member⟩ | later)
        · exact .inl (.inr old)
        · exact .inl (.inl ⟨name, member, rfl, rfl⟩)
        · exact .inr later
    · intro other member
      rcases List.mem_cons.mp member with rfl | member
      · refine ⟨?_, roles⟩
        rw [List.map_append, List.nodup_append] at unique
        have outputs := unique.1
        simpa [List.map_reverse, Function.comp_def] using outputs
      · exact others other member

/-- The whole walk knows the writer of each tensor. -/
theorem step?_eq_some_iff_writes {graph : Graph} {producers : Producers}
    (walked : graph.producersFrom 0 [] graph.operators = .ok producers) (name : String)
    (step : Nat) : producers.step? name = some step ↔ graph.Writes step name := by
  have ⟨unique, collected, _⟩ := producersFrom_eq_ok walked (by simp)
  rw [Producers.step?, lookup_eq_some_iff_mem unique, collected, occursFrom_outputs]
  simp

/-! ### Readers -/

theorem checkRead_eq_ok {graph : Graph} {producers : Producers} {step : Nat} {name : String}
    (success : graph.checkRead producers step name = .ok ()) :
    ∃ role, graph.role? name = some role ∧
      (role = .intermediate → ∃ written, producers.step? name = some written ∧ written < step) := by
  unfold checkRead at success
  split at success
  · cases success
  · rename_i role
    split at success
    · cases success
    · rename_i written found
      split at success
      · rename_i before
        exact ⟨.intermediate, role, fun _ => ⟨written, found, before⟩⟩
      · cases success
  · rename_i role unlike found
    exact ⟨role, found, fun same => absurd same unlike⟩

theorem checkReadsFrom_eq_ok {graph : Graph} {producers : Producers} {step : Nat}
    {operators : List Operator} (success : graph.checkReadsFrom producers step operators = .ok ()) :
    ∀ index operator, operators[index]? = some operator → ∀ name ∈ operator.inputs,
      graph.checkRead producers (step + index) name = .ok () := by
  induction operators generalizing step with
  | nil => simp
  | cons first rest ih =>
    unfold checkReadsFrom at success
    obtain ⟨own, others⟩ := check_bind_eq_ok.mp success
    intro index operator found name member
    cases index with
    | zero =>
      obtain rfl : first = operator := by simpa using found
      exact forM_eq_ok.mp own name member
    | succ index =>
      have later := ih others index operator (by simpa using found) name member
      rwa [show step + 1 + index = step + (index + 1) by omega] at later

theorem mem_consumersFrom {name : String} {operators : List Operator} {start step : Nat} :
    step ∈ consumersFrom name start operators ↔
      OccursFrom Operator.inputs operators start step name := by
  induction operators generalizing start with
  | nil => simp [consumersFrom, OccursFrom]
  | cons operator rest ih =>
    rw [consumersFrom, occursFrom_cons, ← ih]
    by_cases reads : name ∈ operator.inputs <;> simp [reads]

theorem consumersFrom_ascending (name : String) (operators : List Operator) (start : Nat) :
    (consumersFrom name start operators).Pairwise (· < ·) := by
  induction operators generalizing start with
  | nil => exact .nil
  | cons operator rest ih =>
    unfold consumersFrom
    split
    · refine List.pairwise_cons.mpr ⟨?_, ih (start + 1)⟩
      intro step member
      obtain ⟨index, _, _, _, rfl⟩ := mem_consumersFrom.mp member
      omega
    · exact ih (start + 1)

end Graph

end TensorArena
