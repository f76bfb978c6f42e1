import TensorArena.Graph.Builder
import TensorArena.Proofs.Graph.Boundary
import TensorArena.Proofs.Lifetime.Acceptance

/-!
# Graphs built in order

A builder adds what it is given to the end of a graph. Calls that refer only to what earlier calls
have declared leave a graph that is valid and has lifetimes, and what these say of the operators is
what the calls returned.
-/

set_option autoImplicit false

namespace TensorArena

/-- The data fill the shape of the tensor and fit its kind. -/
structure Tensor.Holds (tensor : Tensor) (data : ConstantData) : Prop where
  complete : tensor.elementCount? = some data.length
  floats : ∀ values, data = .floats values → tensor.kind.isFloat = true
  ints : ∀ values least greatest, data = .ints values →
    tensor.kind.intRange? = some (least, greatest) →
      ∀ value ∈ values, least ≤ value.toInt ∧ value.toInt ≤ greatest

theorem Tensor.checkValues_of_holds {tensor : Tensor} {data : ConstantData}
    (holds : tensor.Holds data) : tensor.checkValues data = .ok () := by
  cases data with
  | floats values => exact if_pos (holds.floats values rfl)
  | ints values =>
    unfold checkValues
    dsimp only
    cases ranged : tensor.kind.intRange? with
    | none => rfl
    | some range =>
      have inside := holds.ints values range.1 range.2 rfl ranged
      have none : (values.find? fun value =>
          value.toInt < range.1 || range.2 < value.toInt) = none := by
        rw [List.find?_eq_none]
        intro value member outside
        have := inside value member
        simp only [Bool.or_eq_true, decide_eq_true_eq] at outside
        omega
      dsimp only
      rw [none]

theorem Tensor.check_of_holds {tensor : Tensor}
    (holds : ∀ data, tensor.data = some data → tensor.Holds data)
    (quantized : tensor.quantization.isSome = true → tensor.kind.isInteger = true) :
    tensor.check = .ok () := by
  unfold check
  rw [check_bind_eq_ok]
  constructor
  · unfold checkData
    cases held : tensor.data with
    | none => rfl
    | some data =>
      have fits := holds data held
      dsimp only
      rw [fits.complete, Option.getD_some, if_pos rfl]
      exact checkValues_of_holds fits
  · apply if_neg
    rw [Bool.and_eq_true, not_and]
    intro present
    rw [quantized present]
    decide

namespace Builder

/-- A call of a builder. An input without quantization may be given by its name, kind and shape
alone. -/
inductive Call where
  | input (tensor : Tensor)
  | constant (tensor : Tensor)
  | operator (operator : Operator) (tensors : List Tensor)
  | plainOperator (opType : String) (inputs : List String) (tensors : List Tensor)
  | output (name : String)

namespace Call

/-- Makes the call on the graph built so far. A call that adds an operator returns its position. -/
def apply (graph : Graph) : Call → Option Nat × Graph
  | input tensor => (none, graph.addInput tensor)
  | constant tensor => (none, graph.addConstant tensor)
  | operator node tensors => (graph.addOperator node tensors).map some id
  | plainOperator opType inputs tensors =>
    (graph.addPlainOperator opType inputs tensors).map some id
  | output name => (none, graph.addOutput name)

/-- The tensors that the call declares. -/
def tensors : Call → List Tensor
  | input tensor | constant tensor => [tensor]
  | operator _ tensors | plainOperator _ _ tensors => tensors
  | output _ => []

/-- The operator that the call adds. -/
def operator? : Call → Option Operator
  | operator node _ => some node
  | plainOperator opType inputs tensors =>
    some { opType, inputs, outputs := tensors.map Tensor.name }
  | input _ | constant _ | output _ => none

/-- The names that the call makes inputs of the graph. -/
def inputs : Call → List String
  | input tensor => [tensor.name]
  | constant _ | operator _ _ | plainOperator _ _ _ | output _ => []

/-- The names that the call makes outputs of the graph. -/
def outputs : Call → List String
  | output name => [name]
  | input _ | constant _ | operator _ _ | plainOperator _ _ _ => []

/-- The call adds an operator that reads the tensor. -/
def Reads (call : Call) (name : String) : Prop :=
  ∃ operator, call.operator? = some operator ∧ name ∈ operator.inputs

/-- The call adds an operator that writes the tensor. -/
def Writes (call : Call) (name : String) : Prop :=
  ∃ operator, call.operator? = some operator ∧ name ∈ operator.outputs

end Call

/-- Makes the calls one after the other and collects what they return. -/
def build (graph : Graph) : List Call → List (Option Nat) × Graph
  | [] => ([], graph)
  | call :: rest =>
    let (result, next) := call.apply graph
    let (results, last) := build next rest
    (result :: results, last)

/-- The names of the tensors that the calls declare. -/
def declared (calls : List Call) : List String := (calls.flatMap Call.tensors).map Tensor.name

/-- What is asked of a call that comes after the earlier ones. -/
structure Call.Follows (earlier : List Call) (call : Call) : Prop where
  fresh : ∀ tensor ∈ call.tensors, tensor.name ∉ declared earlier
  distinct : (call.tensors.map Tensor.name).Nodup
  reads : ∀ name, call.Reads name → name ∈ declared earlier
  /-- An operator writes the tensors without data that are declared with it, each of them once. -/
  writes : ∀ operator, call.operator? = some operator →
    operator.outputs.Perm ((call.tensors.filter fun tensor => !tensor.isConstant).map Tensor.name)
  input : ∀ tensor, call = .input tensor → tensor.data = none
  constant : ∀ tensor, call = .constant tensor → tensor.isConstant = true
  holds : ∀ tensor ∈ call.tensors, ∀ data, tensor.data = some data → tensor.Holds data
  quantized : ∀ tensor ∈ call.tensors,
    tensor.quantization.isSome = true → tensor.kind.isInteger = true
  output : ∀ name, call = .output name → name ∈ declared earlier ∧ Call.output name ∉ earlier

/-- Each of the calls follows the earlier ones and those before it. -/
def Ordered (earlier : List Call) : List Call → Prop
  | [] => True
  | call :: rest => call.Follows earlier ∧ Ordered (earlier ++ [call]) rest

/-- The calls build a graph in order, and no input and no constant is there for nothing. -/
structure InOrder (calls : List Call) : Prop where
  ordered : Ordered [] calls
  used : ∀ call ∈ calls, ∀ tensor ∈ call.tensors,
    call = .input tensor ∨ tensor.isConstant = true →
      (∃ reader ∈ calls, reader.Reads tensor.name) ∨ Call.output tensor.name ∈ calls

/-! ### What a call adds -/

theorem Call.apply_eq (call : Call) (graph : Graph) :
    call.apply graph = (call.operator?.map fun _ => graph.operators.length,
      { graph with
        tensors := graph.tensors ++ call.tensors
        operators := graph.operators ++ call.operator?.toList
        inputs := graph.inputs ++ call.inputs
        outputs := graph.outputs ++ call.outputs }) := by
  cases call <;>
    simp [apply, tensors, operator?, inputs, outputs, Graph.addInput, Graph.addConstant,
      Graph.addPlainOperator, Graph.addOperator, Graph.addOutput]

namespace Call

theorem mem_outputs_iff {call : Call} {name : String} :
    name ∈ call.outputs ↔ call = .output name := by
  cases call <;> simp [outputs, eq_comm]

theorem mem_inputs_iff {call : Call} {name : String} :
    name ∈ call.inputs ↔ ∃ tensor, call = .input tensor ∧ tensor.name = name := by
  cases call <;> simp [inputs, eq_comm]

theorem inputs_sublist (call : Call) : call.inputs.Sublist (call.tensors.map Tensor.name) := by
  cases call <;> simp [inputs, tensors]

theorem outputs_nodup (call : Call) : call.outputs.Nodup := by
  cases call <;> simp [outputs]

theorem inputs_of_operator {call : Call} {operator : Operator}
    (added : call.operator? = some operator) : call.inputs = [] := by
  cases call with
  | input _ => cases added
  | _ => rfl

end Call

theorem getElem?_append_toList {α : Type} {items : List α} {added : Option α} {index : Nat}
    {item : α} :
    (items ++ added.toList)[index]? = some item ↔
      items[index]? = some item ∨ index = items.length ∧ added = some item := by
  rcases Nat.lt_trichotomy index items.length with inside | rfl | outside
  · rw [List.getElem?_append_left inside]
    simp [Nat.ne_of_lt inside]
  · cases added <;> simp
  · have beyond : items.length ≤ index := Nat.le_of_lt outside
    rw [List.getElem?_append_right beyond, List.getElem?_eq_none beyond]
    have past : index - items.length ≠ 0 := by omega
    cases added <;> simp [past, Nat.ne_of_gt outside]

/-! ### What all calls together add -/

/-- The graph that the calls add up to. -/
def sum (name : String) (calls : List Call) : Graph where
  name
  tensors := calls.flatMap Call.tensors
  operators := calls.filterMap Call.operator?
  inputs := calls.flatMap Call.inputs
  outputs := calls.flatMap Call.outputs

variable {title name : String} {call : Call} {earlier calls : List Call} {step : Nat}

theorem tensors_sum_snoc :
    (sum title (earlier ++ [call])).tensors = (sum title earlier).tensors ++ call.tensors := by
  simp [sum]

theorem operators_sum_snoc :
    (sum title (earlier ++ [call])).operators =
      (sum title earlier).operators ++ call.operator?.toList := by
  cases added : call.operator? <;> simp [sum, added]

theorem inputs_sum_snoc :
    (sum title (earlier ++ [call])).inputs = (sum title earlier).inputs ++ call.inputs := by
  simp [sum]

theorem outputs_sum_snoc :
    (sum title (earlier ++ [call])).outputs = (sum title earlier).outputs ++ call.outputs := by
  simp [sum]

theorem apply_sum : (call.apply (sum title earlier)).2 = sum title (earlier ++ [call]) := by
  rw [Call.apply_eq]
  cases added : call.operator? <;> simp [sum, added]

theorem build_sum : (build (sum title earlier) calls).2 = sum title (earlier ++ calls) := by
  induction calls generalizing earlier with
  | nil => rw [List.append_nil]; rfl
  | cons call rest ih =>
    rw [List.append_cons, ← ih, ← apply_sum]
    rfl

theorem reads_sum_snoc_iff :
    (sum title (earlier ++ [call])).Reads step name ↔
      (sum title earlier).Reads step name ∨
        step = (sum title earlier).operators.length ∧ call.Reads name := by
  simp only [Graph.Reads, Call.Reads, operators_sum_snoc, getElem?_append_toList, or_and_right,
    exists_or, and_assoc, exists_and_left]

theorem writes_sum_snoc_iff :
    (sum title (earlier ++ [call])).Writes step name ↔
      (sum title earlier).Writes step name ∨
        step = (sum title earlier).operators.length ∧ call.Writes name := by
  simp only [Graph.Writes, Call.Writes, operators_sum_snoc, getElem?_append_toList, or_and_right,
    exists_or, and_assoc, exists_and_left]

theorem mem_outputs_sum_iff :
    name ∈ (sum title calls).outputs ↔ Call.output name ∈ calls := by
  simp only [sum, List.mem_flatMap, Call.mem_outputs_iff, exists_eq_right]

theorem mem_inputs_sum_iff :
    name ∈ (sum title calls).inputs ↔ ∃ tensor, Call.input tensor ∈ calls ∧ tensor.name = name := by
  simp only [sum, List.mem_flatMap, Call.mem_inputs_iff]
  constructor
  · rintro ⟨call, made, tensor, rfl, same⟩
    exact ⟨tensor, made, same⟩
  · rintro ⟨tensor, made, same⟩
    exact ⟨_, made, tensor, rfl, same⟩

theorem read_sum_of_mem {call : Call} (made : call ∈ calls) (reads : call.Reads name) :
    ∃ operator ∈ (sum title calls).operators, name ∈ operator.inputs := by
  obtain ⟨operator, added, read⟩ := reads
  exact ⟨operator, List.mem_filterMap.mpr ⟨call, made, added⟩, read⟩

/-- The operators of a built graph stand at the positions that the calls returned. -/
theorem mem_zip_build_iff {operator : Operator} {index : Nat} :
    (∃ call, (call, some index) ∈ calls.zip (build (sum title earlier) calls).1 ∧
        call.operator? = some operator) ↔
      (sum title earlier).operators.length ≤ index ∧
        (sum title (earlier ++ calls)).operators[index]? = some operator := by
  induction calls generalizing earlier with
  | nil =>
    rw [List.append_nil, List.getElem?_eq_some_iff]
    simp only [build, List.zip_nil_left, List.not_mem_nil, false_and, exists_false, false_iff,
      not_and]
    rintro beyond ⟨inside, _⟩
    omega
  | cons call rest ih =>
    have returned : (call.apply (sum title earlier)).1 =
        call.operator?.map fun _ => (sum title earlier).operators.length := by rw [Call.apply_eq]
    have whole : (sum title (earlier ++ call :: rest)).operators =
        (sum title earlier).operators ++
          (call.operator?.toList ++ rest.filterMap Call.operator?) := by
      cases added : call.operator? <;> simp [sum, added]
    simp only [build, List.zip_cons_cons, List.mem_cons, Prod.mk.injEq, or_and_right, exists_or,
      apply_sum, ih, returned, operators_sum_snoc]
    rw [← List.append_cons, whole]
    cases added : call.operator? with
    | none => simp [added]
    | some own =>
      simp only [Option.map_some, Option.some.injEq, and_assoc, exists_eq_left, added,
        Option.toList_some, List.length_append, List.length_singleton]
      -- The operator of this call stands just behind the ones before it.
      rcases Nat.lt_trichotomy index (sum title earlier).operators.length with before | rfl | after
      · simp [Nat.not_le.mpr before, Nat.ne_of_lt before, Nat.not_le.mpr (Nat.lt_succ_of_lt before)]
      · simp
      · simp [Nat.ne_of_gt after, Nat.le_of_lt after, Nat.succ_le_of_lt after]

/-- What a call returned is the position of an operator in the graph of all calls. -/
theorem exists_returned_iff (holds : Operator → Prop) {index : Nat} :
    (∃ call, (call, some index) ∈ calls.zip (build (sum title []) calls).1 ∧
        ∃ operator, call.operator? = some operator ∧ holds operator) ↔
      ∃ operator, (sum title calls).operators[index]? = some operator ∧ holds operator := by
  have at_index (operator : Operator) :
      (∃ call, (call, some index) ∈ calls.zip (build (sum title []) calls).1 ∧
          call.operator? = some operator) ↔
        (sum title calls).operators[index]? = some operator :=
    mem_zip_build_iff.trans (and_iff_right (Nat.zero_le index))
  constructor
  · rintro ⟨call, returned, operator, added, held⟩
    exact ⟨operator, (at_index operator).mp ⟨call, returned, added⟩, held⟩
  · rintro ⟨operator, present, held⟩
    obtain ⟨call, returned, added⟩ := (at_index operator).mpr present
    exact ⟨call, returned, operator, added, held⟩

/-! ### What calls in order keep -/

/-- The tensors that are neither constants nor inputs. -/
def results (graph : Graph) : List Tensor :=
  graph.tensors.filter fun tensor => !tensor.isConstant && !graph.inputs.contains tensor.name

/-- What holds of a graph that has been built in order so far. -/
structure Sound (graph : Graph) : Prop where
  distinct : (graph.tensors.map Tensor.name).Nodup
  checked : ∀ tensor ∈ graph.tensors, tensor.check = .ok ()
  inputs : graph.inputs.Sublist (graph.tensors.map Tensor.name)
  free : ∀ tensor ∈ graph.tensors, tensor.name ∈ graph.inputs → tensor.data = none
  outputs : graph.outputs.Nodup
  marked : ∀ name ∈ graph.outputs, name ∈ graph.tensors.map Tensor.name
  /-- The operators write the results, each of them once. -/
  written : (graph.operators.flatMap Operator.outputs).Perm ((results graph).map Tensor.name)
  read : ∀ step name, graph.Reads step name → name ∈ graph.tensors.map Tensor.name
  readLater : ∀ name writer reader, graph.Writes writer name → graph.Reads reader name →
    writer < reader

namespace Call.Follows

variable (follows : call.Follows earlier)

include follows

theorem new_of_writes (writes : call.Writes name) : name ∉ declared earlier := by
  obtain ⟨operator, added, written⟩ := writes
  have ⟨tensor, member, same⟩ := List.mem_map.mp ((follows.writes operator added).subset written)
  exact same ▸ follows.fresh tensor (List.mem_filter.mp member).1

theorem new_of_input (marked : name ∈ call.inputs) : name ∉ declared earlier := by
  have ⟨tensor, member, same⟩ := List.mem_map.mp (call.inputs_sublist.subset marked)
  exact same ▸ follows.fresh tensor member

/-- A call that adds no operator declares inputs and constants only. -/
theorem outside_of_no_operator (bare : call.operator? = none) {tensor : Tensor}
    (member : tensor ∈ call.tensors) : tensor.isConstant = true ∨ tensor.name ∈ call.inputs := by
  cases call with
  | input own =>
    obtain rfl := List.mem_singleton.mp member
    exact .inr (List.mem_singleton_self _)
  | constant own =>
    obtain rfl := List.mem_singleton.mp member
    exact .inl (follows.constant tensor rfl)
  | operator _ _ => cases bare
  | plainOperator _ _ _ => cases bare
  | output _ => cases member

theorem data_of_input {tensor : Tensor} (member : tensor ∈ call.tensors)
    (marked : tensor.name ∈ call.inputs) : tensor.data = none := by
  obtain ⟨own, rfl, _⟩ := Call.mem_inputs_iff.mp marked
  obtain rfl := List.mem_singleton.mp member
  exact follows.input tensor rfl

end Call.Follows

namespace Sound

theorem empty (title : String) : Sound (sum title []) := by
  constructor <;> simp [sum, results, Graph.Reads, Graph.Writes]

variable (sound : Sound (sum title earlier)) (follows : call.Follows earlier)

include sound

theorem not_input (fresh : name ∉ declared earlier) : name ∉ (sum title earlier).inputs :=
  fun listed => fresh (sound.inputs.subset listed)

include follows

/-- What was a result remains one, since new inputs have new names. -/
theorem results_apply :
    (results (sum title (earlier ++ [call]))).map Tensor.name =
      (results (sum title earlier)).map Tensor.name ++
        (call.operator?.toList.flatMap fun _ =>
          (call.tensors.filter fun tensor => !tensor.isConstant).map Tensor.name) := by
  rw [results, results, tensors_sum_snoc, inputs_sum_snoc, List.filter_append, List.map_append]
  congr 2
  · apply List.filter_congr
    intro tensor member
    have old : tensor.name ∈ declared earlier := List.mem_map_of_mem member
    have unlike : tensor.name ∉ call.inputs := fun marked => follows.new_of_input marked old
    simp [unlike]
  · cases added : call.operator? with
    | none =>
      simp only [Option.toList_none, List.flatMap_nil, List.map_eq_nil_iff, List.filter_eq_nil_iff]
      intro tensor member
      rcases follows.outside_of_no_operator added member with constant | marked
      · simp [constant]
      · simp [marked]
    | some operator =>
      simp only [Option.toList_some, List.flatMap_singleton]
      congr 1
      apply List.filter_congr
      intro tensor member
      have unmarked := sound.not_input (follows.fresh tensor member)
      simp [Call.inputs_of_operator added, unmarked]

theorem written_apply :
    ((sum title (earlier ++ [call])).operators.flatMap Operator.outputs).Perm
      ((results (sum title (earlier ++ [call]))).map Tensor.name) := by
  rw [sound.results_apply follows, operators_sum_snoc, List.flatMap_append]
  apply sound.written.append
  cases added : call.operator? with
  | none => exact .refl _
  | some operator => simpa using follows.writes operator added

theorem read_apply (reads : (sum title (earlier ++ [call])).Reads step name) :
    name ∈ declared (earlier ++ [call]) := by
  rw [reads_sum_snoc_iff] at reads
  have known : name ∈ declared earlier := by
    rcases reads with old | ⟨_, new⟩
    · exact sound.read step name old
    · exact follows.reads name new
  simp only [declared, List.flatMap_append, List.map_append]
  exact List.mem_append_left _ known

theorem readLater_apply {writer reader : Nat}
    (writes : (sum title (earlier ++ [call])).Writes writer name)
    (reads : (sum title (earlier ++ [call])).Reads reader name) : writer < reader := by
  rw [reads_sum_snoc_iff] at reads
  rw [writes_sum_snoc_iff] at writes
  rcases reads with oldRead | ⟨rfl, newRead⟩
  · rcases writes with oldWrite | ⟨rfl, newWrite⟩
    · exact sound.readLater name writer reader oldWrite oldRead
    · exact absurd (sound.read reader name oldRead) (follows.new_of_writes newWrite)
  · rcases writes with oldWrite | ⟨rfl, newWrite⟩
    · exact oldWrite.lt_length
    · exact absurd (follows.reads name newRead) (follows.new_of_writes newWrite)

/-- One call in order keeps the graph sound. -/
theorem apply : Sound (sum title (earlier ++ [call])) where
  distinct := by
    rw [tensors_sum_snoc, List.map_append]
    apply sound.distinct.append follows.distinct
    intro name old new
    have ⟨tensor, member, same⟩ := List.mem_map.mp new
    exact follows.fresh tensor member (same ▸ old)
  checked := by
    rw [tensors_sum_snoc]
    intro tensor member
    rcases List.mem_append.mp member with old | new
    · exact sound.checked tensor old
    · exact Tensor.check_of_holds (follows.holds tensor new) (follows.quantized tensor new)
  inputs := by
    rw [inputs_sum_snoc, tensors_sum_snoc, List.map_append]
    exact sound.inputs.append call.inputs_sublist
  free := by
    rw [inputs_sum_snoc, tensors_sum_snoc]
    intro tensor member marked
    rcases List.mem_append.mp member with old | new
    · have known : tensor.name ∈ declared earlier := List.mem_map_of_mem old
      have before := (List.mem_append.mp marked).resolve_right
        fun own => follows.new_of_input own known
      exact sound.free tensor old before
    · have own := (List.mem_append.mp marked).resolve_left
        (sound.not_input (follows.fresh tensor new))
      exact follows.data_of_input new own
  outputs := by
    rw [outputs_sum_snoc]
    apply sound.outputs.append call.outputs_nodup
    intro name old new
    have unmarked := (follows.output name (Call.mem_outputs_iff.mp new)).2
    exact unmarked (mem_outputs_sum_iff.mp old)
  marked := by
    rw [outputs_sum_snoc, tensors_sum_snoc, List.map_append]
    intro name member
    apply List.mem_append_left
    rcases List.mem_append.mp member with old | new
    · exact sound.marked name old
    · exact (follows.output name (Call.mem_outputs_iff.mp new)).1
  written := sound.written_apply follows
  read step name := sound.read_apply follows
  readLater name writer reader := sound.readLater_apply follows

end Sound

/-- Induction on the calls that are left; those made so far only grow. -/
theorem Ordered.sound (ordered : Ordered earlier calls) (sound : Sound (sum title earlier)) :
    Sound (sum title (earlier ++ calls)) := by
  induction calls generalizing earlier with
  | nil => rwa [List.append_nil]
  | cons call rest ih =>
    obtain ⟨follows, later⟩ := ordered
    rw [List.append_cons]
    exact ih later (sound.apply follows)

/-! ### Sound graphs -/

namespace Sound

variable {graph : Graph} (sound : Sound graph)

include sound

theorem role_eq_intermediate_iff {tensor : Tensor} (member : tensor ∈ graph.tensors) :
    graph.role? tensor.name = some .intermediate ↔ tensor ∈ results graph := by
  rw [Graph.role?, Graph.tensor?_name sound.distinct member, Option.map_some, results,
    List.mem_filter]
  by_cases constant : tensor.isConstant = true
  · simp [constant]
  · by_cases listed : tensor.name ∈ graph.inputs <;> simp [constant, listed, member]

theorem written_iff :
    name ∈ graph.operators.flatMap Operator.outputs ↔ graph.role? name = some .intermediate := by
  rw [sound.written.mem_iff, List.mem_map]
  constructor
  · rintro ⟨tensor, result, rfl⟩
    exact (sound.role_eq_intermediate_iff (List.mem_filter.mp result).1).mpr result
  · intro role
    have ⟨tensor, member, same⟩ := List.mem_map.mp (Graph.exists_role_iff.mp ⟨_, role⟩)
    subst same
    exact ⟨tensor, (sound.role_eq_intermediate_iff member).mp role, rfl⟩

theorem declared_of_mem {operator : Operator} (listed : operator ∈ graph.operators)
    (occurs : name ∈ operator.inputs ++ operator.outputs) :
    name ∈ graph.tensors.map Tensor.name := by
  rcases List.mem_append.mp occurs with read | written
  · have ⟨step, reads⟩ := Graph.mem_inputs_iff_reads.mp ⟨operator, listed, read⟩
    exact sound.read step name reads
  · have output := List.mem_flatMap.mpr ⟨operator, listed, written⟩
    exact Graph.exists_role_iff.mp ⟨_, sound.written_iff.mp output⟩

theorem wellOrdered
    (used : ∀ tensor ∈ graph.tensors, tensor.isConstant = true ∨ tensor.name ∈ graph.inputs →
      (∃ operator ∈ graph.operators, tensor.name ∈ operator.inputs) ∨
        tensor.name ∈ graph.outputs) :
    graph.WellOrdered where
  distinct := sound.distinct
  declared operator listed name occurs := sound.declared_of_mem listed occurs
  unwritten := by
    intro operator listed name written
    rw [sound.written_iff.mp (List.mem_flatMap.mpr ⟨operator, listed, written⟩)]
    decide
  writtenOnce := by
    intro tensor member role
    have distinct : ((results graph).map Tensor.name).Nodup :=
      sound.distinct.sublist (List.filter_sublist.map _)
    exact List.count_eq_one_of_mem (sound.written.nodup_iff.mpr distinct)
      (sound.written_iff.mpr role)
  readLater name writer reader _ := sound.readLater name writer reader
  used := by
    intro tensor member boundary
    apply used tensor member
    by_contra inner
    have role : graph.role? tensor.name = some .intermediate :=
      (sound.role_eq_intermediate_iff member).mpr (List.mem_filter.mpr ⟨member, by simpa using inner⟩)
    rw [role] at boundary
    rcases boundary with same | same <;> cases same

theorem validate_eq_ok : graph.validate = .ok () := by
  have known : ∀ name ∈ graph.tensors.map Tensor.name,
      ∃ tensor ∈ graph.tensors, tensor.name = name ∧ graph.tensor? name = some tensor := by
    intro name listed
    have ⟨tensor, member, same⟩ := List.mem_map.mp listed
    exact ⟨tensor, member, same, same ▸ Graph.tensor?_name sound.distinct member⟩
  have found : ∀ name ∈ graph.tensors.map Tensor.name, (graph.tensor? name).isSome := by
    intro name listed
    obtain ⟨tensor, _, _, found⟩ := known name listed
    exact found ▸ rfl
  unfold Graph.validate
  rw [check_bind_eq_ok, check_bind_eq_ok, check_bind_eq_ok, check_bind_eq_ok]
  refine ⟨?_, forM_eq_ok.mpr sound.checked, ?_, ?_, ?_⟩
  · exact Graph.checkNames_of_nodup sound.distinct fun _ _ => List.not_mem_nil
  · apply Graph.checkInputs_of_nodup (sound.distinct.sublist sound.inputs)
      fun _ _ => List.not_mem_nil
    intro name listed
    obtain ⟨tensor, member, rfl, found⟩ := known name (sound.inputs.subset listed)
    exact ⟨tensor, found, sound.free tensor member listed⟩
  · exact Graph.checkOutputs_of_nodup sound.outputs (fun _ _ => List.not_mem_nil)
      fun name listed => found name (sound.marked name listed)
  · exact Graph.checkReferences_of_forall fun operator listed name occurs =>
      found name (sound.declared_of_mem listed occurs)

end Sound

/-! ### Built graphs -/

theorem InOrder.sound (order : InOrder calls) : Sound (sum title calls) :=
  order.ordered.sound (Sound.empty title)

theorem InOrder.wellOrdered (order : InOrder calls) : (sum title calls).WellOrdered := by
  have sound : Sound (sum title calls) := order.sound
  apply sound.wellOrdered
  intro tensor member boundary
  have used : (∃ reader ∈ calls, reader.Reads tensor.name) ∨ Call.output tensor.name ∈ calls := by
    rcases boundary with constant | listed
    · have ⟨call, made, own⟩ := List.mem_flatMap.mp member
      exact order.used call made tensor own (.inr constant)
    · obtain ⟨input, made, same⟩ := mem_inputs_sum_iff.mp listed
      have own : input ∈ (Call.input input).tensors := List.mem_singleton_self input
      have among : input ∈ (sum title calls).tensors := List.mem_flatMap.mpr ⟨_, made, own⟩
      obtain rfl := eq_of_name_eq Tensor.name sound.distinct among member same
      exact order.used _ made input own (.inl rfl)
  rcases used with ⟨reader, calling, reads⟩ | marked
  · exact .inl (read_sum_of_mem calling reads)
  · exact .inr (mem_outputs_sum_iff.mpr marked)

/-- A graph that is built in order is valid and has lifetimes, one for each tensor declared. Its
writer and its readers are the operators at the positions that the calls returned. -/
theorem build_accepted (title : String) (calls : List Call) (order : InOrder calls) :
    (build { name := title } calls).2.validate = .ok () ∧
      ∃ lifetimes, (build { name := title } calls).2.lifetimes = .ok lifetimes ∧
        lifetimes.tensors.map Lifetime.name = declared calls ∧
        ∀ lifetime ∈ lifetimes.tensors,
          (∀ index, lifetime.producer = some index ↔
            ∃ call, (call, some index) ∈ calls.zip (build { name := title } calls).1 ∧
              call.Writes lifetime.name) ∧
          (∀ index, index ∈ lifetime.consumers ↔
            ∃ call, (call, some index) ∈ calls.zip (build { name := title } calls).1 ∧
              call.Reads lifetime.name) ∧
          lifetime.consumers.Pairwise (· < ·) := by
  have empty : ({ name := title } : Graph) = sum title [] := rfl
  rw [empty, build_sum, List.nil_append]
  refine ⟨order.sound.validate_eq_ok, ?_⟩
  have ordered : (sum title calls).WellOrdered := order.wellOrdered
  have ⟨lifetimes, analysed⟩ := ordered.exists_lifetimes
  have exact := Graph.lifetimes_eq_ok analysed
  refine ⟨lifetimes, analysed, exact.names, ?_⟩
  intro lifetime member
  have own := exact.exact_of_mem member
  refine ⟨?_, ?_, own.ascending⟩
  · intro index
    exact (own.producer index).trans
      (exists_returned_iff fun operator => lifetime.name ∈ operator.outputs).symm
  · intro index
    exact (own.consumers index).trans
      (exists_returned_iff fun operator => lifetime.name ∈ operator.inputs).symm

/-- A graph whose first operator lists its results in another order than they are declared in, with
a constant between them. -/
def forkCalls : List Call := [
  .input { name := "x", kind := .si8, shape := [2] },
  .operator { opType := "Split", inputs := ["x"], outputs := ["b", "a"] } [
    { name := "a", kind := .si8, shape := [1] },
    { name := "k", kind := .si8, shape := [1], data := some (.ints [3]) },
    { name := "b", kind := .si8, shape := [1] }],
  .plainOperator "Add" ["a", "k"] [{ name := "y", kind := .si8, shape := [1] }],
  .output "y",
  .output "b"]

theorem fork_inOrder : InOrder forkCalls where
  ordered := by
    have filled : Tensor.Holds { name := "k", kind := .si8, shape := [1], data := some (.ints [3]) }
        (.ints [3]) := by
      constructor
      · rfl
      · intro values same
        cases same
      · rintro values least greatest ⟨⟩ ⟨⟩
        simp
    refine ⟨?_, ?_, ?_, ?_, ?_, trivial⟩ <;>
      constructor <;>
        simp [Call.tensors, Call.operator?, Call.Reads, declared, Tensor.isConstant, filled]
    exact .swap ..
  used := by
    simp [forkCalls, Call.tensors, Call.operator?, Call.Reads, Tensor.isConstant]

theorem fork_accepted :
    (build { name := "fork" } forkCalls).1 = [none, some 0, some 1, none, none] ∧
      (build { name := "fork" } forkCalls).2.validate = .ok () ∧
      ∃ lifetimes, (build { name := "fork" } forkCalls).2.lifetimes = .ok lifetimes ∧
        lifetimes.tensors.map Lifetime.name = ["x", "a", "k", "b", "y"] := by
  have ⟨valid, lifetimes, analysed, names, _⟩ := build_accepted "fork" forkCalls fork_inOrder
  exact ⟨rfl, valid, lifetimes, analysed, names⟩

end Builder

end TensorArena
