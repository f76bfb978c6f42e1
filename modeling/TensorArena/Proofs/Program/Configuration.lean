import Mathlib.Data.List.Forall2
import Mathlib.Data.List.Nodup
import Mathlib.Data.List.Perm.Subperm
import TensorArena.Catalog.Standard
import TensorArena.Proofs.Graph.Encoding
import TensorArena.Proofs.Program.Sharing

/-!
# Shared configurations

Two operators share an instance exactly if they are configured alike. The table compares the
encodings of keys, which is as good as comparing the keys themselves.
-/

set_option autoImplicit false

namespace TensorArena

/-! ### Encodings of keys -/

/-- Texts and lists of the key have sizes that an address can express. -/
structure InstanceKey.Addressable (key : InstanceKey) : Prop where
  family : key.family.utf8ByteSize < sizeLimit
  opType : key.opType.utf8ByteSize < sizeLimit
  inputs : key.signature.inputs.length < sizeLimit
  outputs : key.signature.outputs.length < sizeLimit
  params : key.params.length < sizeLimit ∧ Param.AllAddressable key.params

theorem InstanceKey.eq_of_parts {left right : InstanceKey} (family : left.family = right.family)
    (opType : left.opType = right.opType)
    (inputs : left.signature.inputs = right.signature.inputs)
    (outputs : left.signature.outputs = right.signature.outputs)
    (params : left.params = right.params) : left = right := by
  obtain ⟨_, _, ⟨_, _⟩, _⟩ := left
  obtain ⟨_, _, ⟨_, _⟩, _⟩ := right
  dsimp only at family opType inputs outputs params
  rw [family, opType, inputs, outputs, params]

theorem InstanceKey.encode_injective {left right : InstanceKey} (isLeft : left.Addressable)
    (isRight : right.Addressable) (same : left.encode = right.encode) : left = right := by
  have kinds := Bytes.sequence_delimited ElementKind.encode_delimited
  unfold InstanceKey.encode Signature.encode at same
  simp only [List.append_assoc] at same
  have families := Bytes.text_delimited _ _ isLeft.family isRight.family _ _ same
  have opTypes := Bytes.text_delimited _ _ isLeft.opType isRight.opType _ _ families.2
  have inputs := kinds _ _ ⟨isLeft.inputs, by simp⟩ ⟨isRight.inputs, by simp⟩ _ _ opTypes.2
  have outputs := kinds _ _ ⟨isLeft.outputs, by simp⟩ ⟨isRight.outputs, by simp⟩ _ _ inputs.2
  have params := Param.encodeAll_delimited _ _ isLeft.params isRight.params [] []
    (by simpa using outputs.2)
  exact eq_of_parts families.1 opTypes.1 inputs.1 outputs.1 params.1

/-! ### The table -/

namespace InstanceTable

/-- The encodings of the keys, in the order of the instances. -/
def encodings (table : InstanceTable) : List (List UInt8) :=
  table.instances.map fun shared => shared.key.encode

/-- Every step is assigned the one instance whose key has the encoding of the step's own key. -/
structure Keyed (keys : List InstanceKey) (table : InstanceTable) : Prop where
  distinct : table.encodings.Nodup
  assigned : List.Forall₂ (fun id key => table.encodings[id]? = some key.encode)
    table.assigned keys

theorem encodings_addOccurrence (table : InstanceTable) (step id : Nat) :
    (table.addOccurrence step id).encodings = table.encodings := by
  unfold encodings addOccurrence
  apply List.ext_getElem?
  intro index
  rw [List.getElem?_map, List.getElem?_map, List.getElem?_modify, Option.map_eq_map,
    Option.map_map]
  congr 1
  funext shared
  by_cases same : id = index <;> simp [same]

theorem Keyed.add {keys : List InstanceKey} {table : InstanceTable} (keyed : table.Keyed keys)
    (step : Nat) (key : InstanceKey) : (table.add step key).Keyed (keys ++ [key]) := by
  unfold InstanceTable.add
  cases found : table.instances.findIdx? fun shared => shared.key.encode == key.encode with
  | some id =>
    have whole := encodings_addOccurrence table step id
    have present : table.encodings[id]? = some key.encode := by
      obtain ⟨inside, same, _⟩ := List.findIdx?_eq_some_iff_getElem.mp found
      simpa [encodings, inside] using same
    constructor
    · rw [whole]
      exact keyed.distinct
    · rw [whole]
      exact List.rel_append keyed.assigned (.cons present .nil)
  | none =>
    have fresh : key.encode ∉ table.encodings := by
      simpa [encodings, List.findIdx?_eq_none_iff] using found
    have whole : encodings
        { instances := table.instances ++ [⟨table.instances.length,
            instanceName key.opType table.instances.length, key, [step]⟩]
          assigned := table.assigned ++ [table.instances.length] } =
        table.encodings ++ [key.encode] := by
      simp [encodings]
    have lengths : table.encodings.length = table.instances.length := by simp [encodings]
    constructor
    · rw [whole, ← List.concat_eq_append]
      exact keyed.distinct.concat fresh
    · rw [whole]
      apply List.rel_append
      · apply keyed.assigned.imp
        intro id other present
        rw [List.getElem?_append_left (List.getElem?_eq_some_iff.mp present).1]
        exact present
      · apply List.Forall₂.cons _ .nil
        rw [← lengths, List.getElem?_concat_length]

/-- Two steps are assigned the same instance if the encodings of their keys are the same. -/
theorem Keyed.assigned_eq_iff {keys : List InstanceKey} {table : InstanceTable}
    (keyed : table.Keyed keys) {i j : Nat} {left right : InstanceKey}
    (isLeft : keys[i]? = some left) (isRight : keys[j]? = some right) :
    ∃ first second, table.assigned[i]? = some first ∧ table.assigned[j]? = some second ∧
      (first = second ↔ left.encode = right.encode) := by
  have at_step : ∀ (step : Nat) (key : InstanceKey), keys[step]? = some key →
      ∃ id, table.assigned[step]? = some id ∧ table.encodings[id]? = some key.encode := by
    intro step key isKey
    obtain ⟨inside, rfl⟩ := List.getElem?_eq_some_iff.mp isKey
    have bound : step < table.assigned.length := keyed.assigned.length_eq ▸ inside
    exact ⟨_, List.getElem?_eq_getElem bound,
      (List.forall₂_iff_get.mp keyed.assigned).2 step bound inside⟩
  obtain ⟨first, isFirst, leftEncoded⟩ := at_step i left isLeft
  obtain ⟨second, isSecond, rightEncoded⟩ := at_step j right isRight
  refine ⟨first, second, isFirst, isSecond, ?_, ?_⟩
  · rintro rfl
    exact Option.some.inj (leftEncoded.symm.trans rightEncoded)
  · intro same
    have inside := (List.getElem?_eq_some_iff.mp leftEncoded).1
    apply (List.getElem?_inj inside keyed.distinct).mp
    rw [leftEncoded, rightEncoded, same]

/-- Keys with different encodings need an instance each. -/
theorem Keyed.length_le {keys : List InstanceKey} {table : InstanceTable} (keyed : table.Keyed keys)
    (distinct : (keys.map InstanceKey.encode).Nodup) : keys.length ≤ table.instances.length := by
  have listed : keys.map InstanceKey.encode ⊆ table.encodings := by
    intro encoding member
    have ⟨key, isKey, same⟩ := List.mem_map.mp member
    have ⟨step, inside, found⟩ := List.mem_iff_getElem.mp isKey
    have bound : step < table.assigned.length := keyed.assigned.length_eq ▸ inside
    have present := (List.forall₂_iff_get.mp keyed.assigned).2 step bound inside
    rw [List.get_eq_getElem, List.get_eq_getElem, found, same] at present
    exact List.mem_of_getElem? present
  have lengths := (List.subperm_of_subset distinct listed).length_le
  rw [List.length_map, encodings, List.length_map] at lengths
  exact lengths

end InstanceTable

/-- Each step is entered with its own key. -/
theorem Graph.shareFrom_keys {graph : Graph} {catalog : Catalog} {operators : List Operator}
    {step : Nat} {before after : InstanceTable} {keys : List InstanceKey}
    (keyed : before.Keyed keys)
    (success : graph.shareFrom catalog step operators before = .ok after) :
    ∃ others, after.Keyed (keys ++ others) ∧ List.Forall₂ (fun operator key =>
      ∃ index, graph.instanceKey catalog index operator = .ok key) operators others := by
  induction operators generalizing step before keys with
  | nil =>
    obtain rfl := Except.ok.inj success
    exact ⟨[], by simpa using keyed, .nil⟩
  | cons operator rest ih =>
    rw [Graph.shareFrom_cons] at success
    obtain ⟨key, isKey, success⟩ := bind_eq_ok.mp success
    obtain ⟨others, finished, pairs⟩ := ih (keyed.add step key) success
    exact ⟨key :: others, by simpa using finished, .cons ⟨step, isKey⟩ pairs⟩

/-! ### Configurations -/

/-- The family of an operator's instance: its own, or else that of the handler of its type. -/
def Catalog.family? (catalog : Catalog) (operator : Operator) : Option String :=
  operator.family <|>
    (catalog.get? operator.opType).map fun handler => handler.descriptor.family

/-- The operators are of one family and type, work on elements of the same kinds port by port and
have numerically equal parameters. -/
structure Graph.SameConfiguration (graph : Graph) (catalog : Catalog) (left right : Operator) :
    Prop where
  family : catalog.family? left = catalog.family? right
  opType : left.opType = right.opType
  inputs : left.inputs.map graph.kindOf? = right.inputs.map graph.kindOf?
  outputs : left.outputs.map graph.kindOf? = right.outputs.map graph.kindOf?
  params : Param.sameAll left.params right.params = true

/-- Texts and lists of the operator have sizes that an address can express. -/
structure Operator.Addressable (operator : Operator) : Prop where
  family : ∀ family, operator.family = some family → family.utf8ByteSize < sizeLimit
  opType : operator.opType.utf8ByteSize < sizeLimit
  inputs : operator.inputs.length < sizeLimit
  outputs : operator.outputs.length < sizeLimit
  params : operator.params.length < sizeLimit ∧ Param.AllAddressable operator.params

theorem map_eq_of_mapM_eq_some {α β : Type} {f : α → Option β} {arguments : List α}
    {results : List β} (found : arguments.mapM f = some results) :
    arguments.map f = results.map some := by
  induction arguments generalizing results with
  | nil =>
    obtain rfl := Option.some.inj found
    rfl
  | cons argument rest ih =>
    simp only [List.mapM_cons, Option.bind_eq_bind, Option.bind_eq_some_iff] at found
    obtain ⟨result, isFirst, others, areOthers, whole⟩ := found
    obtain rfl := Option.some.inj whole
    rw [List.map_cons, List.map_cons, isFirst, ih areOthers]

theorem Graph.signature?_eq_some {graph : Graph} {operator : Operator} {signature : Signature}
    (found : graph.signature? operator = some signature) :
    operator.inputs.map graph.kindOf? = signature.inputs.map some ∧
      operator.outputs.map graph.kindOf? = signature.outputs.map some := by
  unfold Graph.signature? at found
  simp only [Option.bind_eq_bind, Option.bind_eq_some_iff] at found
  obtain ⟨inputs, areInputs, outputs, areOutputs, whole⟩ := found
  obtain rfl := Option.some.inj whole
  exact ⟨map_eq_of_mapM_eq_some areInputs, map_eq_of_mapM_eq_some areOutputs⟩

namespace Graph

variable {graph : Graph} {catalog : Catalog} {index : Nat} {operator : Operator}
  {key : InstanceKey}

/-- The key of an operator is no larger than the operator and the handlers. -/
theorem instanceKey_addressable (success : graph.instanceKey catalog index operator = .ok key)
    (sized : operator.Addressable)
    (families : ∀ handler ∈ catalog.handlers, handler.descriptor.family.utf8ByteSize < sizeLimit) :
    key.Addressable := by
  obtain ⟨handler, found, family, opType, signed, normalized⟩ := instanceKey_eq_ok success
  have kinds := signature?_eq_some signed
  have params := Param.normalizeAll?_eq_some _ _ normalized
  constructor
  · rw [family]
    cases own : operator.family with
    | some family => exact sized.family family own
    | none => exact families handler (List.mem_of_find?_eq_some found)
  · exact opType ▸ sized.opType
  · have lengths := congrArg List.length kinds.1
    simp only [List.length_map] at lengths
    exact lengths ▸ sized.inputs
  · have lengths := congrArg List.length kinds.2
    simp only [List.length_map] at lengths
    exact lengths ▸ sized.outputs
  · rw [params.1]
    exact ⟨sized.params.1, params.2 sized.params.2⟩

/-- The family of a key is the one of its operator. -/
theorem instanceKey_family (success : graph.instanceKey catalog index operator = .ok key) :
    catalog.family? operator = some key.family := by
  obtain ⟨handler, found, family, _⟩ := instanceKey_eq_ok success
  rw [family, Catalog.family?, found]
  cases operator.family <;> rfl

/-- Operators have the same key if they are configured alike. -/
theorem instanceKey_eq_iff {other : Nat} {left right : Operator} {leftKey rightKey : InstanceKey}
    (isLeft : graph.instanceKey catalog index left = .ok leftKey)
    (isRight : graph.instanceKey catalog other right = .ok rightKey) :
    leftKey = rightKey ↔ graph.SameConfiguration catalog left right := by
  obtain ⟨_, _, _, leftType, leftSigned, leftNormal⟩ := instanceKey_eq_ok isLeft
  obtain ⟨_, _, _, rightType, rightSigned, rightNormal⟩ := instanceKey_eq_ok isRight
  have leftKinds := signature?_eq_some leftSigned
  have rightKinds := signature?_eq_some rightSigned
  have params := Param.sameAll_iff _ _ _ _ leftNormal rightNormal
  have some_injective : Function.Injective (List.map (some : ElementKind → Option ElementKind)) :=
    List.map_injective_iff.mpr fun _ _ => Option.some.inj
  constructor
  · rintro rfl
    constructor
    · rw [instanceKey_family isLeft, instanceKey_family isRight]
    · rw [← leftType, rightType]
    · rw [leftKinds.1, rightKinds.1]
    · rw [leftKinds.2, rightKinds.2]
    · exact params.mpr rfl
  · intro same
    have family : leftKey.family = rightKey.family := by
      apply Option.some.inj
      rw [← instanceKey_family isLeft, ← instanceKey_family isRight, same.family]
    have opType : leftKey.opType = rightKey.opType := by rw [leftType, rightType, same.opType]
    have inputs : leftKey.signature.inputs = rightKey.signature.inputs := by
      apply some_injective
      rw [← leftKinds.1, ← rightKinds.1, same.inputs]
    have outputs : leftKey.signature.outputs = rightKey.signature.outputs := by
      apply some_injective
      rw [← leftKinds.2, ← rightKinds.2, same.outputs]
    have normals : leftKey.params = rightKey.params := params.mp same.params
    exact InstanceKey.eq_of_parts family opType inputs outputs normals

end Graph

/-- Sharing is sound and complete. Two operators of an execution that stops after the first `count`
operators evaluate the same instance exactly if they are configured alike, and different keys have
different encodings. All texts and lists are shorter than an address can express, as they are on
any machine that holds them. -/
theorem Graph.instance_shared_iff (graph : Graph) (count : Nat) (catalog : Catalog)
    (table : InstanceTable) (shared : (graph.truncate count).shareInstances catalog = .ok table)
    (sized : ∀ operator ∈ (graph.truncate count).operators, operator.Addressable)
    (families : ∀ handler ∈ catalog.handlers,
      handler.descriptor.family.utf8ByteSize < sizeLimit) :
    (∀ (i j : Nat) (left right : Operator), (graph.truncate count).operators[i]? = some left →
      (graph.truncate count).operators[j]? = some right →
      ∃ first second, table.instanceOf? i = some first ∧ table.instanceOf? j = some second ∧
        (first.id = second.id ↔ graph.SameConfiguration catalog left right)) ∧
      ∀ left right : InstanceKey, left.Addressable → right.Addressable →
        left.encode = right.encode → left = right := by
  refine ⟨?_, fun left right isLeft isRight => InstanceKey.encode_injective isLeft isRight⟩
  intro i j left right isLeft isRight
  have serves := shareInstances_eq_ok shared
  have nothing : InstanceTable.Keyed [] {} := ⟨List.nodup_nil, .nil⟩
  obtain ⟨keys, keyed, pairs⟩ := shareFrom_keys nothing shared
  rw [List.nil_append] at keyed
  have key_of : ∀ (step : Nat) (operator : Operator),
      (graph.truncate count).operators[step]? = some operator →
      ∃ key index, keys[step]? = some key ∧
        (graph.truncate count).instanceKey catalog index operator = .ok key := by
    intro step operator present
    obtain ⟨inside, rfl⟩ := List.getElem?_eq_some_iff.mp present
    have bound : step < keys.length := pairs.length_eq ▸ inside
    obtain ⟨index, isKey⟩ := (List.forall₂_iff_get.mp pairs).2 step inside bound
    exact ⟨_, index, List.getElem?_eq_getElem bound, isKey⟩
  obtain ⟨leftKey, leftIndex, atLeft, leftKeyed⟩ := key_of i left isLeft
  obtain ⟨rightKey, rightIndex, atRight, rightKeyed⟩ := key_of j right isRight
  obtain ⟨leftId, rightId, leftAssigned, rightAssigned, same⟩ :=
    keyed.assigned_eq_iff atLeft atRight
  have instance_of : ∀ (step id : Nat), table.assigned[step]? = some id →
      ∃ found, table.instanceOf? step = some found ∧ found.id = id := by
    intro step id assigned
    have bound := serves.assigned id (List.mem_of_getElem? assigned)
    have present := List.getElem?_eq_getElem bound
    refine ⟨table.instances[id], ?_, serves.ids id _ present⟩
    unfold InstanceTable.instanceOf?
    rw [assigned]
    exact present
  obtain ⟨first, isFirst, firstId⟩ := instance_of i leftId leftAssigned
  obtain ⟨second, isSecond, secondId⟩ := instance_of j rightId rightAssigned
  have leftSized := instanceKey_addressable leftKeyed
    (sized left (List.mem_of_getElem? isLeft)) families
  have rightSized := instanceKey_addressable rightKeyed
    (sized right (List.mem_of_getElem? isRight)) families
  refine ⟨first, second, isFirst, isSecond, ?_⟩
  calc first.id = second.id
      ↔ leftKey.encode = rightKey.encode := by rw [firstId, secondId, same]
    _ ↔ leftKey = rightKey :=
        ⟨InstanceKey.encode_injective leftSized rightSized, congrArg InstanceKey.encode⟩
    _ ↔ graph.SameConfiguration catalog left right := instanceKey_eq_iff leftKeyed rightKeyed

theorem Catalog.standard_families : ∀ handler ∈ Catalog.standard.handlers,
    handler.descriptor.family.utf8ByteSize < sizeLimit := by
  decide

/-- Three operators that differ at most in a number within a list. -/
def Graph.reshapes : Graph where
  name := "reshapes"
  tensors := [
    { name := "x", kind := .f32, shape := [4] },
    { name := "y", kind := .f32, shape := [4] },
    { name := "z", kind := .f32, shape := [4] },
    { name := "w", kind := .f32, shape := [4] }]
  operators := [
    { opType := "Reshape", inputs := ["x"], outputs := ["y"],
      params := [.list [.list [.float (.zero .double true)]]] },
    { opType := "Reshape", inputs := ["y"], outputs := ["z"],
      params := [.list [.list [.float (.zero .double false)]]] },
    { opType := "Reshape", inputs := ["z"], outputs := ["w"],
      params := [.list [.list [.int 0]]] }]
  inputs := ["x"]
  outputs := ["w"]

theorem Graph.reshapes_addressable :
    ∀ operator ∈ (reshapes.truncate 3).operators, operator.Addressable := by
  intro operator member
  have single : 1 < sizeLimit := by decide
  have shape : operator.family = none ∧ operator.opType = "Reshape" ∧
      operator.inputs.length = 1 ∧ operator.outputs.length = 1 ∧
      ∃ item, operator.params = [.list [.list [item]]] ∧ item.Addressable := by
    simp only [truncate, reshapes, List.take, List.mem_cons, List.not_mem_nil, or_false] at member
    rcases member with rfl | rfl | rfl <;> exact ⟨rfl, rfl, rfl, rfl, _, rfl, trivial⟩
  obtain ⟨family, opType, inputs, outputs, item, params, sized⟩ := shape
  constructor
  · simp [family]
  · rw [opType]
    decide
  · rw [inputs]
    exact single
  · rw [outputs]
    exact single
  · rw [params]
    exact ⟨single, ⟨single, ⟨single, sized, trivial⟩, trivial⟩, trivial⟩

/-- A zero and a negative zero inside a list share an instance, a zero and an integer do not. -/
theorem Graph.reshapes_instance_shared :
    ∃ table, (reshapes.truncate 3).shareInstances .standard = .ok table ∧
      ∃ first second third, table.instanceOf? 0 = some first ∧ table.instanceOf? 1 = some second ∧
        table.instanceOf? 2 = some third ∧ first.id = second.id ∧ second.id ≠ third.id := by
  refine ⟨_, rfl, ?_⟩
  have shared := (instance_shared_iff reshapes 3 .standard _ rfl reshapes_addressable
    Catalog.standard_families).1
  obtain ⟨first, second, isFirst, isSecond, alike⟩ := shared 0 1 _ _ rfl rfl
  obtain ⟨again, third, isAgain, isThird, unlike⟩ := shared 1 2 _ _ rfl rfl
  obtain rfl := Option.some.inj (isSecond.symm.trans isAgain)
  refine ⟨first, second, third, isFirst, isSecond, isThird, alike.mpr ?_, ?_⟩
  · exact ⟨rfl, rfl, rfl, rfl, by decide⟩
  · intro same
    have params := (unlike.mp same).params
    revert params
    decide

end TensorArena
