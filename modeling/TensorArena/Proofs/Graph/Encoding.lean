import TensorArena.Graph.Validation
import TensorArena.Proofs.Graph.Param

/-!
# What the encoding of a graph determines

The encoding of a graph writes nothing where an optional field is missing, so that what follows may
be taken for it. The encoding determines the graph but for that: where two graphs with the same
encoding first differ, one of them has an optional field that the other has not.
-/

set_option autoImplicit false

namespace TensorArena

theorem ElementKind.encode_delimited : Bytes.Delimited (fun _ => True) ElementKind.encode := by
  apply (Bytes.word32_delimited.comap ElementKind.code _).mono
  · intro kind _
    cases kind <;> simp [code]
  · intro left right same
    cases left <;> cases right <;> simp [code] at same <;> rfl

/-! ### Tensors -/

theorem Quantization.encode_delimited : Bytes.Delimited (fun _ => True) Quantization.encode := by
  intro left right _ _ first second same
  have zeroPoints : Bytes.Delimited (fun _ => True) fun value : Int32 =>
      Bytes.word32 value.toBitVec.toNat := by
    apply (Bytes.word32_delimited.comap (fun value : Int32 => value.toBitVec.toNat) _).mono
    · intro value _
      exact value.toBitVec.isLt
    · intro left right same
      exact Int32.toBitVec_inj.mp (BitVec.eq_of_toNat_eq same)
  rw [encode, encode, List.append_assoc, List.append_assoc] at same
  have scale := Binary.encode_single_delimited _ _ trivial trivial _ _ same
  have zeroPoint := zeroPoints _ _ trivial trivial _ _ scale.2
  refine ⟨?_, zeroPoint.2⟩
  cases left
  cases right
  exact congr (congrArg Quantization.mk scale.1) zeroPoint.1

theorem ConstantData.encode_delimited :
    Bytes.Delimited (fun data => data.length < sizeLimit) ConstantData.encode := by
  have floats := Bytes.sequence_delimited Binary.encode_single_delimited
  have ints := Bytes.sequence_delimited encodeInt64_delimited
  have tags (left right : Nat) (isLeft : left < 2) (isRight : right < 2) :=
    Bytes.word32_delimited left right (by omega) (by omega)
  intro left right isLeft isRight first second same
  cases left with
  | floats left =>
    cases right with
    | floats right =>
      rw [encode, encode, List.append_assoc, List.append_assoc] at same
      have rest := (tags 0 0 (by omega) (by omega) _ _ same).2
      have values := floats left right ⟨isLeft, by simp⟩ ⟨isRight, by simp⟩ _ _ rest
      exact ⟨congrArg ConstantData.floats values.1, values.2⟩
    | ints right =>
      rw [encode, encode, List.append_assoc, List.append_assoc] at same
      have tag := (tags 0 1 (by omega) (by omega) _ _ same).1
      omega
  | ints left =>
    cases right with
    | floats right =>
      rw [encode, encode, List.append_assoc, List.append_assoc] at same
      have tag := (tags 1 0 (by omega) (by omega) _ _ same).1
      omega
    | ints right =>
      rw [encode, encode, List.append_assoc, List.append_assoc] at same
      have rest := (tags 1 1 (by omega) (by omega) _ _ same).2
      have values := ints left right ⟨isLeft, by simp⟩ ⟨isRight, by simp⟩ _ _ rest
      exact ⟨congrArg ConstantData.ints values.1, values.2⟩

namespace Tensor

/-- The name, the shape and the contents have sizes that an address can express. -/
structure Encodable (tensor : Tensor) : Prop where
  name : tensor.name.utf8ByteSize < sizeLimit
  shape : tensor.shape.length < sizeLimit
  data : ∀ data, tensor.data = some data → data.length < sizeLimit

/-- The tensors agree up to an optional field that one of them has and the other has not. -/
def Forks (left right : Tensor) : Prop :=
  left.name = right.name ∧ left.kind = right.kind ∧ left.shape = right.shape ∧
    (left.quantization.isSome ≠ right.quantization.isSome ∨
      left.quantization = right.quantization ∧ left.data.isSome ≠ right.data.isSome)

theorem encode_delimited : Bytes.DelimitedUnless Forks Encodable Tensor.encode := by
  have shapes := Bytes.sequence_delimited
    ((Bytes.word64_delimited.comap UInt64.toNat fun _ _ same => UInt64.toNat_inj.mp same).mono
      fun dim (_ : True) => dim.toNat_lt)
  intro left right isLeft isRight first second same
  unfold Tensor.encode at same
  simp only [List.append_assoc] at same
  have name := Bytes.text_delimited _ _ isLeft.name isRight.name _ _ same
  have kind := ElementKind.encode_delimited _ _ trivial trivial _ _ name.2
  have shape := shapes _ _ ⟨isLeft.shape, by simp⟩ ⟨isRight.shape, by simp⟩ _ _ kind.2
  by_cases quantized : left.quantization.isSome = right.quantization.isSome
  · have quantization := Bytes.present_delimited Quantization.encode_delimited _ _
      (fun _ _ => trivial) (fun _ _ => trivial) quantized _ _ shape.2
    by_cases filled : left.data.isSome = right.data.isSome
    · have data := Bytes.present_delimited ConstantData.encode_delimited _ _ isLeft.data
        isRight.data filled _ _ quantization.2
      refine .inl ⟨?_, data.2⟩
      cases left
      cases right
      rw [mk.injEq]
      exact ⟨name.1, kind.1, shape.1, quantization.1, data.1⟩
    · exact .inr ⟨name.1, kind.1, shape.1, .inr ⟨quantization.1, filled⟩⟩
  · exact .inr ⟨name.1, kind.1, shape.1, .inl quantized⟩

end Tensor

/-! ### Operators -/

/-- The texts and their number have sizes that an address can express. -/
def TextsEncodable (texts : List String) : Prop :=
  texts.length < sizeLimit ∧ ∀ text ∈ texts, text.utf8ByteSize < sizeLimit

theorem texts_delimited : Bytes.Delimited TextsEncodable Bytes.texts :=
  Bytes.sequence_delimited Bytes.text_delimited

namespace Operator

/-- All texts and lists have sizes that an address can express. -/
structure Encodable (operator : Operator) : Prop where
  opType : operator.opType.utf8ByteSize < sizeLimit
  family : ∀ family, operator.family = some family → family.utf8ByteSize < sizeLimit
  inputs : TextsEncodable operator.inputs
  outputs : TextsEncodable operator.outputs
  params : operator.params.length < sizeLimit ∧ Param.AllAddressable operator.params
  label : ∀ label, operator.label = some label → label.utf8ByteSize < sizeLimit

/-- The operators agree up to an optional field that one of them has and the other has not. An empty
list of parameters counts as missing. -/
def Forks (left right : Operator) : Prop :=
  left.opType = right.opType ∧
    (left.family.isSome ≠ right.family.isSome ∨
      left.family = right.family ∧ left.inputs = right.inputs ∧ left.outputs = right.outputs ∧
        (left.params.isEmpty ≠ right.params.isEmpty ∨
          left.params = right.params ∧ left.label.isSome ≠ right.label.isSome))

/-- Parameters are written if there are any. -/
theorem params_delimited {left right : List Param}
    (isLeft : left.length < sizeLimit ∧ Param.AllAddressable left)
    (isRight : right.length < sizeLimit ∧ Param.AllAddressable right)
    (alike : left.isEmpty = right.isEmpty) (first second : List UInt8)
    (same : (if left.isEmpty then [] else Param.encodeAll left) ++ first =
      (if right.isEmpty then [] else Param.encodeAll right) ++ second) :
    left = right ∧ first = second := by
  rw [← alike] at same
  by_cases empty : left.isEmpty = true
  · rw [if_pos empty, if_pos empty] at same
    rw [List.isEmpty_iff.mp empty, List.isEmpty_iff.mp (alike.symm.trans empty)]
    exact ⟨rfl, same⟩
  · rw [if_neg empty, if_neg empty] at same
    exact Param.encodeAll_delimited left right isLeft isRight first second same

theorem encode_delimited : Bytes.DelimitedUnless Forks Encodable Operator.encode := by
  intro left right isLeft isRight first second same
  unfold Operator.encode at same
  simp only [List.append_assoc] at same
  have opType := Bytes.text_delimited _ _ isLeft.opType isRight.opType _ _ same
  by_cases named : left.family.isSome = right.family.isSome
  · have family := Bytes.present_delimited Bytes.text_delimited _ _ isLeft.family isRight.family
      named _ _ opType.2
    have inputs := texts_delimited _ _ isLeft.inputs isRight.inputs _ _ family.2
    have outputs := texts_delimited _ _ isLeft.outputs isRight.outputs _ _ inputs.2
    by_cases empty : left.params.isEmpty = right.params.isEmpty
    · have params := params_delimited isLeft.params isRight.params empty _ _ outputs.2
      by_cases labelled : left.label.isSome = right.label.isSome
      · have label := Bytes.present_delimited Bytes.text_delimited _ _ isLeft.label isRight.label
          labelled _ _ params.2
        refine .inl ⟨?_, label.2⟩
        cases left
        cases right
        rw [mk.injEq]
        exact ⟨opType.1, family.1, inputs.1, outputs.1, params.1, label.1⟩
      · exact .inr ⟨opType.1, .inr ⟨family.1, inputs.1, outputs.1, .inr ⟨params.1, labelled⟩⟩⟩
    · exact .inr ⟨opType.1, .inr ⟨family.1, inputs.1, outputs.1, .inl empty⟩⟩
  · exact .inr ⟨opType.1, .inl named⟩

end Operator

/-! ### Graphs -/

namespace Graph

/-- All texts and lists have sizes that an address can express. -/
structure Encodable (graph : Graph) : Prop where
  name : graph.name.utf8ByteSize < sizeLimit
  tensors : graph.tensors.length < sizeLimit ∧ ∀ tensor ∈ graph.tensors, tensor.Encodable
  operators : graph.operators.length < sizeLimit ∧ ∀ operator ∈ graph.operators,
    operator.Encodable
  inputs : TextsEncodable graph.inputs
  outputs : TextsEncodable graph.outputs

/-- The graphs agree up to an optional field that one of them has and the other has not. -/
def Forks (left right : Graph) : Prop :=
  left.name = right.name ∧
    (Bytes.FirstForked Tensor.Forks left.tensors right.tensors ∨
      left.tensors = right.tensors ∧
        Bytes.FirstForked Operator.Forks left.operators right.operators)

/-- Graphs with the same encoding are the same, or the first field in which they differ is an
optional one that one of them has and the other has not. Graphs with the same fingerprint may
besides have two encodings with the same hash. -/
theorem encode_identifies (left right : Graph) (isLeft : left.Encodable)
    (isRight : right.Encodable) :
    (left.encode = right.encode → left = right ∨ left.Forks right) ∧
      (left.fingerprint = right.fingerprint → left = right ∨ left.Forks right ∨
        left.encode ≠ right.encode ∧
          Fingerprint.ofBytes left.encode = Fingerprint.ofBytes right.encode) := by
  have encoded : left.encode = right.encode → left = right ∨ left.Forks right := by
    intro same
    unfold Graph.encode at same
    simp only [List.append_assoc] at same
    have name := Bytes.text_delimited _ _ isLeft.name isRight.name _ _ same
    rcases Tensor.encode_delimited.sequence _ _ isLeft.tensors isRight.tensors _ _ name.2 with
      ⟨tensors, rest⟩ | forked
    · rcases Operator.encode_delimited.sequence _ _ isLeft.operators isRight.operators _ _ rest with
        ⟨operators, rest⟩ | forked
      · have inputs := texts_delimited _ _ isLeft.inputs isRight.inputs _ _ rest
        have outputs := texts_delimited.injective isLeft.outputs isRight.outputs inputs.2
        left
        cases left
        cases right
        rw [mk.injEq]
        exact ⟨name.1, tensors, operators, inputs.1, outputs⟩
      · exact .inr ⟨name.1, .inr ⟨tensors, forked⟩⟩
    · exact .inr ⟨name.1, .inl forked⟩
  refine ⟨encoded, fun hashed => ?_⟩
  by_cases same : left.encode = right.encode
  · exact (encoded same).imp id .inl
  · exact .inr (.inr ⟨same, hashed⟩)

/-- A graph with a constant and a tensor of no dimension. -/
def constantPair : Graph where
  name := "pair"
  tensors := [
    { name := "codes", kind := .si8, shape := [2], data := some (.ints [0, 3]) },
    { name := "abcd", kind := .f32, shape := [] }]

/-- A graph with a quantized tensor and a nameless one, whose second dimension has the bytes of a
text and of an element kind. -/
def quantizedPair : Graph where
  name := "pair"
  tensors := [
    { name := "codes", kind := .si8, shape := [2],
      quantization := some ⟨.ofSteps .single false 1 1, 2⟩ },
    { name := "", kind := .i1, shape := [4, 0x964636261, 0] }]

/-- Two different graphs, both valid, have one encoding: what stands behind the first shape is the
contents of a constant in one, and in the other a quantization and the beginning of a tensor without
a name. -/
theorem encode_not_injective :
    constantPair.validate = .ok () ∧ quantizedPair.validate = .ok () ∧
      constantPair ≠ quantizedPair ∧ constantPair.encode = quantizedPair.encode ∧
      constantPair.fingerprint = quantizedPair.fingerprint := by
  have encoded : constantPair.encode = quantizedPair.encode := by decide +kernel
  have unlike : constantPair ≠ quantizedPair := by
    intro same
    have tensors : constantPair.tensors ≠ quantizedPair.tensors := by decide
    exact tensors (congrArg Graph.tensors same)
  exact ⟨rfl, rfl, unlike, encoded, congrArg Fingerprint.ofBytes encoded⟩

/-- The two graphs part at the quantization of their first tensor. -/
theorem constantPair_forks :
    constantPair.Encodable ∧ quantizedPair.Encodable ∧ constantPair.encode = quantizedPair.encode ∧
      constantPair.Forks quantizedPair := by
  have texts : TextsEncodable [] := ⟨by decide, by simp⟩
  have constant : constantPair.Encodable := by
    refine ⟨by decide, ⟨by decide, ?_⟩, ⟨by decide, by simp [constantPair]⟩, texts, texts⟩
    simp only [constantPair, List.forall_mem_cons, List.not_mem_nil, false_imp_iff, implies_true,
      and_true]
    exact ⟨⟨by decide, by decide, by simp [ConstantData.length, sizeLimit]⟩,
      ⟨by decide, by decide, by simp⟩⟩
  have quantized : quantizedPair.Encodable := by
    refine ⟨by decide, ⟨by decide, ?_⟩, ⟨by decide, by simp [quantizedPair]⟩, texts, texts⟩
    simp only [quantizedPair, List.forall_mem_cons, List.not_mem_nil, false_imp_iff, implies_true,
      and_true]
    exact ⟨⟨by decide, by decide, by simp⟩, ⟨by decide, by decide, by simp⟩⟩
  have same : constantPair.encode = quantizedPair.encode := by decide +kernel
  have unlike : constantPair.tensors ≠ quantizedPair.tensors := by decide
  have forked := (encode_identifies constantPair quantizedPair constant quantized).1 same
  exact ⟨constant, quantized, same,
    forked.resolve_left fun equal => unlike (congrArg Graph.tensors equal)⟩

end Graph

end TensorArena
