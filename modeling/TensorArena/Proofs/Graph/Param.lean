import TensorArena.Graph.Encoding
import TensorArena.Proofs.Codec.Delimited

/-!
# Encodings of parameters

The encoding of a parameter determines the parameter, at any depth of nested lists. Normalized
parameters are equal exactly if the parameters they come from are numerically equal.
-/

set_option autoImplicit false

namespace TensorArena

/-! ### Floating-point numbers -/

namespace Binary

variable {format : BinaryFormat}

theorem toBits_injective (left right : Binary format) (same : left.toBits = right.toBits) :
    left = right := by
  obtain ⟨leftSign, leftPattern⟩ := left
  obtain ⟨rightSign, rightPattern⟩ := right
  have isLeft := leftPattern.isLt
  have isRight := rightPattern.isLt
  have patterns : leftSign = rightSign ∧ leftPattern.val = rightPattern.val := by
    cases leftSign <;> cases rightSign <;> simp [toBits] at same ⊢ <;> omega
  rw [patterns.1, Fin.ext patterns.2]

theorem toBits_lt (value : Binary format) : value.toBits < 2 * format.patterns := by
  have := value.pattern.isLt
  unfold toBits
  split <;> omega

/-- A format whose bits fill whole bytes loses nothing in its encoding. -/
theorem encode_delimited
    (whole : 2 * format.patterns ≤ 256 ^ ((1 + format.exponentBits + format.fractionBits) / 8)) :
    Bytes.Delimited (fun _ => True) fun value : Binary format => value.encode := by
  apply ((Bytes.littleEndian_delimited _).comap toBits toBits_injective).mono
  intro value _
  exact Nat.lt_of_lt_of_le value.toBits_lt whole

theorem encode_single_delimited :
    Bytes.Delimited (fun _ => True) fun value : Binary32 => value.encode :=
  encode_delimited (by decide)

theorem encode_double_delimited :
    Bytes.Delimited (fun _ => True) fun value : Binary64 => value.encode :=
  encode_delimited (by decide)

/-- Numbers other than NaN are numerically equal if they are the same once negative zero is
replaced. -/
theorem same_iff (left right : Binary format) (isLeft : left.isNaN = false)
    (isRight : right.isNaN = false) :
    left.same right = true ↔
      (if left.isZero then zero format false else left) =
        if right.isZero then zero format false else right := by
  have zeros : ∀ value : Binary format, value.isZero = true →
      value = zero format value.negative := by
    rintro ⟨negative, pattern⟩ isZero
    have empty : pattern.val = 0 := by simpa [Binary.isZero] using isZero
    simp only [zero, Binary.mk.injEq, true_and]
    exact Fin.ext empty
  have unsigned : (zero format false).isZero = true := by simp [Binary.isZero, zero]
  unfold same
  by_cases leftZero : left.isZero = true
  · by_cases rightZero : right.isZero = true
    · simp [isLeft, isRight, leftZero, rightZero]
    · have unlike : left ≠ right := fun equal => rightZero (equal ▸ leftZero)
      have other : zero format false ≠ right := fun equal => rightZero (equal ▸ unsigned)
      simp [isLeft, isRight, leftZero, rightZero, unlike, other]
  · by_cases rightZero : right.isZero = true
    · have unlike : left ≠ right := fun equal => leftZero (equal ▸ rightZero)
      have other : left ≠ zero format false := fun equal => leftZero (equal ▸ unsigned)
      simp [isLeft, isRight, leftZero, rightZero, unlike, other]
    · simp [isLeft, isRight, leftZero, rightZero]

end Binary

theorem encodeInt64_delimited : Bytes.Delimited (fun _ => True) encodeInt64 := by
  apply (Bytes.word64_delimited.comap (fun value : Int64 => value.toBitVec.toNat) _).mono
  · intro value _
    exact value.toBitVec.isLt
  · intro left right same
    exact Int64.toBitVec_inj.mp (BitVec.eq_of_toNat_eq same)

namespace Param

/-! ### Sizes -/

mutual

/-- Every text and every list of the parameter has a size that an address can express. -/
def Addressable : Param → Prop
  | text value => value.utf8ByteSize < sizeLimit
  | ident value => value.utf8ByteSize < sizeLimit
  | list items => items.length < sizeLimit ∧ AllAddressable items
  | _ => True

def AllAddressable : List Param → Prop
  | [] => True
  | item :: items => Addressable item ∧ AllAddressable items

end

/-! ### Encodings -/

/-- What stands in the encoding of a parameter behind the number of its kind. -/
def payload : Param → List UInt8
  | int value => encodeInt64 value
  | float value => value.encode
  | bool value => Bytes.truth value
  | text value => Bytes.text value
  | ident value => Bytes.text value
  | list items => encodeAll items

/-- The number that an encoding begins with. -/
def code : Param → Nat
  | int _ => 0
  | float _ => 1
  | bool _ => 2
  | text _ => 3
  | ident _ => 4
  | list _ => 5

theorem encode_eq (param : Param) : param.encode = Bytes.word32 param.code ++ param.payload := by
  cases param with
  | list items => rw [encode, payload, encodeAll, code, List.append_assoc]
  | _ => rfl

theorem code_lt (param : Param) : param.code < 4294967296 := by
  cases param <;> simp [code]

mutual

theorem payload_delimited : ∀ left right : Param, left.Addressable → right.Addressable →
    left.code = right.code → ∀ first second,
    left.payload ++ first = right.payload ++ second → left = right ∧ first = second
  | int left, int right, _, _, _, first, second, same => by
    have parts := encodeInt64_delimited left right trivial trivial first second same
    exact ⟨congrArg int parts.1, parts.2⟩
  | float left, float right, _, _, _, first, second, same => by
    have parts := Binary.encode_double_delimited left right trivial trivial first second same
    exact ⟨congrArg float parts.1, parts.2⟩
  | bool left, bool right, _, _, _, first, second, same => by
    have parts := Bytes.truth_delimited left right trivial trivial first second same
    exact ⟨congrArg bool parts.1, parts.2⟩
  | text left, text right, isLeft, isRight, _, first, second, same => by
    have parts := Bytes.text_delimited left right isLeft isRight first second same
    exact ⟨congrArg text parts.1, parts.2⟩
  | ident left, ident right, isLeft, isRight, _, first, second, same => by
    have parts := Bytes.text_delimited left right isLeft isRight first second same
    exact ⟨congrArg ident parts.1, parts.2⟩
  | list lefts, list rights, areLeft, areRight, _, first, second, same => by
    have parts := encodeAll_delimited lefts rights areLeft areRight first second same
    exact ⟨congrArg list parts.1, parts.2⟩

theorem encodeItems_delimited : ∀ lefts rights : List Param, AllAddressable lefts →
    AllAddressable rights → lefts.length = rights.length → ∀ first second,
    encodeItems lefts ++ first = encodeItems rights ++ second → lefts = rights ∧ first = second
  | [], [], _, _, _, _, _, same => ⟨rfl, same⟩
  | left :: lefts, right :: rights, areLeft, areRight, lengths, first, second, same => by
    rw [encodeItems, encodeItems, encode_eq, encode_eq] at same
    simp only [List.append_assoc] at same
    have tags := Bytes.word32_delimited _ _ left.code_lt right.code_lt _ _ same
    have head := payload_delimited left right areLeft.1 areRight.1 tags.1 _ _ tags.2
    have tail := encodeItems_delimited lefts rights areLeft.2 areRight.2 (by simpa using lengths)
      first second head.2
    rw [head.1, tail.1]
    exact ⟨rfl, tail.2⟩

theorem encodeAll_delimited : ∀ lefts rights : List Param,
    (lefts.length < sizeLimit ∧ AllAddressable lefts) →
    (rights.length < sizeLimit ∧ AllAddressable rights) → ∀ first second,
    encodeAll lefts ++ first = encodeAll rights ++ second → lefts = rights ∧ first = second
  | lefts, rights, areLeft, areRight, first, second, same => by
    rw [encodeAll, encodeAll, List.append_assoc, List.append_assoc] at same
    have lengths := Bytes.word64_delimited _ _ areLeft.1 areRight.1 _ _ same
    exact encodeItems_delimited lefts rights areLeft.2 areRight.2 lengths.1 first second lengths.2

end

/-! ### Normalization -/

theorem normalizeAll?_cons {param : Param} {params normals : List Param}
    (found : normalizeAll? (param :: params) = some normals) :
    ∃ normal, param.normalize? = some normal ∧ ∃ others,
      normalizeAll? params = some others ∧ normals = normal :: others := by
  unfold normalizeAll? at found
  obtain ⟨normal, isFirst, found⟩ := Option.bind_eq_some_iff.mp found
  obtain ⟨others, areOthers, whole⟩ := Option.bind_eq_some_iff.mp found
  exact ⟨normal, isFirst, others, areOthers, (Option.some.inj whole).symm⟩

theorem code_eq_of_same (left right : Param) (equal : left.same right = true) :
    left.code = right.code := by
  cases left <;> cases right <;> simp [same] at equal <;> rfl

mutual

/-- A normalized parameter is of the same kind and no larger. -/
theorem normalize?_eq_some : ∀ param normal : Param, param.normalize? = some normal →
    normal.code = param.code ∧ (param.Addressable → normal.Addressable)
  | float value, normal, found => by
    unfold normalize? at found
    split at found
    · cases found
    · split at found <;> obtain rfl := Option.some.inj found <;> exact ⟨rfl, id⟩
  | list items, normal, found => by
    obtain ⟨normals, foundAll, rfl⟩ := Option.map_eq_some_iff.mp found
    have kept := normalizeAll?_eq_some items normals foundAll
    refine ⟨rfl, fun sized => ⟨?_, kept.2 sized.2⟩⟩
    rw [kept.1]
    exact sized.1
  | int _, _, found => by obtain rfl := Option.some.inj found; exact ⟨rfl, id⟩
  | bool _, _, found => by obtain rfl := Option.some.inj found; exact ⟨rfl, id⟩
  | text _, _, found => by obtain rfl := Option.some.inj found; exact ⟨rfl, id⟩
  | ident _, _, found => by obtain rfl := Option.some.inj found; exact ⟨rfl, id⟩

theorem normalizeAll?_eq_some : ∀ params normals : List Param,
    normalizeAll? params = some normals →
    normals.length = params.length ∧ (AllAddressable params → AllAddressable normals)
  | [], normals, found => by
    obtain rfl := Option.some.inj found
    exact ⟨rfl, id⟩
  | param :: params, normals, found => by
    obtain ⟨normal, foundOne, others, foundAll, rfl⟩ := normalizeAll?_cons found
    have head := normalize?_eq_some param normal foundOne
    have tail := normalizeAll?_eq_some params others foundAll
    exact ⟨congrArg (· + 1) tail.1, fun sized => ⟨head.2 sized.1, tail.2 sized.2⟩⟩

end

mutual

theorem same_iff_of_code : ∀ left right leftNormal rightNormal : Param,
    left.code = right.code → left.normalize? = some leftNormal →
    right.normalize? = some rightNormal → (left.same right = true ↔ leftNormal = rightNormal)
  | float left, float right, leftNormal, rightNormal, _, isLeft, isRight => by
    have normal : ∀ value : Binary64, ∀ found, (float value).normalize? = some found →
        value.isNaN = false ∧
          found = float (if value.isZero then .zero .double false else value) := by
      intro value found normalized
      unfold normalize? at normalized
      by_cases isNaN : value.isNaN = true
      · simp [isNaN] at normalized
      · by_cases isZero : value.isZero = true <;> simp [isNaN, isZero] at normalized ⊢ <;>
          exact normalized.symm
    have first := normal left leftNormal isLeft
    have second := normal right rightNormal isRight
    rw [same, first.2, second.2, float.injEq]
    exact Binary.same_iff left right first.1 second.1
  | list lefts, list rights, leftNormal, rightNormal, _, isLeft, isRight => by
    obtain ⟨leftNormals, foundLeft, rfl⟩ := Option.map_eq_some_iff.mp isLeft
    obtain ⟨rightNormals, foundRight, rfl⟩ := Option.map_eq_some_iff.mp isRight
    rw [same, list.injEq]
    exact sameAll_iff lefts rights leftNormals rightNormals foundLeft foundRight
  | int left, int right, _, _, _, isLeft, isRight => by
    rw [← Option.some.inj isLeft, ← Option.some.inj isRight, same, int.injEq, beq_iff_eq]
  | bool left, bool right, _, _, _, isLeft, isRight => by
    rw [← Option.some.inj isLeft, ← Option.some.inj isRight, same, bool.injEq, beq_iff_eq]
  | text left, text right, _, _, _, isLeft, isRight => by
    rw [← Option.some.inj isLeft, ← Option.some.inj isRight, same, text.injEq, beq_iff_eq]
  | ident left, ident right, _, _, _, isLeft, isRight => by
    rw [← Option.some.inj isLeft, ← Option.some.inj isRight, same, ident.injEq, beq_iff_eq]

/-- Lists of parameters are numerically equal if they normalize to the same list. -/
theorem sameAll_iff : ∀ lefts rights leftNormals rightNormals : List Param,
    normalizeAll? lefts = some leftNormals → normalizeAll? rights = some rightNormals →
    (sameAll lefts rights = true ↔ leftNormals = rightNormals)
  | [], [], _, _, areLeft, areRight => by
    rw [← Option.some.inj areLeft, ← Option.some.inj areRight]
    simp [sameAll]
  | [], right :: rights, _, _, areLeft, areRight => by
    obtain ⟨_, _, _, _, rfl⟩ := normalizeAll?_cons areRight
    rw [← Option.some.inj areLeft]
    simp [sameAll]
  | left :: lefts, [], _, _, areLeft, areRight => by
    obtain ⟨_, _, _, _, rfl⟩ := normalizeAll?_cons areLeft
    rw [← Option.some.inj areRight]
    simp [sameAll]
  | left :: lefts, right :: rights, _, _, areLeft, areRight => by
    obtain ⟨leftNormal, isLeft, leftNormals, foundLeft, rfl⟩ := normalizeAll?_cons areLeft
    obtain ⟨rightNormal, isRight, rightNormals, foundRight, rfl⟩ := normalizeAll?_cons areRight
    have tail := sameAll_iff lefts rights leftNormals rightNormals foundLeft foundRight
    rw [sameAll, Bool.and_eq_true, tail, List.cons.injEq]
    apply and_congr_left
    intro _
    by_cases codes : left.code = right.code
    · exact same_iff_of_code left right leftNormal rightNormal codes isLeft isRight
    · have unlike : leftNormal ≠ rightNormal := by
        intro equal
        apply codes
        rw [← (normalize?_eq_some left leftNormal isLeft).1, equal]
        exact (normalize?_eq_some right rightNormal isRight).1
      simp only [unlike, iff_false]
      exact fun equal => codes (code_eq_of_same left right equal)

end

end Param

end TensorArena
