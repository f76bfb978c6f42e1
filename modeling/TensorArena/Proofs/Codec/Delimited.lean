import Mathlib.Algebra.Group.Nat.Defs
import TensorArena.Codec.Bytes
import TensorArena.Tensor.Basic

/-!
# Encodings that delimit themselves

An encoding delimits itself when no other value has an encoding that begins the same way. Then
encodings can be put one after the other and still be told apart. Lengths are written in eight
bytes, so what is encoded must be shorter than an address can express.
-/

set_option autoImplicit false

namespace TensorArena.Bytes

variable {α β : Type}

/-- An encoding and whatever follows it determine the value, among the valid ones. -/
def Delimited (valid : α → Prop) (encode : α → List UInt8) : Prop :=
  ∀ left right, valid left → valid right → ∀ first second,
    encode left ++ first = encode right ++ second → left = right ∧ first = second

namespace Delimited

variable {valid : α → Prop} {encode : α → List UInt8}

theorem injective (delimited : Delimited valid encode) {left right : α} (isLeft : valid left)
    (isRight : valid right) (same : encode left = encode right) : left = right := by
  apply (delimited left right isLeft isRight [] [] _).1
  rw [same]

/-- Encodings of one length need only be different. -/
theorem of_length (length : Nat) (sized : ∀ value, valid value → (encode value).length = length)
    (injective : ∀ left right, valid left → valid right → encode left = encode right →
      left = right) : Delimited valid encode := by
  intro left right isLeft isRight first second same
  have lengths : (encode left).length = (encode right).length := by
    rw [sized left isLeft, sized right isRight]
  have parts := List.append_inj same lengths
  exact ⟨injective left right isLeft isRight parts.1, parts.2⟩

/-- A value may be encoded through another one that determines it. -/
theorem comap (delimited : Delimited valid encode) (f : β → α)
    (injective : ∀ left right, f left = f right → left = right) :
    Delimited (fun value => valid (f value)) fun value => encode (f value) := by
  intro left right isLeft isRight first second same
  have parts := delimited (f left) (f right) isLeft isRight first second same
  exact ⟨injective left right parts.1, parts.2⟩

theorem mono (delimited : Delimited valid encode) {narrower : α → Prop}
    (narrow : ∀ value, narrower value → valid value) : Delimited narrower encode := by
  intro left right isLeft isRight
  exact delimited left right (narrow left isLeft) (narrow right isRight)

/-- As many items one after the other can be told apart if their number is known. -/
theorem flatMap (delimited : Delimited valid encode) (lefts rights : List α)
    (areLeft : ∀ item ∈ lefts, valid item) (areRight : ∀ item ∈ rights, valid item)
    (lengths : lefts.length = rights.length) (first second : List UInt8)
    (same : lefts.flatMap encode ++ first = rights.flatMap encode ++ second) :
    lefts = rights ∧ first = second := by
  induction lefts generalizing rights with
  | nil =>
    cases rights with
    | nil => exact ⟨rfl, same⟩
    | cons right rights => simp at lengths
  | cons left lefts ih =>
    cases rights with
    | nil => simp at lengths
    | cons right rights =>
      rw [List.forall_mem_cons] at areLeft areRight
      rw [List.flatMap_cons, List.flatMap_cons, List.append_assoc, List.append_assoc] at same
      have head := delimited left right areLeft.1 areRight.1 _ _ same
      have tail := ih rights areLeft.2 areRight.2 (by simpa using lengths) head.2
      rw [head.1, tail.1]
      exact ⟨rfl, tail.2⟩

end Delimited

/-! ### Numbers -/

@[simp] theorem littleEndian_length (count value : Nat) :
    (littleEndian count value).length = count := by
  induction count generalizing value with
  | zero => rfl
  | succ count ih => simp [littleEndian, ih]

theorem littleEndian_injective (count left right : Nat) (isLeft : left < 256 ^ count)
    (isRight : right < 256 ^ count) (same : littleEndian count left = littleEndian count right) :
    left = right := by
  induction count generalizing left right with
  | zero => simp at isLeft isRight; omega
  | succ count ih =>
    rw [littleEndian, littleEndian, List.cons.injEq] at same
    have low : left % 256 = right % 256 := by
      have bytes := congrArg UInt8.toNat same.1
      simpa only [UInt8.toNat_ofNat'] using bytes
    rw [Nat.pow_succ] at isLeft isRight
    have high : left / 256 = right / 256 := by
      apply ih
      · exact Nat.div_lt_of_lt_mul (by omega)
      · exact Nat.div_lt_of_lt_mul (by omega)
      · exact same.2
    omega

theorem littleEndian_delimited (count : Nat) :
    Delimited (· < 256 ^ count) (littleEndian count) := by
  apply Delimited.of_length count
  · intro value _
    exact littleEndian_length count value
  · exact littleEndian_injective count

theorem word64_delimited : Delimited (· < sizeLimit) word64 := littleEndian_delimited 8

theorem word32_delimited : Delimited (· < 4294967296) word32 := littleEndian_delimited 4

theorem truth_delimited : Delimited (fun _ => True) truth := by
  apply Delimited.of_length 1
  · intro value _
    rfl
  · intro left right _ _ same
    cases left <;> cases right <;> simp [truth] at same ⊢

/-! ### Sequences -/

theorem sequence_delimited {valid : α → Prop} {encode : α → List UInt8}
    (delimited : Delimited valid encode) :
    Delimited (fun items => items.length < sizeLimit ∧ ∀ item ∈ items, valid item)
      (sequence encode) := by
  intro lefts rights areLeft areRight first second same
  rw [sequence, sequence, List.append_assoc, List.append_assoc] at same
  have lengths := word64_delimited _ _ areLeft.1 areRight.1 _ _ same
  exact delimited.flatMap lefts rights areLeft.2 areRight.2 lengths.1 first second lengths.2

/-! ### Parts that may be missing -/

/-- An encoding and whatever follows it determine the value, unless the two values are forked. -/
def DelimitedUnless (forked : α → α → Prop) (valid : α → Prop) (encode : α → List UInt8) : Prop :=
  ∀ left right, valid left → valid right → ∀ first second,
    encode left ++ first = encode right ++ second →
      left = right ∧ first = second ∨ forked left right

/-- The lists are of one length, and the first items in which they differ are forked. -/
def FirstForked (forked : α → α → Prop) (lefts rights : List α) : Prop :=
  lefts.length = rights.length ∧ ∃ before left leftRest right rightRest,
    lefts = before ++ left :: leftRest ∧ rights = before ++ right :: rightRest ∧ forked left right

/-- A missing part is told from one that is there by nothing but what follows. -/
theorem present_delimited {valid : α → Prop} {encode : α → List UInt8}
    (delimited : Delimited valid encode) (left right : Option α)
    (isLeft : ∀ value, left = some value → valid value)
    (isRight : ∀ value, right = some value → valid value) (alike : left.isSome = right.isSome)
    (first second : List UInt8)
    (same : present encode left ++ first = present encode right ++ second) :
    left = right ∧ first = second := by
  cases left with
  | none =>
    cases right with
    | none => exact ⟨rfl, same⟩
    | some right => cases alike
  | some left =>
    cases right with
    | none => cases alike
    | some right =>
      have parts := delimited left right (isLeft left rfl) (isRight right rfl) first second
        (List.cons.inj same).2
      exact ⟨congrArg some parts.1, parts.2⟩

namespace DelimitedUnless

variable {forked : α → α → Prop} {valid : α → Prop} {encode : α → List UInt8}

theorem flatMap (delimited : DelimitedUnless forked valid encode) (lefts rights : List α)
    (areLeft : ∀ item ∈ lefts, valid item) (areRight : ∀ item ∈ rights, valid item)
    (lengths : lefts.length = rights.length) (first second : List UInt8)
    (same : lefts.flatMap encode ++ first = rights.flatMap encode ++ second) :
    lefts = rights ∧ first = second ∨ FirstForked forked lefts rights := by
  induction lefts generalizing rights with
  | nil =>
    cases rights with
    | nil => exact .inl ⟨rfl, same⟩
    | cons right rights => simp at lengths
  | cons left lefts ih =>
    cases rights with
    | nil => simp at lengths
    | cons right rights =>
      rw [List.forall_mem_cons] at areLeft areRight
      rw [List.flatMap_cons, List.flatMap_cons, List.append_assoc, List.append_assoc] at same
      rcases delimited left right areLeft.1 areRight.1 _ _ same with ⟨head, rest⟩ | forked
      · have shorter : lefts.length = rights.length := by simpa using lengths
        rcases ih rights areLeft.2 areRight.2 shorter rest with ⟨tail, follows⟩ | ⟨_, found⟩
        · rw [head, tail]
          exact .inl ⟨rfl, follows⟩
        · have ⟨before, one, oneRest, other, otherRest, isOne, isOther, forked⟩ := found
          refine .inr ⟨lengths, right :: before, one, oneRest, other, otherRest, ?_, ?_, forked⟩
          · rw [head, isOne, List.cons_append]
          · rw [isOther, List.cons_append]
      · exact .inr ⟨lengths, [], left, lefts, right, rights, rfl, rfl, forked⟩

theorem sequence (delimited : DelimitedUnless forked valid encode) :
    DelimitedUnless (FirstForked forked)
      (fun items => items.length < sizeLimit ∧ ∀ item ∈ items, valid item)
      (Bytes.sequence encode) := by
  intro lefts rights areLeft areRight first second same
  rw [Bytes.sequence, Bytes.sequence, List.append_assoc, List.append_assoc] at same
  have lengths := word64_delimited _ _ areLeft.1 areRight.1 _ _ same
  exact delimited.flatMap lefts rights areLeft.2 areRight.2 lengths.1 first second lengths.2

end DelimitedUnless

/-! ### Texts -/

/-- The loop collects the bytes from `start` on behind those it has taken already. -/
theorem toList_loop (bytes : ByteArray) (start : Nat) (done : List UInt8) :
    ByteArray.toList.loop bytes start done = done.reverse ++ bytes.data.toList.drop start := by
  induction left : bytes.size - start generalizing start done with
  | zero =>
    have past : ¬ start < bytes.size := by omega
    rw [ByteArray.toList.loop.eq_def, if_neg past, List.drop_eq_nil_of_le, List.append_nil]
    simpa using past
  | succ left ih =>
    have inside : start < bytes.size := by omega
    rw [ByteArray.toList.loop.eq_def, if_pos inside, ih (start + 1) _ (by omega)]
    have next : start < bytes.data.toList.length := by simpa using inside
    rw [List.drop_eq_getElem_cons next, List.reverse_cons, List.append_assoc]
    simp [ByteArray.get!, getElem!_pos, inside]

theorem toList_eq (bytes : ByteArray) : bytes.toList = bytes.data.toList := by
  rw [ByteArray.toList, toList_loop]
  simp

/-- A text is encoded as the sequence of its bytes. -/
theorem text_delimited : Delimited (·.utf8ByteSize < sizeLimit) text := by
  have bytes : Delimited (fun _ => True) fun byte : UInt8 => [byte] := by
    apply Delimited.of_length 1
    · intro value _
      rfl
    · intro left right _ _ same
      simpa using same
  have texts := (sequence_delimited bytes).comap (fun value : String => value.toUTF8.toList) (by
    intro left right same
    rw [toList_eq, toList_eq] at same
    apply String.toByteArray_inj.mp
    apply ByteArray.ext
    exact Array.toList_inj.mp same)
  have shape : text = fun value : String =>
      sequence (fun byte : UInt8 => [byte]) value.toUTF8.toList := by
    funext value
    simp [text, sequence]
  rw [shape]
  apply texts.mono
  intro value short
  refine ⟨?_, by simp⟩
  rw [toList_eq, Array.length_toList]
  exact short

end TensorArena.Bytes
