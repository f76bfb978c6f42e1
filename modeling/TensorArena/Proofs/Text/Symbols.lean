import Mathlib.Algebra.Group.Nat.Defs
import Mathlib.Data.List.Basic
import TensorArena.Text.Identifier

/-!
# Symbols

A sanitized name is an identifier, and stays one when letters, digits and underscores are appended.
Where a number is appended behind an underscore, the symbol determines both the name and the number.
-/

set_option autoImplicit false

namespace TensorArena

/-! ### Identifiers -/

namespace Identifier

theorem isPart_of_isStart {c : Char} (start : isStart c = true) : isPart c = true := by
  unfold isStart at start
  rcases Bool.or_eq_true_iff.mp start with letter | underscore
  · simp [isPart, Char.isAlphanum, letter]
  · simp [isPart, underscore]

/-- Only a digit is no first character of an identifier that occurs in one. -/
theorem isStart_of_isPart {c : Char} (part : isPart c = true) (other : c.isDigit = false) :
    isStart c = true := by
  simpa [isPart, isStart, Char.isAlphanum, other] using part

theorem isPart_of_isDigit {c : Char} (digit : c.isDigit = true) : isPart c = true := by
  simp [isPart, Char.isAlphanum, digit]

theorem ne_underscore_of_isDigit {c : Char} (digit : c.isDigit = true) : c ≠ '_' := by
  intro same
  rw [same] at digit
  cases digit

theorem isPart_of_isAlpha {c : Char} (letter : c.isAlpha = true) : isPart c = true := by
  simp [isPart, Char.isAlphanum, letter]

theorem bounds_of_isStart {c : Char} (start : isStart c = true) :
    65 ≤ c.toNat ∧ c.toNat ≤ 122 := by
  rcases Bool.or_eq_true_iff.mp start with letter | underscore
  · rcases Bool.or_eq_true_iff.mp letter with upper | lower
    · have range : 'A'.val ≤ c.val ∧ c.val ≤ 'Z'.val := of_decide_eq_true upper
      have least : 65 ≤ c.toNat := UInt32.le_iff_toNat_le.mp range.1
      have greatest : c.toNat ≤ 90 := UInt32.le_iff_toNat_le.mp range.2
      omega
    · have range := Bool.and_eq_true_iff.mp lower
      have least : 97 ≤ c.toNat := UInt32.le_iff_toNat_le.mp (of_decide_eq_true range.1)
      have greatest : c.toNat ≤ 122 := UInt32.le_iff_toNat_le.mp (of_decide_eq_true range.2)
      omega
  · rw [eq_of_beq underscore]
    decide

/-- Identifiers are written in ASCII. -/
theorem toNat_lt_of_isPart {c : Char} (part : isPart c = true) : c.toNat < 128 := by
  have bounded (last : Char) (ascii : last.toNat < 128) (above : c ≤ last) : c.toNat < 128 :=
    Nat.lt_of_le_of_lt (UInt32.le_iff_toNat_le.mp above) ascii
  rcases Bool.or_eq_true_iff.mp part with alphanumeric | underscore
  · rcases Bool.or_eq_true_iff.mp alphanumeric with letter | digit
    · rcases Bool.or_eq_true_iff.mp letter with upper | lower
      · exact bounded 'Z' (by decide) (of_decide_eq_true upper).2
      · exact bounded 'z' (by decide) (of_decide_eq_true (Bool.and_eq_true_iff.mp lower).2)
    · exact bounded '9' (by decide) (of_decide_eq_true (Bool.and_eq_true_iff.mp digit).2)
  · rw [eq_of_beq underscore]
    decide

theorem isPart_toLower {c : Char} (part : isPart c = true) : isPart c.toLower = true := by
  unfold Char.toLower
  split
  next upper =>
    have least : 65 ≤ c.val.toNat := UInt32.le_iff_toNat_le.mp upper.1
    have greatest : c.val.toNat ≤ 90 := UInt32.le_iff_toNat_le.mp upper.2
    have moved : (c.val + 32).toNat = c.val.toNat + 32 := by
      rw [UInt32.toNat_add]
      apply Nat.mod_eq_of_lt
      show c.val.toNat + 32 < 2 ^ 32
      omega
    have above : (97 : UInt32) ≤ c.val + 32 := by
      apply UInt32.le_iff_toNat_le.mpr
      show 97 ≤ (c.val + 32).toNat
      omega
    have below : c.val + 32 ≤ (122 : UInt32) := by
      apply UInt32.le_iff_toNat_le.mpr
      show (c.val + 32).toNat ≤ 122
      omega
    apply isPart_of_isAlpha
    apply Bool.or_eq_true_iff.mpr
    exact .inr (Bool.and_eq_true_iff.mpr ⟨decide_eq_true above, decide_eq_true below⟩)
  · exact part

/-- What is appended to an identifier may begin with a digit. -/
theorem isIdentifier_append {start rest : String} (identifier : isIdentifier start = true)
    (parts : rest.toList.all isPart = true) : isIdentifier (start ++ rest) = true := by
  unfold isIdentifier at identifier ⊢
  rw [String.toList_append]
  cases whole : start.toList with
  | nil => simp [whole] at identifier
  | cons first others =>
    rw [whole] at identifier
    simp only [Bool.and_eq_true] at identifier
    simp [identifier.1, List.all_append, identifier.2, parts]

theorem all_isPart_of_isIdentifier {text : String} (identifier : isIdentifier text = true) :
    text.toList.all isPart = true := by
  unfold isIdentifier at identifier
  cases whole : text.toList with
  | nil => simp [whole] at identifier
  | cons first rest =>
    rw [whole] at identifier
    simp only [Bool.and_eq_true] at identifier
    simp [isPart_of_isStart identifier.1, identifier.2]

theorem all_isPart_replaceInvalid (text : List Char) :
    (replaceInvalid text).all isPart = true := by
  rw [List.all_eq_true]
  intro c member
  have ⟨source, _, replaced⟩ := List.mem_map.mp member
  by_cases part : isPart source = true
  · rw [if_pos part] at replaced
    rw [← replaced]
    exact part
  · rw [if_neg part] at replaced
    rw [← replaced]
    rfl

theorem isIdentifier_sanitize (text : String) : isIdentifier (sanitize text) = true := by
  unfold sanitize
  cases text.toList with
  | nil => rfl
  | cons first rest =>
    have kept := all_isPart_replaceInvalid (first :: rest)
    unfold isIdentifier
    rw [String.toList_ofList]
    by_cases digit : first.isDigit = true
    · rw [if_pos digit]
      simp only [Bool.and_eq_true]
      exact ⟨rfl, kept⟩
    · rw [if_neg digit]
      simp only [replaceInvalid, List.map_cons, List.all_cons, Bool.and_eq_true] at kept ⊢
      refine ⟨isStart_of_isPart kept.1 ?_, kept.2⟩
      by_cases part : isPart first = true
      · rw [if_pos part]
        simpa using digit
      · rw [if_neg part]
        rfl

theorem isDigit_of_isStart {c : Char} (start : isStart c = true) : c.isDigit = false := by
  have bounds := bounds_of_isStart start
  rw [Bool.eq_false_iff]
  intro digit
  have range := Bool.and_eq_true_iff.mp digit
  have greatest : c.toNat ≤ 57 := UInt32.le_iff_toNat_le.mp (of_decide_eq_true range.2)
  omega

theorem replaceInvalid_of_parts {text : List Char} (parts : text.all isPart = true) :
    replaceInvalid text = text := by
  rw [List.all_eq_true] at parts
  unfold replaceInvalid
  refine (List.map_congr_left ?_).trans (List.map_id text)
  intro c member
  exact if_pos (parts c member)

/-- An identifier is the only text that is kept as it is. -/
theorem sanitize_eq_self_iff (text : String) : sanitize text = text ↔ isIdentifier text = true := by
  constructor
  · intro same
    rw [← same]
    exact isIdentifier_sanitize text
  · intro identifier
    have parts := all_isPart_of_isIdentifier identifier
    unfold isIdentifier at identifier
    unfold sanitize
    cases whole : text.toList with
    | nil => simp [whole] at identifier
    | cons first rest =>
      rw [whole] at identifier parts
      rw [Bool.and_eq_true] at identifier
      dsimp only
      rw [isDigit_of_isStart identifier.1, replaceInvalid_of_parts parts, ← whole]
      exact String.ofList_toList

theorem sanitize_sanitize (text : String) : sanitize (sanitize text) = sanitize text :=
  (sanitize_eq_self_iff _).mpr (isIdentifier_sanitize text)

end Identifier

/-! ### Numbers in symbols -/

theorem toDigits_isDigit (value : Nat) : ∀ c ∈ Nat.toDigits 10 value, c.isDigit = true :=
  fun _ => Nat.isDigit_of_mem_toDigits (by decide) (by decide)

/-- The digits of a number with zeros before them, up to a width. -/
def paddedDigits (width value : Nat) : List Char :=
  List.replicate (width - (Nat.toDigits 10 value).length) '0' ++ Nat.toDigits 10 value

theorem paddedDigits_isDigit (width value : Nat) :
    ∀ c ∈ paddedDigits width value, c.isDigit = true := by
  unfold paddedDigits
  rw [List.forall_mem_append]
  refine ⟨?_, toDigits_isDigit value⟩
  intro c member
  rw [List.eq_of_mem_replicate member]
  rfl

theorem ofDigitChars_paddedDigits (width value : Nat) :
    Nat.ofDigitChars 10 (paddedDigits width value) 0 = value := by
  unfold paddedDigits
  have zeros (count : Nat) (digits : List Char) :
      Nat.ofDigitChars 10 (List.replicate count '0' ++ digits) 0 =
        Nat.ofDigitChars 10 digits 0 := by
    induction count with
    | zero => rfl
    | succ count ih => simpa [List.replicate_succ, Nat.ofDigitChars_cons] using ih
  rw [zeros]
  exact Nat.ofDigitChars_toDigits (by decide) (by decide)

theorem paddedDigits_injective (width : Nat) {left right : Nat}
    (same : paddedDigits width left = paddedDigits width right) : left = right := by
  calc
    left = Nat.ofDigitChars 10 (paddedDigits width left) 0 :=
      (ofDigitChars_paddedDigits width left).symm
    _ = Nat.ofDigitChars 10 (paddedDigits width right) 0 := by rw [same]
    _ = right := ofDigitChars_paddedDigits width right

/-- A padded number is written like an unpadded one if there is no room for zeros. -/
theorem paddedDigits_eq_toDigits_iff {width left right : Nat} (wide : 1 < width) :
    paddedDigits width left = Nat.toDigits 10 right ↔ left = right ∧ 10 ^ (width - 1) ≤ left := by
  have room : (Nat.toDigits 10 left).length ≤ width - 1 ↔ left < 10 ^ (width - 1) :=
    Nat.length_toDigits_le_iff (by decide) (by omega)
  constructor
  · intro same
    have value : left = right := by
      calc
        left = Nat.ofDigitChars 10 (paddedDigits width left) 0 :=
          (ofDigitChars_paddedDigits width left).symm
        _ = Nat.ofDigitChars 10 (Nat.toDigits 10 right) 0 := by rw [same]
        _ = right := Nat.ofDigitChars_toDigits (by decide) (by decide)
    have lengths := congrArg List.length same
    rw [← value, paddedDigits, List.length_append, List.length_replicate] at lengths
    exact ⟨value, by omega⟩
  · intro ⟨value, large⟩
    have full : width - (Nat.toDigits 10 left).length = 0 := by omega
    rw [paddedDigits, full, ← value]
    rfl

theorem underscore_not_mem {digits : List Char} (number : ∀ c ∈ digits, c.isDigit = true) :
    '_' ∉ digits :=
  fun member => Identifier.ne_underscore_of_isDigit (number _ member) rfl

/-- The last underscore of a text is before its number. -/
theorem append_underscore_inj {left right first second : List Char} (isFirst : '_' ∉ first)
    (isSecond : '_' ∉ second) (same : left ++ '_' :: first = right ++ '_' :: second) :
    left = right ∧ first = second := by
  have cut (rest whole tail : List Char) (plain : '_' ∉ whole)
      (tails : '_' :: whole = rest ++ '_' :: tail) : rest = [] := by
    cases rest with
    | nil => rfl
    | cons c others =>
      have later := (List.cons.inj tails).2
      rw [later] at plain
      simp at plain
  rcases List.append_eq_append_iff.mp same with ⟨rest, isRight, tails⟩ | ⟨rest, isLeft, tails⟩
  · have empty := cut rest first second isFirst tails
    rw [empty] at isRight tails
    exact ⟨by simpa using isRight.symm, (List.cons.inj tails).2⟩
  · have empty := cut rest second first isSecond tails
    rw [empty] at isLeft tails
    exact ⟨by simpa using isLeft, (List.cons.inj tails).2.symm⟩

end TensorArena
