import Mathlib.Data.List.DropRight
import TensorArena.Json.Reader
import TensorArena.Json.Writer

/-!
# Reading the tokens of JSON

A number is read back in the form it is written in, wherever a value may end after it. A string is
written as one piece for every character and read back piece by piece; one that cannot be read
comes back as one that cannot be read.
-/

set_option autoImplicit false

namespace TensorArena.Json.Reader

/-! ### Blanks -/

def AllBlank (text : List Char) : Prop := ∀ c ∈ text, isBlank c = true

theorem skipBlanks_append {blanks : List Char} (blank : AllBlank blanks) (text : List Char) :
    skipBlanks (blanks ++ text) = skipBlanks text :=
  List.dropWhile_append_of_pos blank

theorem skipBlanks_cons {c : Char} {rest : List Char} (solid : isBlank c = false) :
    skipBlanks (c :: rest) = c :: rest := by
  simp [skipBlanks, solid]

theorem skipBlanks_skipBlanks (text : List Char) : skipBlanks (skipBlanks text) = skipBlanks text :=
  List.dropWhile_idempotent _ _

/-- The characters that may stand after a value: blanks, separators and closing brackets. -/
def enders : List Char := [' ', '\n', '\r', '\t', ',', ']', '\x7d']

/-- A value may end before the text. -/
def Ends (rest : List Char) : Prop := ∀ c ∈ rest.head?, c ∈ enders

theorem ends_nil : Ends [] := nofun

theorem ends_cons {c : Char} {rest : List Char} (ender : c ∈ enders) : Ends (c :: rest) := by
  intro first isFirst
  obtain rfl : c = first := by simpa using isFirst
  exact ender

theorem ends_append {blanks rest : List Char} (blank : AllBlank blanks) (ends : Ends rest) :
    Ends (blanks ++ rest) := by
  cases blanks with
  | nil => exact ends
  | cons c others =>
    have isBlank : isBlank c = true := blank c (by simp)
    refine ends_cons ?_
    simp only [Reader.isBlank, Bool.or_eq_true, beq_iff_eq] at isBlank
    rcases isBlank with ((rfl | rfl) | rfl) | rfl <;> decide

/-! ### Numbers -/

def spellDigits (digits : List (Fin 10)) : List Char :=
  digits.map fun digit => Nat.digitChar digit.val

theorem digit?_digitChar (digit : Fin 10) : digit? (Nat.digitChar digit.val) = some digit := by
  decide +revert

/-- A text that does not go on with a digit. -/
def PastDigits (rest : List Char) : Prop := ∀ c ∈ rest.head?, digit? c = none

theorem pastDigits_cons {c : Char} {rest : List Char} (other : digit? c = none) :
    PastDigits (c :: rest) := by
  rintro first isFirst
  obtain rfl : c = first := by simpa using isFirst
  exact other

theorem Ends.pastDigits {rest : List Char} (ends : Ends rest) : PastDigits rest := by
  have enders : ∀ c ∈ enders, digit? c = none :=
    List.forall_iff_forall_mem.mp (by decide)
  exact fun c first => enders c (ends c first)

theorem digitRun_append (digits : List (Fin 10)) {rest : List Char} (past : PastDigits rest) :
    digitRun (spellDigits digits ++ rest) = (digits, rest) := by
  induction digits with
  | nil =>
    cases rest with
    | nil => rfl
    | cons c rest => simp [spellDigits, digitRun, past c (by simp)]
  | cons digit digits ih =>
    have others : digitRun (digits.map (fun digit => Nat.digitChar digit.val) ++ rest) =
        (digits, rest) := ih
    simp [spellDigits, digitRun, digit?_digitChar, others]

/-- The digits of a number begin with a zero only if there is no other digit. -/
theorem exists_toDigits (value : Nat) :
    ∃ first others, Nat.toDigits 10 value = spellDigits (first :: others) ∧
      numeral (first :: others) = value ∧ (first.val = 0 → others = []) := by
  induction value using Nat.strongRecOn with
  | _ value ih =>
    rw [Nat.toDigits_eq_if (by decide)]
    by_cases small : value < 10
    · rw [if_pos small]
      exact ⟨⟨value, small⟩, [], rfl, by simp [numeral], fun _ => rfl⟩
    · rw [if_neg small]
      obtain ⟨first, others, spelled, counted, leading⟩ := ih (value / 10) (by omega)
      refine ⟨first, others ++ [⟨value % 10, Nat.mod_lt _ (by decide)⟩], ?_, ?_, fun zero => ?_⟩
      · rw [spelled]
        simp [spellDigits]
      · rw [← List.cons_append, numeral, List.foldl_append]
        change 10 * numeral (first :: others) + value % 10 = value
        omega
      · have alone : value / 10 = 0 := by
          rw [← counted, leading zero]
          simpa [numeral] using zero
        omega

theorem wholePart?_toDigits (value : Nat) {rest : List Char} (past : PastDigits rest) :
    wholePart? (Nat.toDigits 10 value ++ rest) = some (value, rest) := by
  obtain ⟨first, others, spelled, counted, leading⟩ := exists_toDigits value
  rw [spelled, wholePart?, digitRun_append _ past]
  cases others with
  | nil => simp [← counted, numeral]
  | cons second others =>
    have positive : first.val ≠ 0 := fun zero => by simpa using leading zero
    simp only [if_neg positive, counted]

theorem exponentDigits?_toDigits (value : Nat) {rest : List Char} (past : PastDigits rest) :
    exponentDigits? (Nat.toDigits 10 value ++ rest) = some (value, rest) := by
  obtain ⟨first, others, spelled, counted, _⟩ := exists_toDigits value
  rw [spelled, exponentDigits?, digitRun_append _ past]
  simp only [counted]

/-- The text of a fraction. -/
def spellFraction (fraction : List (Fin 10)) : List Char :=
  if fraction.isEmpty then [] else '.' :: spellDigits fraction

theorem fractionPart?_spellFraction (fraction : List (Fin 10)) {rest : List Char}
    (past : PastDigits rest) (noPoint : ∀ c ∈ rest.head?, c ≠ '.') :
    fractionPart? (spellFraction fraction ++ rest) = some (fraction, rest) := by
  cases fraction with
  | nil =>
    cases rest with
    | nil => rfl
    | cons c rest =>
      have other : c ≠ '.' := noPoint c (by simp)
      simp [spellFraction, fractionPart?, other]
  | cons digit others =>
    simp [spellFraction, fractionPart?, digitRun_append (digit :: others) past]

/-- The text of an exponent. -/
def spellExponent : Option Int → List Char
  | some exponent =>
    'e' :: (if exponent < 0 then '-' else '+') :: Nat.toDigits 10 exponent.natAbs
  | none => []

theorem exponentPart?_spellExponent (exponent : Option Int) {rest : List Char}
    (ends : Ends rest) :
    exponentPart? (spellExponent exponent ++ rest) = some (exponent, rest) := by
  cases exponent with
  | none =>
    cases rest with
    | nil => rfl
    | cons c rest =>
      have enders : ∀ c ∈ enders, (c == 'e' || c == 'E') = false :=
        List.forall_iff_forall_mem.mp (by decide)
      simp [spellExponent, exponentPart?, enders c (ends c rfl)]
  | some exponent =>
    have digits := exponentDigits?_toDigits exponent.natAbs ends.pastDigits
    by_cases negative : exponent < 0
    · have value : -(exponent.natAbs : Int) = exponent := by omega
      simp only [spellExponent, if_pos negative, List.cons_append, exponentPart?,
        beq_self_eq_true, Bool.true_or, if_true, digits, Option.map_some, value]
    · have value : (exponent.natAbs : Int) = exponent := by omega
      simp only [spellExponent, if_neg negative, List.cons_append, exponentPart?,
        beq_self_eq_true, Bool.true_or, if_true, digits, Option.map_some, value]

theorem toChars_eq (number : Number) :
    number.toChars = (if number.negative then ['-'] else []) ++ (Nat.toDigits 10 number.whole ++
      (spellFraction number.fraction ++ spellExponent number.exponent)) := by
  unfold Number.toChars spellFraction spellExponent spellDigits
  cases number.exponent <;> simp only [List.append_assoc]

theorem pastDigits_spellExponent (exponent : Option Int) {rest : List Char} (ends : Ends rest) :
    PastDigits (spellExponent exponent ++ rest) := by
  cases exponent with
  | none => exact ends.pastDigits
  | some exponent => exact pastDigits_cons rfl

theorem pastDigits_spellFraction (fraction : List (Fin 10)) {rest : List Char}
    (past : PastDigits rest) : PastDigits (spellFraction fraction ++ rest) := by
  cases fraction with
  | nil => exact past
  | cons digit others => exact pastDigits_cons rfl

theorem spellExponent_noPoint (exponent : Option Int) {rest : List Char} (ends : Ends rest) :
    ∀ c ∈ (spellExponent exponent ++ rest).head?, c ≠ '.' := by
  cases exponent with
  | none =>
    have enders : ∀ c ∈ enders, c ≠ '.' :=
      List.forall_iff_forall_mem.mp (by decide)
    exact fun c first => enders c (ends c first)
  | some exponent =>
    rintro c first rfl
    simp [spellExponent] at first

theorem unsigned?_toChars (number : Number) {rest : List Char} (ends : Ends rest) :
    unsigned? number.negative (Nat.toDigits 10 number.whole ++ (spellFraction number.fraction ++
      (spellExponent number.exponent ++ rest))) = some (number, rest) := by
  have pastPoint := pastDigits_spellExponent number.exponent ends
  have pastWhole := pastDigits_spellFraction number.fraction pastPoint
  have noPoint := spellExponent_noPoint number.exponent ends
  simp [unsigned?, wholePart?_toDigits _ pastWhole, fractionPart?_spellFraction _ pastPoint noPoint,
    exponentPart?_spellExponent _ ends]

/-- The text of a number begins with a sign or a digit. -/
theorem exists_toChars (number : Number) :
    ∃ c rest, number.toChars = c :: rest ∧
      (c = '-' ∨ ∃ digit : Fin 10, c = Nat.digitChar digit.val) := by
  obtain ⟨first, others, spelled, _, _⟩ := exists_toDigits number.whole
  rw [toChars_eq, spelled]
  cases number.negative with
  | true => exact ⟨_, _, rfl, .inl rfl⟩
  | false => exact ⟨_, _, rfl, .inr ⟨first, rfl⟩⟩

theorem number?_toChars (number : Number) {rest : List Char} (ends : Ends rest) :
    number? (number.toChars ++ rest) = some (number, rest) := by
  have read := unsigned?_toChars number ends
  rw [toChars_eq]
  simp only [List.append_assoc]
  cases sign : number.negative with
  | true =>
    rw [sign] at read
    simp [number?, read]
  | false =>
    rw [sign] at read
    obtain ⟨first, others, spelled, _, _⟩ := exists_toDigits number.whole
    rw [spelled] at read ⊢
    have unlike : Nat.digitChar first.val ≠ '-' := Nat.digitChar_ne '-' (by decide)
    simp only [spellDigits, List.map_cons, List.cons_append, Bool.false_eq_true, if_false,
      List.nil_append] at read ⊢
    rw [number?.eq_2 _ (by simp [unlike])]
    exact read

/-! ### Strings -/

/-- Control characters are escaped by four digits, of which the first two are zero. -/
theorem hexDigits_control (value : Fin 0x20) :
    hexDigits 4 value.val =
        ['0', '0', Nat.digitChar (value.val / 16), Nat.digitChar (value.val % 16)] ∧
      hexUnit? '0' '0' (Nat.digitChar (value.val / 16)) (Nat.digitChar (value.val % 16)) =
        some value.val := by
  decide +revert

/-- A unit below the surrogates spells its character, whatever follows it. -/
theorem spell?_unit {value : Nat} (low : value < 0xD800) (others : List Piece) :
    spell? (.unit value :: others) = (spell? others).map (Char.ofNat value :: ·) := by
  have notHigh : ¬ (0xD800 ≤ value) := by omega
  have notLow : ¬ (0xDC00 ≤ value) := by omega
  cases others with
  | nil => simp [spell?, notHigh]
  | cons other others =>
    cases other with
    | char c => simp [spell?, notHigh]
    | unit next => simp [spell?, notHigh, notLow]

theorem pieces?_cons {c : Char} (printed : ¬ c.toNat < 0x20) (quote : c ≠ '"')
    (backslash : c ≠ '\\') (rest : List Char) :
    pieces? (c :: rest) = (pieces? rest).map fun read => (.char c :: read.1, read.2) := by
  rw [pieces?.eq_5 c rest quote (fun _ _ _ _ _ same _ => backslash same)
    fun _ _ same _ => backslash same]
  have plain : (decide (c.toNat < 32) || c == '\\') = false := by simp [printed, backslash]
  rw [plain]
  cases pieces? rest <;> rfl

/-- A character is written as one piece, and the piece spells it. -/
theorem exists_piece (c : Char) :
    ∃ piece, (∀ rest, pieces? (escapeChar c ++ rest) =
        (pieces? rest).map fun read => (piece :: read.1, read.2)) ∧
      ∀ others, spell? (piece :: others) = (spell? others).map (c :: ·) := by
  unfold escapeChar
  split
  case h_8 quote backslash _ _ _ _ _ =>
    split
    case isTrue control =>
      obtain ⟨digits, unit⟩ := hexDigits_control ⟨c.toNat, control⟩
      refine ⟨.unit c.toNat, fun rest => ?_, fun others => ?_⟩
      · rw [digits]
        simp only [List.cons_append, List.nil_append, pieces?, unit]
        cases pieces? rest <;> rfl
      · rw [spell?_unit (by omega), Char.ofNat_toNat]
    case isFalse printed =>
      exact ⟨.char c, pieces?_cons printed quote backslash, fun others => by simp only [spell?]⟩
  all_goals
    refine ⟨.char _, fun rest => ?_, fun others => by rw [spell?]⟩
    cases read : pieces? rest <;> simp [pieces?, letterEscape?, read]

theorem exists_pieces (chars : List Char) :
    ∃ pieces, (∀ rest, pieces? (chars.flatMap escapeChar ++ '"' :: rest) = some (pieces, rest)) ∧
      spell? pieces = some chars := by
  induction chars with
  | nil => exact ⟨[], fun rest => by simp [pieces?], rfl⟩
  | cons c chars ih =>
    obtain ⟨pieces, read, spelled⟩ := ih
    obtain ⟨piece, reads, spells⟩ := exists_piece c
    refine ⟨piece :: pieces, fun rest => ?_, by rw [spells, spelled]; rfl⟩
    rw [List.flatMap_cons, List.append_assoc, reads, read]
    rfl

theorem exists_writeText (text : Option String) :
    ∃ others, writeText text = '"' :: others ∧
      ∀ rest, text? (others ++ rest) = some (text, rest) := by
  cases text with
  | none =>
    refine ⟨['\\', 'u', 'd', '8', '0', '0', '"'], by decide, fun rest => ?_⟩
    have unit : hexUnit? 'd' '8' '0' '0' = some 0xD800 := by decide
    simp [text?, pieces?, unit, spell?]
  | some text =>
    obtain ⟨pieces, read, spelled⟩ := exists_pieces text.toList
    refine ⟨text.toList.flatMap escapeChar ++ ['"'], rfl, fun rest => ?_⟩
    rw [List.append_assoc, List.singleton_append, text?, read]
    simp [spelled]

end TensorArena.Json.Reader
