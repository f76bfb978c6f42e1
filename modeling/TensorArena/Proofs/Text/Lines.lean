import Mathlib.Data.List.Basic
import TensorArena.Proofs.Text.Escapes
import TensorArena.Proofs.Text.Symbols
import TensorArena.Text.Block
import TensorArena.Text.Identifier

/-!
# Lines

A text is written in rows when it consists of them, each ended by a line break, and none of them has
a line break in it. A block of rows that begin with something that shows is written in the same
rows, moved to the right.
-/

set_option autoImplicit false

namespace TensorArena

/-! ### Texts without line breaks -/

/-- The text has no line break in it. -/
def Unbroken (text : String) : Prop := '\n' ∉ text.toList

instance (text : String) : Decidable (Unbroken text) := inferInstanceAs (Decidable (¬ _))

@[simp] theorem unbroken_append {left right : String} :
    Unbroken (left ++ right) ↔ Unbroken left ∧ Unbroken right := by
  simp [Unbroken, not_or]

theorem unbroken_ofList {text : List Char} (unbroken : ∀ c ∈ text, c ≠ '\n') :
    Unbroken (String.ofList text) := by
  rw [Unbroken, String.toList_ofList]
  exact fun member => unbroken _ member rfl

theorem unbroken_intercalate {separator : String} {texts : List String}
    (between : Unbroken separator) (all : ∀ text ∈ texts, Unbroken text) :
    Unbroken (separator.intercalate texts) := by
  unfold Unbroken at between ⊢
  rw [String.toList_intercalate]
  induction texts with
  | nil => simp [List.intercalate]
  | cons text rest ih =>
    have first : '\n' ∉ text.toList := all text (List.mem_cons_self ..)
    have others := ih fun other member => all other (List.mem_cons_of_mem _ member)
    cases rest with
    | nil => simpa [List.intercalate] using first
    | cons second rest =>
      rw [List.map_cons, List.map_cons, List.intercalate_cons_cons, List.mem_append,
        List.mem_append, not_or, not_or]
      exact ⟨⟨first, between⟩, by simpa using others⟩

/-! ### Numbers and literals -/

/-- The characters that numbers are written with, in any base up to sixteen. -/
def numeralChars : List Char := "0123456789abcdef*+-.".toList

theorem break_not_mem_numeralChars : '\n' ∉ numeralChars := by decide

theorem digitChar_mem_numeralChars (digit : Nat) : Nat.digitChar digit ∈ numeralChars := by
  by_cases small : digit < 16
  · have all : ∀ digit : Fin 16, Nat.digitChar digit.val ∈ numeralChars := by decide
    exact all ⟨digit, small⟩
  · have star : Nat.digitChar digit = '*' := by
      unfold Nat.digitChar
      repeat rw [if_neg (by omega)]
    rw [star]
    decide

theorem toDigits_subset_numeralChars {base : Nat} (several : 1 < base) (value : Nat) :
    Nat.toDigits base value ⊆ numeralChars := by
  induction value using Nat.strongRecOn with
  | _ value ih =>
    rw [Nat.toDigits_eq_if several]
    split
    · intro c only
      rw [List.mem_singleton.mp only]
      exact digitChar_mem_numeralChars value
    next large =>
      have smaller : value / base < value := Nat.div_lt_self (by omega) several
      intro c member
      rcases List.mem_append.mp member with high | low
      · exact ih _ smaller high
      · rw [List.mem_singleton.mp low]
        exact digitChar_mem_numeralChars _

theorem natural_subset_numeralChars (value : Nat) : (toString value).toList ⊆ numeralChars := by
  show (String.ofList (Nat.toDigits 10 value)).toList ⊆ numeralChars
  rw [String.toList_ofList]
  exact toDigits_subset_numeralChars (by decide) value

theorem integer_subset_numeralChars (value : Int) : (toString value).toList ⊆ numeralChars := by
  cases value with
  | ofNat value => exact natural_subset_numeralChars value
  | negSucc value =>
    show ("-" ++ toString (value + 1)).toList ⊆ numeralChars
    rw [String.toList_append, List.append_subset]
    exact ⟨by decide, natural_subset_numeralChars _⟩

theorem unbroken_of_subset_numeralChars {text : String} (numeral : text.toList ⊆ numeralChars) :
    Unbroken text :=
  fun member => break_not_mem_numeralChars (numeral member)

/-- A number with zeros before it. -/
theorem padded_subset_numeralChars {base : Nat} (several : 1 < base) (zeros value : Nat) :
    (String.ofList (List.replicate zeros '0' ++ Nat.toDigits base value)).toList ⊆
      numeralChars := by
  rw [String.toList_ofList, List.append_subset]
  refine ⟨?_, toDigits_subset_numeralChars several value⟩
  intro c member
  rw [List.eq_of_mem_replicate member]
  decide

theorem unbroken_padded {base : Nat} (several : 1 < base) (zeros value : Nat) :
    Unbroken (String.ofList (List.replicate zeros '0' ++ Nat.toDigits base value)) :=
  unbroken_of_subset_numeralChars (padded_subset_numeralChars several zeros value)

theorem unbroken_natural (value : Nat) : Unbroken (toString value) :=
  unbroken_of_subset_numeralChars (natural_subset_numeralChars value)

theorem unbroken_integer (value : Int) : Unbroken (toString value) :=
  unbroken_of_subset_numeralChars (integer_subset_numeralChars value)

namespace Literal

theorem unbroken_escape (text : String) : Unbroken (escape text) :=
  fun member => (escape_plain text _ member).1 rfl

theorem unbroken_quoted (text : String) : Unbroken (quoted text) := by
  simp only [quoted, unbroken_append]
  exact ⟨⟨by decide, unbroken_escape text⟩, by decide⟩

theorem toChars_subset_numeralChars (number : Number) : number.toChars ⊆ numeralChars := by
  have whole (value : Nat) : Nat.toDigits 10 value ⊆ numeralChars :=
    toDigits_subset_numeralChars (by decide) value
  unfold Number.toChars
  simp only [List.append_subset]
  refine ⟨⟨⟨?_, whole _⟩, ?_⟩, ?_⟩
  · split <;> decide
  · split
    · exact List.nil_subset _
    · refine List.cons_subset.mpr ⟨by decide, ?_⟩
      intro c member
      have ⟨digit, _, written⟩ := List.mem_map.mp member
      exact written ▸ digitChar_mem_numeralChars digit.val
  · split
    next exponent _ =>
      simp only [List.cons_subset]
      refine ⟨by decide, ?_, whole _⟩
      split <;> decide
    · exact List.nil_subset _

theorem unbroken_floating {format : BinaryFormat} {suffix : String} (plain : Unbroken suffix)
    (value : Binary format) : Unbroken (floating suffix value) := by
  unfold floating
  split
  · decide
  · split
    · split <;> decide
    · simp only [unbroken_append]
      refine ⟨unbroken_of_subset_numeralChars ?_, plain⟩
      rw [String.toList_ofList]
      exact toChars_subset_numeralChars _

end Literal

/-! ### Identifiers -/

namespace Identifier

theorem ne_break_of_isPart {c : Char} (part : isPart c = true) : c ≠ '\n' := by
  rintro rfl
  cases part

theorem unbroken_of_isIdentifier {text : String} (identifier : isIdentifier text = true) :
    Unbroken text := by
  unfold isIdentifier at identifier
  unfold Unbroken
  split at identifier
  · cases identifier
  next first rest whole =>
    rw [whole]
    rw [Bool.and_eq_true, List.all_eq_true] at identifier
    intro member
    rcases List.mem_cons.mp member with same | later
    · rw [← same] at identifier
      cases identifier.1
    · exact ne_break_of_isPart (identifier.2 _ later) rfl

theorem unbroken_sanitize (text : String) : Unbroken (sanitize text) := by
  have kept (text : List Char) : ∀ c ∈ replaceInvalid text, c ≠ '\n' := by
    intro c member
    have ⟨source, _, replaced⟩ := List.mem_map.mp member
    split at replaced
    next part =>
      rw [← replaced]
      exact ne_break_of_isPart part
    · rw [← replaced]
      decide
  unfold sanitize
  split
  · decide
  · apply unbroken_ofList
    split
    · exact List.forall_mem_cons.mpr ⟨by decide, kept _⟩
    · exact kept _

theorem toLower_ne_break {c : Char} (other : c ≠ '\n') : c.toLower ≠ '\n' := by
  unfold Char.toLower
  split
  next upper =>
    intro same
    have sum : c.val + 32 = 10 := congrArg Char.val same
    have numbers := congrArg UInt32.toNat sum
    have least : 65 ≤ c.val.toNat := UInt32.le_iff_toNat_le.mp upper.1
    have greatest : c.val.toNat ≤ 90 := UInt32.le_iff_toNat_le.mp upper.2
    rw [UInt32.toNat_add] at numbers
    have small : c.val.toNat + 32 < 2 ^ 32 := by omega
    have wrapped : (c.val.toNat + 32) % 2 ^ 32 = 10 := numbers
    omega
  · exact other

end Identifier

/-! ### Rows -/

/-- The text consists of the rows, each ended by a line break, and they are its lines. -/
structure Written (rows : List String) (text : String) : Prop where
  whole : text = String.join (rows.map (· ++ "\n"))
  unbroken : ∀ row ∈ rows, Unbroken row

namespace Written

variable {rows others : List String} {text other : String}

theorem nil : Written [] "" := ⟨rfl, by simp⟩

theorem emptyRow : Written [""] "\n" := ⟨rfl, by decide⟩

theorem append (first : Written rows text) (second : Written others other) :
    Written (rows ++ others) (text ++ other) where
  whole := by rw [first.whole, second.whole, List.map_append, String.join_append]
  unbroken := List.forall_mem_append.mpr ⟨first.unbroken, second.unbroken⟩

end Written

/-! ### Blocks -/

namespace Block

/-- The row begins with something that shows, and has no line break in it. -/
structure Solid (row : String) : Prop where
  unbroken : Unbroken row
  shows : (row.toList.head?.any fun first => !Blank.isBlank first) = true

theorem Solid.append {start rest : String} (solid : Solid start) (unbroken : Unbroken rest) :
    Solid (start ++ rest) where
  unbroken := unbroken_append.mpr ⟨solid.unbroken, unbroken⟩
  shows := by
    have shows := solid.shows
    rw [String.toList_append]
    cases whole : start.toList with
    | nil => simp [whole] at shows
    | cons first others => simpa [whole] using shows

theorem lines_of_unbroken {row : List Char} (unbroken : '\n' ∉ row) : lines row = [row] := by
  induction row with
  | nil => rfl
  | cons c rest ih =>
    rw [List.mem_cons, not_or] at unbroken
    unfold lines
    rw [if_neg (Ne.symm unbroken.1), ih unbroken.2]

theorem lines_append_break {row : List Char} (unbroken : '\n' ∉ row) (rest : List Char) :
    lines (row ++ '\n' :: rest) = row :: lines rest := by
  induction row with
  | nil => rfl
  | cons c others ih =>
    rw [List.mem_cons, not_or] at unbroken
    rw [List.cons_append]
    conv => lhs; unfold lines
    rw [if_neg (Ne.symm unbroken.1), ih unbroken.2]

theorem lines_intercalate {rows : List (List Char)} (several : rows ≠ [])
    (unbroken : ∀ row ∈ rows, '\n' ∉ row) : lines (List.intercalate ['\n'] rows) = rows := by
  induction rows with
  | nil => exact absurd rfl several
  | cons row rest ih =>
    rw [List.forall_mem_cons] at unbroken
    cases rest with
    | nil =>
      rw [List.intercalate_singleton]
      exact lines_of_unbroken unbroken.1
    | cons second rest =>
      rw [List.intercalate_cons_cons, List.append_assoc, List.singleton_append,
        lines_append_break unbroken.1, ih (List.cons_ne_nil _ _) unbroken.2]

theorem dropFirstBlank_of_solid {rows : List (List Char)}
    (solid : ∀ row ∈ rows, isBlankLine row = false) : dropFirstBlank rows = rows := by
  cases rows with
  | nil => rfl
  | cons row rest =>
    have visible := solid row (List.mem_cons_self ..)
    simp [dropFirstBlank, visible]

theorem content_of_solid {block : List Char} {rows : List (List Char)} (whole : lines block = rows)
    (solid : ∀ row ∈ rows, isBlankLine row = false) : content block = rows := by
  unfold content
  rw [whole, dropFirstBlank_of_solid solid, dropFirstBlank_of_solid, List.reverse_reverse]
  intro row member
  exact solid row (List.mem_reverse.mp member)

theorem sharedIndent_eq_zero {rows : List (List Char)}
    (margin : ∀ row ∈ rows, leadingIndent row = 0) : sharedIndent rows = 0 := by
  unfold sharedIndent
  have zeros : ∀ indent ∈ (rows.filter fun line => !isBlankLine line).map leadingIndent,
      indent = 0 := by
    intro indent member
    have ⟨row, inside, same⟩ := List.mem_map.mp member
    rw [← same]
    exact margin row (List.mem_of_mem_filter inside)
  cases least : ((rows.filter fun line => !isBlankLine line).map leadingIndent).min? with
  | none => rfl
  | some indent => exact zeros indent (List.min?_mem least)

/-- The blanks before a row at a level of indentation. -/
def margin (level : Nat) : String := String.ofList (List.replicate (2 * level) ' ')

theorem unbroken_margin (level : Nat) : Unbroken (margin level) := by
  apply unbroken_ofList
  intro c member
  rw [List.eq_of_mem_replicate member]
  decide

theorem isBlank_of_isIndent {c : Char} (indent : isIndent c = true) : Blank.isBlank c = true := by
  unfold isIndent at indent
  rcases Bool.or_eq_true_iff.mp indent with space | tab
  · rw [eq_of_beq space]
    decide
  · rw [eq_of_beq tab]
    decide

theorem Solid.facts {row : String} (solid : Solid row) :
    row.toList ≠ [] ∧ isBlankLine row.toList = false ∧ leadingIndent row.toList = 0 := by
  have shows := solid.shows
  cases whole : row.toList with
  | nil => simp [whole] at shows
  | cons first rest =>
    have isFirst : Blank.isBlank first = false := by simpa [whole] using shows
    have visible : isIndent first = false := by
      rw [Bool.eq_false_iff]
      intro indent
      rw [isBlank_of_isIndent indent] at isFirst
      cases isFirst
    exact ⟨List.cons_ne_nil _ _, by simp [isBlankLine, isFirst], by simp [leadingIndent, visible]⟩

theorem lines_of_solid {rows : List String} (several : rows ≠ [])
    (solid : ∀ row ∈ rows, Solid row) :
    lines ("\n".intercalate rows).toList = rows.map String.toList := by
  rw [String.toList_intercalate]
  apply lines_intercalate
  · simpa using several
  · rw [List.forall_mem_map]
    exact fun row member => (solid row member).unbroken

/-- A line of a block as it is written. -/
def writtenRow (level count : Nat) (line : List Char) : String :=
  let kept := dedent count line
  if kept.isEmpty then "" else margin level ++ String.ofList kept

theorem ofList_writeLine (level count : Nat) (line : List Char) :
    String.ofList (writeLine level (dedent count line)) = writtenRow level count line ++ "\n" := by
  apply String.toList_inj.mp
  unfold writeLine writtenRow
  by_cases empty : (dedent count line).isEmpty = true
  · simp [empty]
  · simp [empty, margin]

theorem reindent_eq (level : Nat) (block : String) :
    reindent level block = String.join (((content block.toList).map
      (writtenRow level (sharedIndent (content block.toList)))).map (· ++ "\n")) := by
  unfold reindent reindentChars
  apply String.toList_inj.mp
  split
  next empty =>
    rw [List.isEmpty_iff.mp empty]
    rfl
  next =>
    rw [String.toList_ofList, String.toList_join, List.flatMap_map, List.flatMap_map]
    apply List.flatMap_congr
    intro line _
    rw [← ofList_writeLine, String.toList_ofList]

/-- Solid rows are moved to the right, and nothing else happens to them. -/
theorem written_reindent (level : Nat) {rows : List String} (several : rows ≠ [])
    (solid : ∀ row ∈ rows, Solid row) :
    Written (rows.map (margin level ++ ·)) (reindent level ("\n".intercalate rows)) where
  whole := by
    have content : content ("\n".intercalate rows).toList = rows.map String.toList := by
      apply content_of_solid (lines_of_solid several solid)
      rw [List.forall_mem_map]
      exact fun row member => (solid row member).facts.2.1
    have shared : sharedIndent (rows.map String.toList) = 0 := by
      apply sharedIndent_eq_zero
      rw [List.forall_mem_map]
      exact fun row member => (solid row member).facts.2.2
    have moved : (rows.map String.toList).map (writtenRow level 0) = rows.map (margin level ++ ·) := by
      rw [List.map_map]
      apply List.map_congr_left
      intro row member
      simp [writtenRow, dedent, (solid row member).facts.1]
    rw [reindent_eq, content, shared, moved]
  unbroken := by
    rw [List.forall_mem_map]
    intro row member
    exact unbroken_append.mpr ⟨unbroken_margin level, (solid row member).unbroken⟩

theorem written_reindent_row (level : Nat) {row : String} (solid : Solid row) :
    Written [margin level ++ row] (reindent level row) := by
  have rows := written_reindent level (List.cons_ne_nil row []) (by simpa using solid)
  have single : "\n".intercalate [row] = row := rfl
  rw [single] at rows
  exact rows

theorem written_unindented {rows : List String} (several : rows ≠ [])
    (solid : ∀ row ∈ rows, Solid row) : Written rows (reindent 0 ("\n".intercalate rows)) := by
  have written := written_reindent 0 several solid
  have same : rows.map (margin 0 ++ ·) = rows := by simp [margin]
  rw [same] at written
  exact written

theorem written_unindented_row {row : String} (solid : Solid row) :
    Written [row] (reindent 0 row) :=
  written_unindented (List.cons_ne_nil row []) (by simpa using solid)

end Block

theorem Identifier.isBlank_of_isStart {c : Char} (start : isStart c = true) :
    Blank.isBlank c = false := by
  have bounds := bounds_of_isStart start
  have apart : ∀ range ∈ Blank.ranges, range.2 < 65 ∨ 122 < range.1 := by decide
  rw [Blank.isBlank, List.any_eq_false]
  intro range member
  have outside := apart range member
  rw [Bool.and_eq_true, decide_eq_true_eq, decide_eq_true_eq]
  omega

theorem Identifier.solid_of_isIdentifier {text : String}
    (identifier : isIdentifier text = true) : Block.Solid text where
  unbroken := unbroken_of_isIdentifier identifier
  shows := by
    unfold isIdentifier at identifier
    split at identifier
    · cases identifier
    next first rest whole =>
      rw [Bool.and_eq_true] at identifier
      rw [whole, List.head?_cons, Option.any_some, isBlank_of_isStart identifier.1]
      rfl

end TensorArena
