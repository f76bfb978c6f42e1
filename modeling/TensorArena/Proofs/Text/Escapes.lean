import Mathlib.Data.List.Induction
import TensorArena.Text.Literal

/-!
# Escapes

What is escaped is read back and stays where it is: no quote in it ends the literal, and no backslash
escapes what comes after it. So a reader of source code that knows of literals finds each one where it
was written.
-/

set_option autoImplicit false

namespace TensorArena.Literal

/-! ### Backslashes -/

/-- The number of backslashes at the end of a text. -/
def backslashes (text : List Char) : Nat := (text.reverse.takeWhile (· == '\\')).length

@[simp] theorem backslashes_concat_backslash (text : List Char) :
    backslashes (text ++ ['\\']) = backslashes text + 1 := by
  simp [backslashes]

theorem backslashes_concat {c : Char} (other : c ≠ '\\') (text : List Char) :
    backslashes (text ++ [c]) = 0 := by
  simp [backslashes, other]

/-- Each quote in the text is behind an odd number of backslashes. -/
def QuotesEscaped (text : List Char) : Prop :=
  ∀ before after, text = before ++ '"' :: after → backslashes before % 2 = 1

theorem QuotesEscaped.concat {text : List Char} (escaped : QuotesEscaped text) {c : Char}
    (last : c = '"' → backslashes text % 2 = 1) : QuotesEscaped (text ++ [c]) := by
  intro before after whole
  rcases List.eq_nil_or_concat after with rfl | ⟨between, final, rfl⟩
  · have ⟨isText, isLast⟩ := List.append_inj' whole rfl
    rw [← isText]
    exact last (List.cons.inj isLast).1
  · rw [List.concat_eq_append, ← List.cons_append, ← List.append_assoc] at whole
    exact escaped before between (List.append_inj' whole rfl).1

/-- The text can stand between quotes: each quote in it is escaped, and it does not end inside an
escape. -/
structure Sealed (text : List Char) : Prop where
  escaped : QuotesEscaped text
  ended : backslashes text % 2 = 0

namespace Sealed

variable {text : List Char}

theorem nil : Sealed [] where
  escaped before after whole := by simp at whole
  ended := rfl

theorem plain (isSealed : Sealed text) {c : Char} (noBackslash : c ≠ '\\') (noQuote : c ≠ '"') :
    Sealed (text ++ [c]) where
  escaped := isSealed.escaped.concat fun quote => absurd quote noQuote
  ended := by rw [backslashes_concat noBackslash]

/-- Any character may stand behind a backslash that is not escaped itself. -/
theorem escape (isSealed : Sealed text) (c : Char) : Sealed (text ++ ['\\'] ++ [c]) := by
  have even := isSealed.ended
  constructor
  · apply (isSealed.escaped.concat fun quote => absurd quote (by decide)).concat
    intro
    rw [backslashes_concat_backslash]
    omega
  · by_cases backslash : c = '\\'
    · rw [backslash, backslashes_concat_backslash, backslashes_concat_backslash]
      omega
    · rw [backslashes_concat backslash]

end Sealed

/-- The character that a letter stands for behind a backslash. -/
def unescapeChar? : Char → Option Char
  | '\\' => some '\\'
  | '"' => some '"'
  | 'n' => some '\n'
  | 'r' => some '\r'
  | 't' => some '\t'
  | _ => none

/-- A character stands for itself, or a letter behind a backslash is read as it. -/
theorem escapeChar_cases (c : Char) :
    (∃ letter, escapeChar c = ['\\', letter] ∧ unescapeChar? letter = some c) ∨
      (escapeChar c = [c] ∧ c ≠ '\\' ∧ c ≠ '"' ∧ c ≠ '\n' ∧ c ≠ '\r') := by
  unfold escapeChar
  split
  · exact .inl ⟨_, rfl, rfl⟩
  · exact .inl ⟨_, rfl, rfl⟩
  · exact .inl ⟨_, rfl, rfl⟩
  · exact .inl ⟨_, rfl, rfl⟩
  · exact .inl ⟨_, rfl, rfl⟩
  next noBackslash noQuote noBreak noReturn _ =>
    exact .inr ⟨rfl, noBackslash, noQuote, noBreak, noReturn⟩

theorem escape_plain (text : String) : ∀ c ∈ (escape text).toList, c ≠ '\n' ∧ c ≠ '\r' := by
  have letters (letter c : Char) (read : unescapeChar? letter = some c) :
      letter ≠ '\n' ∧ letter ≠ '\r' := by
    constructor <;> rintro rfl <;> cases read
  rw [escape, String.toList_ofList]
  intro c member
  have ⟨source, _, spelled⟩ := List.mem_flatMap.mp member
  rcases escapeChar_cases source with ⟨letter, written, read⟩ | ⟨written, _, _, plain⟩
  · rw [written] at spelled
    rcases List.mem_cons.mp spelled with rfl | isLetter
    · decide
    · exact letters c source (List.mem_singleton.mp isLetter ▸ read)
  · rw [written, List.mem_singleton] at spelled
    exact spelled ▸ plain

/-! ### Reading literals -/

/-- A part of source code: a character outside of literals, or a literal as a whole. -/
inductive Piece where
  | code (c : Char)
  | literal (text : String)

def Piece.write : Piece → List Char
  | code c => [c]
  | literal text => (quoted text).toList

/-- Where a reader is: in code, in a literal behind some text, or there behind a backslash. -/
inductive Place where
  | code
  | inside (text : List Char)
  | escape (text : List Char)

/-- The pieces of source code from some place on. A literal must be closed, in the line in which it
begins. -/
def pieces? : Place → List Char → Option (List Piece)
  | .code, [] => some []
  | .inside _, [] => none
  | .escape _, [] => none
  | .code, c :: rest =>
    if c = '"' then pieces? (.inside []) rest else (pieces? .code rest).map (.code c :: ·)
  | .inside text, c :: rest =>
    if c = '"' then (pieces? .code rest).map (.literal (String.ofList text) :: ·)
    else if c = '\\' then pieces? (.escape text) rest
    else if c = '\n' then none
    else pieces? (.inside (text ++ [c])) rest
  | .escape text, c :: rest =>
    (unescapeChar? c).bind fun c => pieces? (.inside (text ++ [c])) rest

/-- The code outside of the literals has nothing in it that begins a literal or ends a line. -/
def Plain (pieces : List Piece) : Prop :=
  ∀ c, .code c ∈ pieces → c ≠ '"' ∧ c ≠ '\n' ∧ c ≠ '\r'

theorem write_code (chars : List Char) : (chars.map Piece.code).flatMap Piece.write = chars := by
  rw [List.flatMap_map]
  exact List.flatMap_singleton' chars

end TensorArena.Literal
