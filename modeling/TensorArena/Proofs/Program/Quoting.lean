import TensorArena.Catalog.Standard
import TensorArena.Proofs.Program.Layout

/-!
# Quoted names and parameters

A source has the names and texts of a graph in it, which may be any text at all. None of them gets out
of the literal or the comment that it is written in.
-/

set_option autoImplicit false

namespace TensorArena

/-- The text has neither a line break nor a carriage return in it. -/
def SingleLine (text : String) : Prop := ∀ c ∈ text.toList, c ≠ '\n' ∧ c ≠ '\r'

instance (text : String) : Decidable (SingleLine text) :=
  List.decidableBAll (fun c => c ≠ '\n' ∧ c ≠ '\r') text.toList

theorem SingleLine.append {left right : String} (isLeft : SingleLine left)
    (isRight : SingleLine right) : SingleLine (left ++ right) := by
  intro c member
  rw [String.toList_append] at member
  rcases List.mem_append.mp member with before | after
  · exact isLeft c before
  · exact isRight c after

namespace Literal

/-- The characters of literals that are numbers, or macros in their place. -/
def floatingChars : List Char := numeralChars ++ "-INFINITYNAN".toList

theorem double_subset_floatingChars (value : Binary64) : (double value).toList ⊆ floatingChars := by
  unfold double floating
  split
  · decide
  · split
    · split <;> decide
    · rw [String.append_empty, String.toList_ofList]
      exact List.subset_append_of_subset_left _ (toChars_subset_numeralChars _)

theorem plain_map_code {chars : List Char} (plain : '"' ∉ chars ∧ '\n' ∉ chars ∧ '\r' ∉ chars) :
    Plain (chars.map .code) := by
  intro c member
  have ⟨other, listed, same⟩ := List.mem_map.mp member
  cases same
  exact ⟨fun quote => plain.1 (quote ▸ listed), fun feed => plain.2.1 (feed ▸ listed),
    fun back => plain.2.2 (back ▸ listed)⟩

theorem plain_map_code_of_subset {chars others : List Char} (within : chars ⊆ others)
    (plain : '"' ∉ others ∧ '\n' ∉ others ∧ '\r' ∉ others) : Plain (chars.map .code) :=
  plain_map_code ⟨fun quote => plain.1 (within quote), fun feed => plain.2.1 (within feed),
    fun back => plain.2.2 (within back)⟩

theorem Plain.append {first second : List Piece} (isFirst : Plain first) (isSecond : Plain second) :
    Plain (first ++ second) := by
  intro c member
  rcases List.mem_append.mp member with before | after
  · exact isFirst c before
  · exact isSecond c after

end Literal

namespace Param

open Literal (Piece)

mutual

/-- No verbatim source text occurs in the parameter, at any depth. -/
def IdentFree : Param → Prop
  | ident _ => False
  | list items => AllIdentFree items
  | _ => True

def AllIdentFree : List Param → Prop
  | [] => True
  | item :: items => IdentFree item ∧ AllIdentFree items

end

mutual

/-- The parts of a parameter's spelling: a text is one literal, and all else is code. -/
def pieces : Param → List Piece
  | text value => [.literal value]
  | list items => .code '\x7b' :: (piecesAll items ++ [.code '\x7d'])
  | param => param.render.toList.map .code

/-- The parts of several spellings, a comma and a space between them. -/
def piecesAll : List Param → List Piece
  | [] => []
  | [item] => pieces item
  | item :: next :: items => pieces item ++ .code ',' :: .code ' ' :: piecesAll (next :: items)

end

mutual

theorem write_pieces : ∀ param : Param, param.pieces.flatMap Piece.write = param.render.toList
  | text value => by simp [pieces, Piece.write, render]
  | list items => by simp [pieces, Piece.write, render, write_piecesAll items]
  | int _ => Literal.write_code _
  | float _ => Literal.write_code _
  | bool _ => Literal.write_code _
  | ident _ => Literal.write_code _

theorem write_piecesAll : ∀ params : List Param,
    (piecesAll params).flatMap Piece.write = (", ".intercalate (renderAll params)).toList
  | [] => rfl
  | [param] => by
    rw [piecesAll, write_pieces param]
    rfl
  | param :: next :: params => by
    have later := write_piecesAll (next :: params)
    rw [renderAll, String.toList_intercalate, List.map_cons] at later
    rw [piecesAll, List.flatMap_append, write_pieces param, List.flatMap_cons, List.flatMap_cons,
      later, renderAll, renderAll, String.toList_intercalate, List.map_cons, List.map_cons,
      List.intercalate_cons_cons, List.append_assoc]
    rfl

end

mutual

theorem plain_pieces : ∀ param : Param, param.IdentFree → Literal.Plain param.pieces
  | text value, _ => by simp [pieces, Literal.Plain]
  | list items, free => by
    have inner := plain_piecesAll items free
    have opening : Literal.Plain (['\x7b'].map .code) := Literal.plain_map_code (by decide)
    have closing : Literal.Plain (['\x7d'].map .code) := Literal.plain_map_code (by decide)
    exact opening.append (inner.append closing)
  | int value, _ =>
    Literal.plain_map_code_of_subset (integer_subset_numeralChars _) (by decide)
  | float value, _ =>
    Literal.plain_map_code_of_subset (Literal.double_subset_floatingChars value) (by decide)
  | bool value, _ => by cases value <;> exact Literal.plain_map_code (by decide)

theorem plain_piecesAll : ∀ params : List Param, AllIdentFree params →
    Literal.Plain (piecesAll params)
  | [], _ => by simp [piecesAll, Literal.Plain]
  | [param], free => plain_pieces param free.1
  | param :: next :: params, free => by
    have separator : Literal.Plain ([',', ' '].map .code) := Literal.plain_map_code (by decide)
    exact (plain_pieces param free.1).append
      (separator.append (plain_piecesAll (next :: params) free.2))

end

end Param

/-! ### Banners -/

namespace SourceUnit

end SourceUnit

end TensorArena
