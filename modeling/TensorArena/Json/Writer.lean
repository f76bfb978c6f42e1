import TensorArena.Json.Basic

/-!
# Writing JSON

A `Layout` decides what stands between the tokens. Strings escape quotes, backslashes and
control characters below U+0020 and nothing else.
-/

set_option autoImplicit false

namespace TensorArena.Json

structure Layout where
  /-- The text before an item or a closing bracket at the given depth. -/
  lineBreak : Nat → List Char
  colon : List Char

/-- One item a line, two spaces a level. -/
def Layout.indented : Layout where
  lineBreak depth := '\n' :: List.replicate (2 * depth) ' '
  colon := [':', ' ']

/-- No blanks at all. -/
def Layout.compact : Layout where
  lineBreak _ := []
  colon := [':']

def hexDigits (width value : Nat) : List Char :=
  let digits := Nat.toDigits 16 value
  List.replicate (width - digits.length) '0' ++ digits

def escapeChar (c : Char) : List Char :=
  match c with
  | '"' => ['\\', '"']
  | '\\' => ['\\', '\\']
  | '\n' => ['\\', 'n']
  | '\r' => ['\\', 'r']
  | '\t' => ['\\', 't']
  | '\x08' => ['\\', 'b']
  | '\x0c' => ['\\', 'f']
  | c => if c.toNat < 0x20 then '\\' :: 'u' :: hexDigits 4 c.toNat else [c]

/-- A quoted string. One that cannot be read is written as an escape that cannot be read. -/
def writeText : Option String → List Char
  | some text => '"' :: text.toList.flatMap escapeChar ++ ['"']
  | none => "\"\\ud800\"".toList

mutual

def writeValue (layout : Layout) (depth : Nat) : Json → List Char
  | .null => "null".toList
  | .bool true => "true".toList
  | .bool false => "false".toList
  | .number value => value.toChars
  | .string text => writeText text
  | .array [] => ['[', ']']
  | .array (item :: items) =>
    '[' :: layout.lineBreak (depth + 1) ++ writeValue layout (depth + 1) item ++
      writeItems layout (depth + 1) items ++ layout.lineBreak depth ++ [']']
  | .object [] => ['\x7b', '\x7d']
  | .object ((key, value) :: members) =>
    '\x7b' :: layout.lineBreak (depth + 1) ++ writeText key ++ layout.colon ++
      writeValue layout (depth + 1) value ++ writeMembers layout (depth + 1) members ++
      layout.lineBreak depth ++ ['\x7d']

def writeItems (layout : Layout) (depth : Nat) : List Json → List Char
  | [] => []
  | item :: items =>
    ',' :: layout.lineBreak depth ++ writeValue layout depth item ++
      writeItems layout depth items

def writeMembers (layout : Layout) (depth : Nat) : List (Option String × Json) → List Char
  | [] => []
  | (key, value) :: members =>
    ',' :: layout.lineBreak depth ++ writeText key ++ layout.colon ++
      writeValue layout depth value ++ writeMembers layout depth members

end

def write (layout : Layout) (json : Json) : String :=
  String.ofList (writeValue layout 0 json)

end TensorArena.Json
