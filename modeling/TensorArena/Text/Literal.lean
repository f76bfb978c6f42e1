import TensorArena.Numeric.Number

/-!
# C literals

Spellings of strings and floating-point values in C source text.
-/

set_option autoImplicit false

namespace TensorArena.Literal

def escapeChar (c : Char) : List Char :=
  match c with
  | '\\' => ['\\', '\\']
  | '"' => ['\\', '"']
  | '\n' => ['\\', 'n']
  | '\r' => ['\\', 'r']
  | '\t' => ['\\', 't']
  | c => [c]

/-- The inside of a string literal. -/
def escape (text : String) : String := String.ofList (text.toList.flatMap escapeChar)

def quoted (text : String) : String := "\"" ++ escape text ++ "\""

/-- Values are written positionally with the fewest digits that identify them, of two equally near
ones the upper. NaN and the infinities have the names of macros and no suffix. -/
def floating {format : BinaryFormat} (suffix : String) (value : Binary format) : String :=
  if value.isNaN then "NAN"
  else if value.isInfinite then if value.negative then "-INFINITY" else "INFINITY"
  else
    String.ofList (value.toNumber .upper Number.positional).toChars ++ suffix

def single (value : Binary32) : String := floating "f" value

def double (value : Binary64) : String := floating "" value

end TensorArena.Literal
