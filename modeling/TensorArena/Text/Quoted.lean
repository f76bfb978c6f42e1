import TensorArena.Text.Hidden

/-!
# Quoted text

Text in quotes. Quotes, backslashes and hidden characters are escaped.
-/

set_option autoImplicit false

namespace TensorArena.Quoted

def escapeChar (c : Char) : List Char :=
  match c with
  | '\t' => ['\\', 't']
  | '\r' => ['\\', 'r']
  | '\n' => ['\\', 'n']
  | '"' => ['\\', '"']
  | '\\' => ['\\', '\\']
  | '\x00' => ['\\', '0']
  | c =>
    if Hidden.isHidden c then
      ['\\', 'u', '\x7b'] ++ Nat.toDigits 16 c.toNat ++ ['\x7d']
    else [c]

def quote (text : String) : String :=
  "\"" ++ String.ofList (text.toList.flatMap escapeChar) ++ "\""

/-- A list of quoted texts in brackets. -/
def quoteAll (texts : List String) : String := "[" ++ ", ".intercalate (texts.map quote) ++ "]"

end TensorArena.Quoted
