/-!
# White space

The characters with the Unicode property White_Space, 25 in all.
-/

set_option autoImplicit false

namespace TensorArena.Blank

/-- Closed ranges of code points, ascending and apart. -/
def ranges : List (Nat × Nat) :=
  [(0x09, 0x0D), (0x20, 0x20), (0x85, 0x85), (0xA0, 0xA0), (0x1680, 0x1680), (0x2000, 0x200A),
   (0x2028, 0x2029), (0x202F, 0x202F), (0x205F, 0x205F), (0x3000, 0x3000)]

def isBlank (c : Char) : Bool := ranges.any fun range => range.1 ≤ c.toNat && c.toNat ≤ range.2

def trimStart (text : List Char) : List Char := text.dropWhile isBlank

/-- The text without white space at either end. -/
def trim (text : List Char) : List Char := (trimStart (trimStart text).reverse).reverse

theorem isBlank_of_isWhitespace (c : Char) (core : c.isWhitespace = true) : isBlank c = true := by
  simp [Char.isWhitespace] at core
  rcases core with ((rfl | rfl) | rfl) | rfl <;> decide

end TensorArena.Blank
