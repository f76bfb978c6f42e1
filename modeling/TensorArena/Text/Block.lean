import TensorArena.Text.Blank

/-!
# Blocks of code

A block is re-indented by removing the leading blanks that all its lines share and putting the
new indentation in their place.
-/

set_option autoImplicit false

namespace TensorArena.Block

/-- The lines of a text; there is one more of them than there are line breaks. -/
def lines : List Char → List (List Char)
  | [] => [[]]
  | c :: rest =>
    if c = '\n' then [] :: lines rest
    else
      match lines rest with
      | [] => [[c]]
      | line :: more => (c :: line) :: more

def isBlankLine (line : List Char) : Bool := line.all Blank.isBlank

def dropFirstBlank : List (List Char) → List (List Char)
  | [] => []
  | line :: rest => if isBlankLine line then rest else line :: rest

/-- The lines of a block without a blank first one and a blank last one. -/
def content (block : List Char) : List (List Char) :=
  (dropFirstBlank (dropFirstBlank (lines block)).reverse).reverse

def isIndent (c : Char) : Bool := c == ' ' || c == '\t'

def leadingIndent (line : List Char) : Nat := (line.takeWhile isIndent).length

/-- The indentation that all lines with some code share. -/
def sharedIndent (rows : List (List Char)) : Nat :=
  ((rows.filter fun line => !isBlankLine line).map leadingIndent).min?.getD 0

/-- Removes `count` leading blanks, or all leading white space from a line without that many. -/
def dedent (count : Nat) (line : List Char) : List Char :=
  if count ≤ leadingIndent line then line.drop count else Blank.trimStart line

def writeLine (level : Nat) (line : List Char) : List Char :=
  if line.isEmpty then ['\n'] else List.replicate (2 * level) ' ' ++ line ++ ['\n']

/-- The block at a level of indentation, each line ended by a line break. -/
def reindentChars (level : Nat) (block : List Char) : List Char :=
  if block.isEmpty then []
  else
    let rows := content block
    rows.flatMap fun line => writeLine level (dedent (sharedIndent rows) line)

def reindent (level : Nat) (block : String) : String :=
  String.ofList (reindentChars level block.toList)

end TensorArena.Block
