/-!
# C identifiers

A letter or an underscore followed by letters, digits and underscores, all of them ASCII.
-/

set_option autoImplicit false

namespace TensorArena.Identifier

def isStart (c : Char) : Bool := c.isAlpha || c == '_'

def isPart (c : Char) : Bool := c.isAlphanum || c == '_'

def isIdentifier (text : String) : Bool :=
  match text.toList with
  | [] => false
  | first :: rest => isStart first && rest.all isPart

/-- Replaces every character that no identifier has. -/
def replaceInvalid (text : List Char) : List Char :=
  text.map fun c => if isPart c then c else '_'

/-- The identifier made from a text: a leading digit gets an underscore before it, and the empty
text becomes `model`. -/
def sanitize (text : String) : String :=
  match text.toList with
  | [] => "model"
  | first :: rest =>
    let kept := replaceInvalid (first :: rest)
    String.ofList (if first.isDigit then '_' :: kept else kept)

end TensorArena.Identifier
