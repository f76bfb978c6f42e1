import TensorArena.Numeric.Number

/-!
# JSON values

Numbers keep their written form, objects keep the order and the repetitions of their members. A
string whose escapes spell no Unicode text, such as half of a surrogate pair, is `none`: it may
be passed over but not read.
-/

set_option autoImplicit false

namespace TensorArena

inductive Json where
  | null
  | bool (value : Bool)
  | number (value : Number)
  | string (text : Option String)
  | array (items : List Json)
  | object (members : List (Option String × Json))

namespace Json

def ofNat (value : Nat) : Json := .number (.ofInt value)

def ofInt (value : Int) : Json := .number (.ofInt value)

def ofText (text : String) : Json := .string (some text)

def ofTexts (texts : List String) : Json := .array (texts.map ofText)

def ofOption {α : Type} (toJson : α → Json) : Option α → Json
  | some value => toJson value
  | none => .null

/-- An object with the given members in order. -/
def record (members : List (String × Json)) : Json :=
  .object (members.map fun member => (some member.1, member.2))

/-- Whether positional notation is used for a leading digit at this power of ten. -/
def inNotation (least most : Int) (value : Decimal) : Bool :=
  let leading := value.exponent + digitCount value.digits - 1
  least ≤ leading && leading ≤ most

def writeDouble (negative : Bool) (value : Decimal) : Number :=
  if inNotation (-5) 15 value then .positional negative value else .scientific negative value

def writeSingle (negative : Bool) (value : Decimal) : Number :=
  if inNotation (-6) 12 value then .positional negative value else .scientific negative value

/-- Values that are not finite are written as null. -/
def ofBinary64 (value : Binary64) : Json :=
  if value.isFinite then .number (value.toNumber .even writeDouble) else .null

def ofBinary32 (value : Binary32) : Json :=
  if value.isFinite then .number (value.toNumber .even writeSingle) else .null

end Json

end TensorArena
