/-!
# Byte encodings

Little-endian fixed-width numbers, and sequences that begin with their length in eight bytes.
-/

set_option autoImplicit false

namespace TensorArena.Bytes

/-- The lowest `count` bytes of a number, the lowest first. -/
def littleEndian : Nat → Nat → List UInt8
  | 0, _ => []
  | count + 1, value => UInt8.ofNat value :: littleEndian count (value / 256)

def word64 (value : Nat) : List UInt8 := littleEndian 8 value

def word32 (value : Nat) : List UInt8 := littleEndian 4 value

/-- The length of a sequence and then its items. -/
def sequence {α : Type} (encode : α → List UInt8) (items : List α) : List UInt8 :=
  word64 items.length ++ items.flatMap encode

def text (value : String) : List UInt8 :=
  let bytes := value.toUTF8.toList
  word64 bytes.length ++ bytes

def texts (values : List String) : List UInt8 := sequence text values

/-- A value that is there is marked by a one; of one that is missing nothing is written. -/
def present {α : Type} (encode : α → List UInt8) : Option α → List UInt8
  | some value => 1 :: encode value
  | none => []

def truth (value : Bool) : List UInt8 := [if value then 1 else 0]

end TensorArena.Bytes
