/-!
# Element kinds

The scalar kinds that the elements of a tensor may have.
-/

set_option autoImplicit false

namespace TensorArena

inductive ElementKind where
  | i1
  | si8
  | ui8
  | si16
  | ui16
  | si32
  | ui32
  | si64
  | f16
  | f32
  | f64
deriving DecidableEq, Repr

namespace ElementKind

def all : List ElementKind := [i1, si8, ui8, si16, ui16, si32, ui32, si64, f16, f32, f64]

/-- The name used in graph documents. -/
def name : ElementKind → String
  | i1 => "i1"
  | si8 => "si8"
  | ui8 => "ui8"
  | si16 => "si16"
  | ui16 => "ui16"
  | si32 => "si32"
  | ui32 => "ui32"
  | si64 => "si64"
  | f16 => "f16"
  | f32 => "f32"
  | f64 => "f64"

/-- The name used in messages. -/
def title : ElementKind → String
  | i1 => "I1"
  | si8 => "Si8"
  | ui8 => "Ui8"
  | si16 => "Si16"
  | ui16 => "Ui16"
  | si32 => "Si32"
  | ui32 => "Ui32"
  | si64 => "Si64"
  | f16 => "F16"
  | f32 => "F32"
  | f64 => "F64"

/-- The spelling in generated sources. -/
def cType : ElementKind → String
  | i1 => "bool"
  | si8 => "int8_t"
  | ui8 => "uint8_t"
  | si16 => "int16_t"
  | ui16 => "uint16_t"
  | si32 => "int32_t"
  | ui32 => "uint32_t"
  | si64 => "int64_t"
  | f16 => "half"
  | f32 => "float"
  | f64 => "double"

/-- The position in `all`, which stands for the kind in encodings. -/
def code : ElementKind → Nat
  | i1 => 0
  | si8 => 1
  | ui8 => 2
  | si16 => 3
  | ui16 => 4
  | si32 => 5
  | ui32 => 6
  | si64 => 7
  | f16 => 8
  | f32 => 9
  | f64 => 10

/-- The size of one element in bytes. -/
def width : ElementKind → Nat
  | i1 | si8 | ui8 => 1
  | si16 | ui16 | f16 => 2
  | si32 | ui32 | f32 => 4
  | si64 | f64 => 8

/-- The integer kinds that may be quantized; truth values are not among them. -/
def isInteger : ElementKind → Bool
  | si8 | ui8 | si16 | ui16 | si32 | ui32 | si64 => true
  | _ => false

def isFloat : ElementKind → Bool
  | f16 | f32 | f64 => true
  | _ => false

/-- The least and the greatest storable value, for kinds that are not floating point. -/
def intRange? : ElementKind → Option (Int × Int)
  | i1 => some (0, 1)
  | si8 => some (-128, 127)
  | ui8 => some (0, 255)
  | si16 => some (-32768, 32767)
  | ui16 => some (0, 65535)
  | si32 => some (-2147483648, 2147483647)
  | ui32 => some (0, 4294967295)
  | si64 => some (-9223372036854775808, 9223372036854775807)
  | f16 | f32 | f64 => none

end ElementKind

end TensorArena
