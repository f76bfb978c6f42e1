import TensorArena.Numeric.Binary
import TensorArena.Tensor.Kind

/-!
# Tensors

A tensor is a named block of elements. Sizes are natural numbers that must stay below
`sizeLimit`, the number of addresses of a 64-bit machine.
-/

set_option autoImplicit false

namespace TensorArena

def sizeLimit : Nat := 18446744073709551616

/-- A size, if it is one that an address can express. -/
def size? (value : Nat) : Option Nat := if value < sizeLimit then some value else none

def totalSize : List Nat → Nat
  | [] => 0
  | size :: sizes => size + totalSize sizes

/-- Affine quantization: an element `q` stands for `scale * (q - zeroPoint)`. -/
structure Quantization where
  scale : Binary32
  zeroPoint : Int32
deriving DecidableEq

/-- The contents of a constant tensor. -/
inductive ConstantData where
  | floats (values : List Binary32)
  | ints (values : List Int64)
deriving DecidableEq

structure Tensor where
  name : String
  kind : ElementKind
  shape : List UInt64
  quantization : Option Quantization := none
  data : Option ConstantData := none
deriving DecidableEq

/-- How a tensor enters the program. -/
inductive Role where
  /-- Fed by the caller. -/
  | input
  /-- Baked into read-only storage. -/
  | constant
  /-- Written by an operator. -/
  | intermediate
deriving DecidableEq, Repr

def Role.name : Role → String
  | .input => "input"
  | .constant => "constant"
  | .intermediate => "intermediate"

/-- The name used in messages. -/
def Role.title : Role → String
  | .input => "Input"
  | .constant => "Constant"
  | .intermediate => "Intermediate"

namespace ConstantData

def length : ConstantData → Nat
  | floats values => values.length
  | ints values => values.length

/-- Numerical equality of the contents. -/
def same : ConstantData → ConstantData → Bool
  | floats left, floats right =>
    left.length == right.length && (left.zip right).all fun pair => pair.1.same pair.2
  | ints left, ints right => left == right
  | _, _ => false

end ConstantData

namespace Tensor

def isConstant (tensor : Tensor) : Bool := tensor.data.isSome

/-- The product of the dimensions, taken from the left; it fails as soon as a partial product is
no size. -/
def elementCount? (tensor : Tensor) : Option Nat :=
  tensor.shape.foldlM (fun count dim => size? (count * dim.toNat)) 1

def byteLength? (tensor : Tensor) : Option Nat := do
  size? ((← tensor.elementCount?) * tensor.kind.width)

def same (left right : Tensor) : Bool :=
  left.name == right.name && left.kind == right.kind && left.shape == right.shape &&
    (match left.quantization, right.quantization with
      | some left, some right => left.scale.same right.scale && left.zeroPoint == right.zeroPoint
      | none, none => true
      | _, _ => false) &&
    match left.data, right.data with
    | some left, some right => left.same right
    | none, none => true
    | _, _ => false

end Tensor

end TensorArena
