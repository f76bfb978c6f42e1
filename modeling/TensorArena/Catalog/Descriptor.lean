import TensorArena.Graph.Basic
import TensorArena.Text.Literal

/-!
# Operator descriptors

A descriptor says how operators of one type are called in the generated program, and writes the
three pieces of code they need: the declaration of an instance, its construction and a call.
-/

set_option autoImplicit false

namespace TensorArena

/-- An operand whose element kind becomes a type argument. -/
inductive TypeArgument where
  | input (position : Nat)
  | output (position : Nat)
deriving DecidableEq, Repr

structure Descriptor where
  opType : String
  /-- The implementation family of operators that name none. -/
  family : String
  className : String
  /-- The names of the input operands; every operator has as many inputs. -/
  inputs : List String
  outputs : List String
  params : List ParamKind
  typeArguments : List TypeArgument := []
  headers : List String := []
deriving DecidableEq, Repr

/-- The header that declares the runtime. -/
def defaultHeader : String := "uTensor.h"

/-- An instance as the code fragments show it. -/
structure InstanceForm where
  symbol : String
  family : String
  signature : Signature
  params : List Param

/-- An evaluation of an instance, with the tensor bound to each operand. -/
structure Call where
  target : InstanceForm
  context : String
  inputs : List (String × String)
  outputs : List (String × String)

def TypeArgument.kind? (signature : Signature) : TypeArgument → Option ElementKind
  | input position => signature.inputs[position]?
  | output position => signature.outputs[position]?

def braced (items : List String) : String := "\x7b" ++ ", ".intercalate items ++ "\x7d"

/-- Pairs of operand and tensor, both as string literals. -/
def renderBindings (bindings : List (String × String)) : String :=
  braced (bindings.map fun binding =>
    braced [Literal.quoted binding.1, Literal.quoted binding.2])

namespace Descriptor

/-- A descriptor without operands whose operators need the runtime's header and some others. -/
def ofClass (opType family className : String) (headers : List String) : Descriptor :=
  { opType, family, className, inputs := [], outputs := [], params := [],
    headers := defaultHeader :: headers }

/-- The type of an instance. Operands that the signature lacks give no type argument. -/
def typeName (descriptor : Descriptor) (form : InstanceForm) : String :=
  let scope := if form.family.isEmpty then "" else form.family ++ "::"
  let kinds := descriptor.typeArguments.filterMap (TypeArgument.kind? form.signature)
  let arguments :=
    if descriptor.typeArguments.isEmpty then ""
    else "<" ++ ", ".intercalate (kinds.map ElementKind.cType) ++ ">"
  scope ++ descriptor.className ++ arguments

def declare (descriptor : Descriptor) (form : InstanceForm) : String :=
  descriptor.typeName form ++ " " ++ form.symbol ++ ";"

/-- An instance without parameters is complete when it is declared. -/
def construct (descriptor : Descriptor) (form : InstanceForm) : Option String :=
  if form.params.isEmpty then none
  else
    some (form.symbol ++ " = " ++ descriptor.typeName form ++ "(" ++
      ", ".intercalate (form.params.map Param.render) ++ ");")

def evaluate (call : Call) : String :=
  call.context ++ ".push(" ++ call.target.symbol ++ ", " ++ renderBindings call.inputs ++
    ", " ++ renderBindings call.outputs ++ ");"

end Descriptor

end TensorArena
