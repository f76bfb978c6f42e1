import TensorArena.Catalog.Basic
import TensorArena.Graph.Document

/-!
# Descriptor documents

Descriptors are written as JSON. Type arguments and headers may be left out; a descriptor that names
no header needs none.
-/

set_option autoImplicit false

namespace TensorArena

/-! ### Writing -/

def TypeArgument.toJson : TypeArgument → Json
  | input position => .record [("input", .ofNat position)]
  | output position => .record [("output", .ofNat position)]

def Descriptor.toJson (descriptor : Descriptor) : Json :=
  .record
    [("op_type", .ofText descriptor.opType), ("namespace", .ofText descriptor.family),
      ("class_name", .ofText descriptor.className), ("inputs", .ofTexts descriptor.inputs),
      ("outputs", .ofTexts descriptor.outputs),
      ("params", .ofTexts (descriptor.params.map ParamKind.name)),
      ("template", .array (descriptor.typeArguments.map TypeArgument.toJson)),
      ("headers", .ofTexts descriptor.headers)]

/-! ### Reading -/

def TypeArgument.ofJson? : Json → Option TypeArgument
  | .object [(some "input", position)] => position.size?.map input
  | .object [(some "output", position)] => position.size?.map output
  | _ => none

def Descriptor.ofJson? (json : Json) : Option Descriptor := do
  let [opType, family, className, inputs, outputs, params, typeArguments, headers] ←
    json.fields? ["op_type", "namespace", "class_name", "inputs", "outputs", "params", "template",
      "headers"] | none
  return {
    opType := ← (← opType).text?
    family := ← (← family).text?
    className := ← (← className).text?
    inputs := ← (← inputs).texts?
    outputs := ← (← outputs).texts?
    params := ← (← params).list? ParamKind.ofJson?
    typeArguments := ← Json.orDefault? [] (Json.list? TypeArgument.ofJson?) typeArguments
    headers := ← Json.orDefault? [] Json.texts? headers }

end TensorArena
