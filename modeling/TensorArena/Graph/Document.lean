import TensorArena.Graph.Basic
import TensorArena.Json.Decoder
import TensorArena.Json.Reader
import TensorArena.Json.Writer

/-!
# Graph documents

Graphs are saved as JSON. Fields without a value, and an empty list of parameters, are left out.
Only parameters nest without bound, so only they are subject to the limit on nesting.
-/

set_option autoImplicit false

namespace TensorArena

/-! ### Writing -/

def Quantization.toJson (quantization : Quantization) : Json :=
  .record [("scale", .ofBinary32 quantization.scale),
    ("zero_point", .ofInt quantization.zeroPoint.toInt)]

def ConstantData.toJson : ConstantData → Json
  | floats values => .record [("float", .array (values.map Json.ofBinary32))]
  | ints values => .record [("int", .array (values.map fun value => Json.ofInt value.toInt))]

/-- The member for a field that may be missing. -/
def Json.member {α : Type} (name : String) (toJson : α → Json) : Option α → List (String × Json)
  | some value => [(name, toJson value)]
  | none => []

def Tensor.toJson (tensor : Tensor) : Json :=
  .record <|
    [("name", .ofText tensor.name), ("dtype", .ofText tensor.kind.name),
      ("shape", .array (tensor.shape.map fun dim => Json.ofNat dim.toNat))] ++
    Json.member "quant" Quantization.toJson tensor.quantization ++
    Json.member "data" ConstantData.toJson tensor.data

namespace Param

mutual

def toJson : Param → Json
  | int value => .record [("kind", .ofText "int"), ("value", .ofInt value.toInt)]
  | float value => .record [("kind", .ofText "float"), ("value", .ofBinary64 value)]
  | bool value => .record [("kind", .ofText "bool"), ("value", .bool value)]
  | text value => .record [("kind", .ofText "str"), ("value", .ofText value)]
  | ident value => .record [("kind", .ofText "ident"), ("value", .ofText value)]
  | list items => .record [("kind", .ofText "list"), ("value", .array (toJsonAll items))]

def toJsonAll : List Param → List Json
  | [] => []
  | item :: items => toJson item :: toJsonAll items

end

end Param

def Operator.toJson (operator : Operator) : Json :=
  .record <|
    [("op_type", .ofText operator.opType)] ++
    Json.member "namespace" Json.ofText operator.family ++
    [("inputs", .ofTexts operator.inputs), ("outputs", .ofTexts operator.outputs)] ++
    (if operator.params.isEmpty then []
      else [("params", .array (Param.toJsonAll operator.params))]) ++
    Json.member "label" Json.ofText operator.label

def Graph.toJson (graph : Graph) : Json :=
  .record
    [("name", .ofText graph.name), ("tensors", .array (graph.tensors.map Tensor.toJson)),
      ("operators", .array (graph.operators.map Operator.toJson)),
      ("inputs", .ofTexts graph.inputs), ("outputs", .ofTexts graph.outputs)]

/-- The text of the document, indented. -/
def Graph.toText (graph : Graph) : String := graph.toJson.write .indented

/-! ### Reading -/

def ElementKind.ofName? (name : String) : Option ElementKind :=
  ElementKind.all.find? fun kind => kind.name == name

def ElementKind.ofJson? (json : Json) : Option ElementKind := do
  ElementKind.ofName? (← json.variant?)

def ParamKind.ofName? (name : String) : Option ParamKind :=
  ParamKind.all.find? fun kind => kind.name == name

def ParamKind.ofJson? (json : Json) : Option ParamKind := do
  ParamKind.ofName? (← json.variant?)

def Quantization.ofJson? (json : Json) : Option Quantization := do
  let [scale, zeroPoint] ← json.fields? ["scale", "zero_point"] | none
  return { scale := ← (← scale).binary32?, zeroPoint := ← (← zeroPoint).int32? }

def ConstantData.ofJson? : Json → Option ConstantData
  | .object [(some "float", values)] => (values.list? Json.binary32?).map floats
  | .object [(some "int", values)] => (values.list? Json.int64?).map ints
  | _ => none

def Tensor.ofJson? (json : Json) : Option Tensor := do
  let [name, kind, shape, quantization, data] ←
    json.fields? ["name", "dtype", "shape", "quant", "data"] | none
  return {
    name := ← (← name).text?
    kind := ← ElementKind.ofJson? (← kind)
    shape := ← (← shape).list? Json.uint64?
    quantization := ← Json.optional? Quantization.ofJson? quantization
    data := ← Json.optional? ConstantData.ofJson? data }

/-- The kind of a parameter that is written as an array: its name or, in a value that has been
read ahead, its number. -/
def ParamKind.ofItem? (ahead : Bool) : Json → Option ParamKind
  | .string name => do ParamKind.ofName? (← name)
  | item => if ahead then do ParamKind.all[← item.size?]? else none

/-- The kind of a parameter that is written as an object: its name, or an object that gives its
name null, or nothing in a value that has been read ahead. Such an object takes a bracket. -/
def ParamKind.ofMember? (ahead : Bool) (room : Nat) : Json → Option ParamKind
  | .string name => do ParamKind.ofName? (← name)
  | .object [(some name, .null)] => if 0 < room then ParamKind.ofName? name else none
  | .object [(some name, .object [])] => if ahead then ParamKind.ofName? name else none
  | _ => none

/-- The kind and the value of a parameter, and whether the value has been read ahead. That is so
if it stands before its kind: it is read without knowing what it is for, and so all of it must be
readable. -/
def Param.parts? (room : Nat) (ahead : Bool) : Json → Option (ParamKind × Json × Bool)
  | .array [kind, value] => do return (← ParamKind.ofItem? ahead kind, value, ahead)
  | .object members => do
    let [some kind, some value] ← (Json.object members).fields? ["kind", "value"] | none
    let first := members.find? fun member =>
      member.1 == some "kind" || member.1 == some "value"
    let valueFirst := first.any fun member => member.1 == some "value"
    if valueFirst && !value.isReadable room then none
    else return (← ParamKind.ofMember? ahead room kind, value, ahead || valueFirst)
  | _ => none

/-- Reads a parameter in which at most `room` brackets are nested. The flag tells whether it is
part of a value that has been read ahead. -/
def Param.ofJson? : Nat → Bool → Json → Option Param
  | 0, _, _ => none
  | room + 1, ahead, json => do
    let (kind, value, ahead) ← Param.parts? room ahead json
    match kind, room, value with
    | .int, _, value => value.int64?.map int
    | .float, _, value => value.binary64?.map float
    | .bool, _, value => value.bool?.map bool
    | .text, _, value => value.text?.map text
    | .ident, _, value => value.text?.map ident
    | .list, inner + 1, .array items => (items.mapM (Param.ofJson? inner ahead)).map list
    | .list, _, _ => none

/-- The greatest number of nested brackets in a document. -/
def nestingLimit : Nat := 127

/-- Parameters stand inside the graph, the list of operators, an operator and its list. -/
def Operator.paramRoom : Nat := nestingLimit - 4

def Operator.ofJson? (json : Json) : Option Operator := do
  let [opType, family, inputs, outputs, params, label] ←
    json.fields? ["op_type", "namespace", "inputs", "outputs", "params", "label"] | none
  return {
    opType := ← (← opType).text?
    family := ← Json.optional? Json.text? family
    inputs := ← (← inputs).texts?
    outputs := ← (← outputs).texts?
    params := ← Json.orDefault? [] (Json.list? (Param.ofJson? Operator.paramRoom false)) params
    label := ← Json.optional? Json.text? label }

def Graph.ofJson? (json : Json) : Option Graph := do
  let [name, tensors, operators, inputs, outputs] ←
    json.fields? ["name", "tensors", "operators", "inputs", "outputs"] | none
  return {
    name := ← (← name).text?
    tensors := ← (← tensors).list? Tensor.ofJson?
    operators := ← (← operators).list? Operator.ofJson?
    inputs := ← (← inputs).texts?
    outputs := ← (← outputs).texts? }

def Graph.ofText? (text : String) : Option Graph := do
  Graph.ofJson? (← Json.read? text)

end TensorArena
