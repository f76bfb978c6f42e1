import TensorArena.Graph.Basic

/-!
# Validation of graphs

A graph is valid when its tensor names are distinct, its constants fit their declarations and
every reference resolves. The order of production and use is not its concern.
-/

set_option autoImplicit false

namespace TensorArena

inductive Boundary where
  | input
  | output
deriving DecidableEq, Repr

def Boundary.name : Boundary → String
  | .input => "input"
  | .output => "output"

/-- Why a graph is not valid. -/
inductive GraphError where
  | duplicateTensor (name : String)
  | unknownTensor (operator name : String)
  | unknownInput (name : String)
  | unknownOutput (name : String)
  | constantInput (name : String)
  | duplicateBoundary (name : String) (boundary : Boundary)
  | constantLength (name : String) (expected found : Nat)
  | constantKind (name : String) (kind : ElementKind)
  | constantRange (name : String) (kind : ElementKind) (value : Int)
  | quantizedNonInteger (name : String) (kind : ElementKind)
deriving DecidableEq, Repr

def GraphError.message : GraphError → String
  | duplicateTensor name => s!"tensor '{name}' is declared more than once"
  | unknownTensor operator name => s!"operator {operator} references unknown tensor '{name}'"
  | unknownInput name => s!"graph input '{name}' is not a declared tensor"
  | unknownOutput name => s!"graph output '{name}' is not a declared tensor"
  | constantInput name => s!"graph input '{name}' carries constant data"
  | duplicateBoundary name boundary =>
    s!"tensor '{name}' is listed twice as a graph {boundary.name}"
  | constantLength name expected found =>
    s!"constant '{name}' holds {found} values, its shape needs {expected}"
  | constantKind name kind =>
    s!"constant '{name}' holds float values but is declared {kind.title}"
  | constantRange name kind value => s!"constant '{name}' value {value} does not fit {kind.title}"
  | quantizedNonInteger name kind =>
    s!"tensor '{name}' is quantized but its element kind {kind.title} is not an integer"

/-- Float contents need a float kind; integer contents must lie in the range of the kind, if it
has one. -/
def Tensor.checkValues (tensor : Tensor) : ConstantData → Except GraphError Unit
  | .floats _ =>
    if tensor.kind.isFloat then .ok () else .error (.constantKind tensor.name tensor.kind)
  | .ints values =>
    match tensor.kind.intRange? with
    | none => .ok ()
    | some (least, greatest) =>
      match values.find? fun value => value.toInt < least || greatest < value.toInt with
      | some value => .error (.constantRange tensor.name tensor.kind value.toInt)
      | none => .ok ()

/-- A constant must hold as many values as its shape needs; a shape without an element count needs
more than any constant holds. -/
def Tensor.checkData (tensor : Tensor) : Except GraphError Unit :=
  match tensor.data with
  | none => .ok ()
  | some data =>
    let expected := tensor.elementCount?.getD (sizeLimit - 1)
    if data.length = expected then tensor.checkValues data
    else .error (.constantLength tensor.name expected data.length)

def Tensor.checkQuantization (tensor : Tensor) : Except GraphError Unit :=
  if tensor.quantization.isSome && !tensor.kind.isInteger then
    .error (.quantizedNonInteger tensor.name tensor.kind)
  else .ok ()

def Tensor.check (tensor : Tensor) : Except GraphError Unit := do
  tensor.checkData
  tensor.checkQuantization

namespace Graph

/-- Fails at the first tensor whose name one before it has. -/
def checkNames (seen : List String) : List Tensor → Except GraphError Unit
  | [] => .ok ()
  | tensor :: rest =>
    if seen.contains tensor.name then .error (.duplicateTensor tensor.name)
    else checkNames (tensor.name :: seen) rest

def checkInputs (graph : Graph) (seen : List String) : List String → Except GraphError Unit
  | [] => .ok ()
  | name :: rest =>
    match graph.tensor? name with
    | none => .error (.unknownInput name)
    | some tensor =>
      if tensor.isConstant then .error (.constantInput name)
      else if seen.contains name then .error (.duplicateBoundary name .input)
      else graph.checkInputs (name :: seen) rest

def checkOutputs (graph : Graph) (seen : List String) : List String → Except GraphError Unit
  | [] => .ok ()
  | name :: rest =>
    if (graph.tensor? name).isNone then .error (.unknownOutput name)
    else if seen.contains name then .error (.duplicateBoundary name .output)
    else graph.checkOutputs (name :: seen) rest

/-- Fails at the first name of an operator that no tensor has. -/
def checkReferences (graph : Graph) (index : Nat) : List Operator → Except GraphError Unit
  | [] => .ok ()
  | operator :: rest =>
    match (operator.inputs ++ operator.outputs).find? fun name => (graph.tensor? name).isNone with
    | some name => .error (.unknownTensor (operator.describe index) name)
    | none => graph.checkReferences (index + 1) rest

/-- Checks that the names of the tensors are distinct. -/
def checkTable (graph : Graph) : Except GraphError Unit := checkNames [] graph.tensors

def validate (graph : Graph) : Except GraphError Unit := do
  graph.checkTable
  graph.tensors.forM Tensor.check
  graph.checkInputs [] graph.inputs
  graph.checkOutputs [] graph.outputs
  graph.checkReferences 0 graph.operators

end Graph

end TensorArena
