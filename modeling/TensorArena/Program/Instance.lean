import TensorArena.Graph.Encoding
import TensorArena.Catalog.Basic
import TensorArena.Text.Identifier

/-!
# Shared instances

Operators with the same configuration share one instance. Configurations are compared by the
canonical encodings of their keys.
-/

set_option autoImplicit false

namespace TensorArena

/-- What distinguishes one instance from another. -/
structure InstanceKey where
  family : String
  opType : String
  signature : Signature
  params : List Param

def InstanceKey.encode (key : InstanceKey) : List UInt8 :=
  Bytes.text key.family ++ Bytes.text key.opType ++ key.signature.encode ++
    Param.encodeAll key.params

structure Instance where
  id : Nat
  /-- The name of the instance in the generated program. -/
  symbol : String
  key : InstanceKey
  /-- The steps that evaluate the instance, ascending. -/
  occurrences : List Nat

/-- Why an operator has no instance. -/
inductive InstanceError where
  | unsupportedOperator (operator : String)
  | arityMismatch (operator : String) (inputs outputs expectedInputs expectedOutputs : Nat)
  | parameterMismatch (operator : String) (expected found : List ParamKind)
  | unstableParameter (operator : String) (position : Nat)
  | missingSignature (operator : String)
deriving DecidableEq, Repr

def titles (kinds : List ParamKind) : String :=
  "[" ++ ", ".intercalate (kinds.map ParamKind.title) ++ "]"

def InstanceError.message : InstanceError → String
  | unsupportedOperator operator => s!"no handler registered for operator {operator}"
  | arityMismatch operator inputs outputs expectedInputs expectedOutputs =>
    s!"operator {operator} has {inputs} inputs and {outputs} outputs, " ++
      s!"handler expects {expectedInputs} and {expectedOutputs}"
  | parameterMismatch operator expected found =>
    s!"operator {operator} parameters " ++ titles found ++ " do not match " ++ titles expected
  | unstableParameter operator position => s!"operator {operator} parameter {position} is NaN"
  | missingSignature operator => s!"operator {operator} references an undeclared tensor"

/-- The instances in order of their first use, and the instance of each step. -/
structure InstanceTable where
  instances : List Instance := []
  assigned : List Nat := []

namespace InstanceTable

def get? (table : InstanceTable) (id : Nat) : Option Instance := table.instances[id]?

/-- The instance that an operator of the graph evaluates. -/
def instanceOf? (table : InstanceTable) (operator : Nat) : Option Instance := do
  table.get? (← table.assigned[operator]?)

end InstanceTable

/-- The parameters with negative zeros replaced, or the position of the first one with a NaN. -/
def normalizeParams (position : Nat) : List Param → Except Nat (List Param)
  | [] => .ok []
  | param :: rest =>
    match param.normalize? with
    | none => .error position
    | some param => do return param :: (← normalizeParams (position + 1) rest)

/-- The key of an operator, checked against the handler of its type. -/
def Graph.instanceKey (graph : Graph) (catalog : Catalog) (index : Nat) (operator : Operator) :
    Except InstanceError InstanceKey := do
  let name := operator.describe index
  let some handler := catalog.get? operator.opType | .error (.unsupportedOperator name)
  let descriptor := handler.descriptor
  if operator.inputs.length ≠ descriptor.inputs.length ||
      operator.outputs.length ≠ descriptor.outputs.length then
    .error (.arityMismatch name operator.inputs.length operator.outputs.length
      descriptor.inputs.length descriptor.outputs.length)
  else if operator.params.map Param.kind ≠ descriptor.params then
    .error (.parameterMismatch name descriptor.params (operator.params.map Param.kind))
  else
    let params ← (normalizeParams 0 operator.params).mapError (.unstableParameter name)
    let some signature := graph.signature? operator | .error (.missingSignature name)
    return {
      family := operator.family.getD descriptor.family
      opType := operator.opType
      signature
      params }

/-- An instance's name: the operator type and a number of at least three digits. -/
def instanceName (opType : String) (id : Nat) : String :=
  let digits := Nat.toDigits 10 id
  "op_" ++ (Identifier.sanitize opType).map Char.toLower ++ "_" ++
    String.ofList (List.replicate (3 - digits.length) '0' ++ digits)

namespace InstanceTable

/-- Notes that a step evaluates an instance. -/
def addOccurrence (step id : Nat) (table : InstanceTable) : InstanceTable where
  instances := table.instances.modify id fun shared =>
    { shared with occurrences := shared.occurrences ++ [step] }
  assigned := table.assigned ++ [id]

/-- Assigns a step the instance with its key, a new one if there is none. -/
def add (step : Nat) (key : InstanceKey) (table : InstanceTable) : InstanceTable :=
  match table.instances.findIdx? fun shared => shared.key.encode == key.encode with
  | some id => table.addOccurrence step id
  | none =>
    let id := table.instances.length
    { instances := table.instances ++ [⟨id, instanceName key.opType id, key, [step]⟩]
      assigned := table.assigned ++ [id] }

end InstanceTable

namespace Graph

def shareFrom (graph : Graph) (catalog : Catalog) :
    Nat → List Operator → InstanceTable → Except InstanceError InstanceTable
  | _, [], table => .ok table
  | step, operator :: rest, table => do
    let key ← graph.instanceKey catalog step operator
    graph.shareFrom catalog (step + 1) rest (table.add step key)

/-- The instances that the operators of a graph share. -/
def shareInstances (graph : Graph) (catalog : Catalog) : Except InstanceError InstanceTable :=
  graph.shareFrom catalog 0 graph.operators {}

end Graph

end TensorArena
