import TensorArena.Graph.Param
import TensorArena.Tensor.Basic

/-!
# Graphs

A graph lists its tensors and its operators; the order of the operators is the order of
execution. References between them are by name.
-/

set_option autoImplicit false

namespace TensorArena

/-- One occurrence of an operator. -/
structure Operator where
  opType : String
  /-- The implementation family, if it is not the one of the operator's handler. -/
  family : Option String := none
  inputs : List String
  outputs : List String
  params : List Param := []
  /-- A name kept for messages. -/
  label : Option String := none

/-- Names an operator in messages by its position, its type and its label. -/
def Operator.describe (operator : Operator) (index : Nat) : String :=
  match operator.label with
  | some label => s!"#{index} {operator.opType} ({label})"
  | none => s!"#{index} {operator.opType}"

/-- The element kinds of an operator's inputs and outputs, in their order. -/
structure Signature where
  inputs : List ElementKind
  outputs : List ElementKind
deriving DecidableEq, Repr

structure Graph where
  name : String
  tensors : List Tensor := []
  operators : List Operator := []
  inputs : List String := []
  outputs : List String := []

namespace Graph

def tensor? (graph : Graph) (name : String) : Option Tensor :=
  graph.tensors.find? fun tensor => tensor.name == name

/-- The role of a declared tensor. Data makes a constant even of a graph input. -/
def role? (graph : Graph) (name : String) : Option Role :=
  (graph.tensor? name).map fun tensor =>
    if tensor.isConstant then .constant
    else if graph.inputs.contains name then .input
    else .intermediate

def isOutput (graph : Graph) (name : String) : Bool := graph.outputs.contains name

def kindOf? (graph : Graph) (name : String) : Option ElementKind :=
  (graph.tensor? name).map Tensor.kind

/-- The signature of an operator, if all its tensors are declared. -/
def signature? (graph : Graph) (operator : Operator) : Option Signature := do
  return ⟨← operator.inputs.mapM graph.kindOf?, ← operator.outputs.mapM graph.kindOf?⟩

/-- The graph whose execution stops after the first `count` operators. -/
def truncate (graph : Graph) (count : Nat) : Graph :=
  { graph with operators := graph.operators.take count }

/-- The operators in order of execution, by position. -/
def executionOrder (graph : Graph) : List Nat := List.range graph.operators.length

end Graph

namespace Operator

def same (left right : Operator) : Bool :=
  left.opType == right.opType && left.family == right.family && left.inputs == right.inputs &&
    left.outputs == right.outputs && Param.sameAll left.params right.params &&
    left.label == right.label

end Operator

namespace Graph

def sameOperators : List Operator → List Operator → Bool
  | [], [] => true
  | left :: lefts, right :: rights => left.same right && sameOperators lefts rights
  | _, _ => false

def sameTensors : List Tensor → List Tensor → Bool
  | [], [] => true
  | left :: lefts, right :: rights => left.same right && sameTensors lefts rights
  | _, _ => false

/-- Equality of graphs, with floating-point numbers compared numerically. -/
def same (left right : Graph) : Bool :=
  left.name == right.name && sameTensors left.tensors right.tensors &&
    sameOperators left.operators right.operators && left.inputs == right.inputs &&
    left.outputs == right.outputs

end Graph

end TensorArena
