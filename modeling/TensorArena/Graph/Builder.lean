import TensorArena.Graph.Basic

/-!
# Building graphs

A graph is put together in order of execution, each operator together with the tensors it writes.
-/

set_option autoImplicit false

namespace TensorArena.Graph

def addInput (graph : Graph) (tensor : Tensor) : Graph :=
  { graph with
    tensors := graph.tensors ++ [tensor]
    inputs := graph.inputs ++ [tensor.name] }

def addConstant (graph : Graph) (tensor : Tensor) : Graph :=
  { graph with tensors := graph.tensors ++ [tensor] }

/-- Appends an operator and declares the given tensors. The result is the position of the operator
and the graph. -/
def addOperator (graph : Graph) (operator : Operator) (tensors : List Tensor) : Nat × Graph :=
  (graph.operators.length,
    { graph with
      tensors := graph.tensors ++ tensors
      operators := graph.operators ++ [operator] })

/-- Appends an operator whose outputs are exactly the tensors it declares. -/
def addPlainOperator (graph : Graph) (opType : String) (inputs : List String) (tensors : List Tensor) :
    Nat × Graph :=
  graph.addOperator { opType, inputs, outputs := tensors.map Tensor.name } tensors

def addOutput (graph : Graph) (name : String) : Graph :=
  { graph with outputs := graph.outputs ++ [name] }

end TensorArena.Graph
