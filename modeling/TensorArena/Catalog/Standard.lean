import TensorArena.Catalog.Basic

/-!
# Standard operators

The operators that the runtime itself brings.
-/

set_option autoImplicit false

namespace TensorArena

namespace Standard

def reference (opType className : String) (inputs outputs : List String)
    (params : List ParamKind) (typeArguments : List TypeArgument) : Descriptor :=
  { Descriptor.ofClass opType "ReferenceOperators" className [] with
    inputs, outputs, params, typeArguments }

def quantized (opType className : String) (inputs outputs : List String)
    (params : List ParamKind) (typeArguments : List TypeArgument) : Descriptor :=
  { Descriptor.ofClass opType "TflmSymQuantOps" className [] with
    inputs, outputs, params, typeArguments }

def descriptors : List Descriptor :=
  [reference "Add" "AddOperator" ["a", "b"] ["c"] [] [.input 0],
    reference "MatrixMultiply" "MatrixMultOperator" ["a", "b"] ["c"] [] [.input 0],
    reference "ReLU" "ReLUOperator" ["in"] ["out"] [] [.input 0],
    reference "ReLU6" "ReLU6Operator" ["in"] ["out"] [] [.input 0],
    reference "Min" "MinOperator" ["in"] ["out"] [] [.input 0],
    reference "Max" "MaxOperator" ["in"] ["out"] [] [.input 0],
    reference "MinPool" "MinPoolOperator" ["in"] ["out"] [.list, .list, .int] [.input 0],
    reference "MaxPool" "MaxPoolOperator" ["in"] ["out"] [.list, .list, .int] [.input 0],
    reference "ArgMax" "ArgMaxOperator" ["input"] ["output"] [] [.input 0],
    reference "ArgMin" "ArgMinOperator" ["input"] ["output"] [] [.input 0],
    reference "Reshape" "ReshapeOperator" ["input"] ["output"] [.list] [.input 0],
    reference "DepthwiseSeparableConvolution" "DepthwiseSeparableConvOperator"
      ["in", "depthwise_filter", "pointwise_filter"] ["out"] [.list, .int] [.input 0],
    reference "FullyConnected" "FullyConnectedOperator" ["input", "filter", "bias"] ["output"]
      [.ident] [.output 0],
    quantized "Quantize" "QuantizeOperator" ["input"] ["output"] [] [.input 0, .output 0],
    quantized "Dequantize" "DequantizeOperator" ["a"] ["b"] [] [.output 0, .input 0],
    quantized "QuantizedFullyConnected" "FullyConnectedOperator" ["input", "filter", "bias"]
      ["output"] [.ident] [.output 0],
    quantized "QuantizedDepthwiseSeparableConvolution" "DepthwiseSeparableConvOperator"
      ["in", "filter", "bias"] ["out"] [.list, .int, .int, .ident] [.output 0]]

end Standard

/-- The catalog of the standard operators. -/
def Catalog.standard : Catalog := .ofDescriptors Standard.descriptors

end TensorArena
