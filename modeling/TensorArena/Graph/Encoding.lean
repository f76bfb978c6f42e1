import TensorArena.Codec.Fingerprint
import TensorArena.Graph.Basic

/-!
# The canonical encoding of graphs

Fields that are missing, and an empty list of parameters, leave no trace in the encoding.
-/

set_option autoImplicit false

namespace TensorArena

def Binary.encode {format : BinaryFormat} (value : Binary format) : List UInt8 :=
  Bytes.littleEndian ((1 + format.exponentBits + format.fractionBits) / 8) value.toBits

def ElementKind.encode (kind : ElementKind) : List UInt8 := Bytes.word32 kind.code

def Quantization.encode (quantization : Quantization) : List UInt8 :=
  quantization.scale.encode ++ Bytes.word32 quantization.zeroPoint.toBitVec.toNat

def encodeInt64 (value : Int64) : List UInt8 := Bytes.word64 value.toBitVec.toNat

def ConstantData.encode : ConstantData → List UInt8
  | floats values => Bytes.word32 0 ++ Bytes.sequence Binary.encode values
  | ints values => Bytes.word32 1 ++ Bytes.sequence encodeInt64 values

def Tensor.encode (tensor : Tensor) : List UInt8 :=
  Bytes.text tensor.name ++ tensor.kind.encode ++
    Bytes.sequence (fun dim => Bytes.word64 dim.toNat) tensor.shape ++
    Bytes.present Quantization.encode tensor.quantization ++
    Bytes.present ConstantData.encode tensor.data

namespace Param

mutual

def encode : Param → List UInt8
  | int value => Bytes.word32 0 ++ encodeInt64 value
  | float value => Bytes.word32 1 ++ value.encode
  | bool value => Bytes.word32 2 ++ Bytes.truth value
  | text value => Bytes.word32 3 ++ Bytes.text value
  | ident value => Bytes.word32 4 ++ Bytes.text value
  | list items => Bytes.word32 5 ++ Bytes.word64 items.length ++ encodeItems items

def encodeItems : List Param → List UInt8
  | [] => []
  | item :: items => encode item ++ encodeItems items

end

def encodeAll (params : List Param) : List UInt8 :=
  Bytes.word64 params.length ++ encodeItems params

end Param

def Operator.encode (operator : Operator) : List UInt8 :=
  Bytes.text operator.opType ++ Bytes.present Bytes.text operator.family ++
    Bytes.texts operator.inputs ++ Bytes.texts operator.outputs ++
    (if operator.params.isEmpty then [] else Param.encodeAll operator.params) ++
    Bytes.present Bytes.text operator.label

def Signature.encode (signature : Signature) : List UInt8 :=
  Bytes.sequence ElementKind.encode signature.inputs ++
    Bytes.sequence ElementKind.encode signature.outputs

def Graph.encode (graph : Graph) : List UInt8 :=
  Bytes.text graph.name ++ Bytes.sequence Tensor.encode graph.tensors ++
    Bytes.sequence Operator.encode graph.operators ++ Bytes.texts graph.inputs ++
    Bytes.texts graph.outputs

def Graph.fingerprint (graph : Graph) : UInt64 := Fingerprint.ofBytes graph.encode

end TensorArena
