import TensorArena.Codec.Bytes

/-!
# Fingerprints

The 64-bit FNV-1a hash of a byte sequence.
-/

set_option autoImplicit false

namespace TensorArena.Fingerprint

def start : UInt64 := 0xcbf29ce484222325

def prime : UInt64 := 0x100000001b3

def absorb (state : UInt64) (byte : UInt8) : UInt64 := (state ^^^ byte.toUInt64) * prime

def absorbAll (state : UInt64) (bytes : List UInt8) : UInt64 := bytes.foldl absorb state

def ofBytes (bytes : List UInt8) : UInt64 := absorbAll start bytes

/-- Sixteen lower-case hexadecimal digits. -/
def hex (fingerprint : UInt64) : String :=
  let digits := Nat.toDigits 16 fingerprint.toNat
  String.ofList (List.replicate (16 - digits.length) '0' ++ digits)

end TensorArena.Fingerprint
