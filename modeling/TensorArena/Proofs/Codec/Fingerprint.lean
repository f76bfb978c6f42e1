import Mathlib.Logic.Function.Basic
import TensorArena.Codec.Fingerprint

/-!
# Fingerprints of changed bytes

The prime has an inverse modulo 2^64, so neither the state nor the byte is lost when a byte is
absorbed. States that differ stay different whatever is absorbed after them, and byte sequences that
differ in one byte have different fingerprints.
-/

set_option autoImplicit false

namespace TensorArena.Fingerprint

def primeInverse : UInt64 := 0xce965057aff6957b

theorem prime_mul_primeInverse : prime * primeInverse = 1 := by decide

theorem mul_prime_inj {left right : UInt64} : left * prime = right * prime ↔ left = right := by
  constructor
  · intro same
    calc
      left = left * prime * primeInverse := by
        rw [UInt64.mul_assoc, prime_mul_primeInverse, UInt64.mul_one]
      _ = right * prime * primeInverse := by rw [same]
      _ = right := by rw [UInt64.mul_assoc, prime_mul_primeInverse, UInt64.mul_one]
  · intro same
    rw [same]

theorem absorb_state_inj {left right : UInt64} (byte : UInt8) :
    absorb left byte = absorb right byte ↔ left = right := by
  unfold absorb
  rw [mul_prime_inj, UInt64.xor_left_inj]

theorem absorb_byte_inj (state : UInt64) {left right : UInt8} :
    absorb state left = absorb state right ↔ left = right := by
  unfold absorb
  rw [mul_prime_inj, UInt64.xor_right_inj, UInt8.toUInt64_inj]

theorem absorbAll_inj {left right : UInt64} (bytes : List UInt8) :
    absorbAll left bytes = absorbAll right bytes ↔ left = right := by
  induction bytes generalizing left right with
  | nil => exact Iff.rfl
  | cons byte rest ih =>
    show absorbAll (absorb left byte) rest = absorbAll (absorb right byte) rest ↔ left = right
    rw [ih, absorb_state_inj]

/-- The byte in the middle is absorbed by a state that the bytes before it determine. -/
theorem ofBytes_around (front rest : List UInt8) (byte : UInt8) :
    ofBytes (front ++ [byte] ++ rest) = absorbAll (absorb (ofBytes front) byte) rest := by
  unfold ofBytes absorbAll
  rw [List.foldl_append, List.foldl_append]
  rfl

/-- Absorbing bytes keeps different states apart, so a change of one byte changes the
fingerprint. -/
theorem byte_change_detected :
    (∀ bytes : List UInt8, Function.Injective fun state => absorbAll state bytes) ∧
      ∀ (front rest : List UInt8) (left right : UInt8),
        ofBytes (front ++ [left] ++ rest) = ofBytes (front ++ [right] ++ rest) ↔
          left = right := by
  constructor
  · intro bytes left right same
    exact (absorbAll_inj bytes).mp same
  · intro front rest left right
    rw [ofBytes_around, ofBytes_around, absorbAll_inj, absorb_byte_inj]

end TensorArena.Fingerprint
