import TensorArena.Numeric.Binary

/-!
# Decimal numbers

`Decimal` is an exact decimal magnitude. It is rounded to a binary format, written out in a fixed
number of places, and selected as the shortest one that identifies a binary value.
-/

set_option autoImplicit false

namespace TensorArena

/-- The magnitude `digits * 10 ^ exponent`. -/
structure Decimal where
  digits : Nat
  exponent : Int
deriving DecidableEq, Repr

def digitCount (value : Nat) : Nat := (Nat.toDigits 10 value).length

/-- The last `count` decimal digits of a number, the highest place first. -/
def places : Nat → Nat → List (Fin 10)
  | 0, _ => []
  | count + 1, value =>
    ⟨value / Nat.pow 10 count % 10, Nat.mod_lt _ (by decide)⟩ :: places count value

/-- The number that a sequence of decimal digits spells. -/
def numeral (digits : List (Fin 10)) : Nat :=
  digits.foldl (fun value digit => 10 * value + digit.val) 0

namespace Decimal

/-- The pattern nearest to the magnitude. The two bounds on the exponent only keep the powers of
ten small: beyond them the result is infinity or zero. -/
def pattern (format : BinaryFormat) (value : Decimal) : Nat :=
  let bound : Int := Nat.pow 2 format.exponentBits
  if value.digits = 0 then 0
  else if bound < value.exponent then format.infinity
  else if value.exponent + digitCount value.digits < -bound then 0
  else format.nearest (value.digits * Nat.pow 10 value.exponent.toNat * Nat.pow 2 format.scale)
    (Nat.pow 10 (-value.exponent).toNat)

theorem pattern_lt (format : BinaryFormat) (value : Decimal) :
    value.pattern format < format.patterns := by
  simp only [pattern]
  split
  · exact Nat.two_pow_pos _
  split
  · exact format.infinity_lt_patterns
  split
  · exact Nat.two_pow_pos _
  · exact format.nearest_lt_patterns _ _

/-- The binary value nearest to a signed decimal, or infinity. -/
def toBinary (value : Decimal) (format : BinaryFormat) (negative : Bool) : Binary format :=
  ⟨negative, value.pattern format, value.pattern_lt format⟩

end Decimal

/-- Which of two equally near decimals is taken. -/
inductive Tie where
  | even
  | upper
deriving DecidableEq, Repr

namespace Decimal

/-- The least power of ten above `numerator / denominator`, for a positive quotient. -/
def magnitude (numerator denominator : Nat) : Int :=
  if denominator ≤ numerator then digitCount (numerator / denominator)
  else 1 - digitCount ((denominator + numerator - 1) / numerator - 1)

/-- The neighbour of `numerator / denominator` among the decimals of `count` digits that is
accepted, the nearer one if both are. -/
def neighbour? (tie : Tie) (accepts : Decimal → Bool) (numerator denominator count : Nat) :
    Option Decimal :=
  let exponent := magnitude numerator denominator - count
  let above := numerator * Nat.pow 10 (-exponent).toNat
  let below := denominator * Nat.pow 10 exponent.toNat
  let digits := above / below
  let lower : Decimal := ⟨digits, exponent⟩
  let upper : Decimal :=
    if digits + 1 = Nat.pow 10 count then ⟨1, exponent + count⟩ else ⟨digits + 1, exponent⟩
  match accepts lower, accepts upper with
  | false, false => none
  | true, false => some lower
  | false, true => some upper
  | true, true =>
    if 2 * above < (2 * digits + 1) * below then some lower
    else if (2 * digits + 1) * below < 2 * above then some upper
    else if tie = .even && digits % 2 == 0 then some lower
    else some upper

/-- The accepted decimal with the fewest digits, up to seventeen, for a number of steps of
`2 ^ (-scale)`; the exact value if none of them is accepted. -/
def shortest (tie : Tie) (accepts : Decimal → Bool) (steps scale : Nat) : Decimal :=
  let found := (List.range 17).findSome? fun count =>
    neighbour? tie accepts steps (Nat.pow 2 scale) (count + 1)
  found.getD ⟨steps * Nat.pow 5 scale, -scale⟩

end Decimal

end TensorArena
