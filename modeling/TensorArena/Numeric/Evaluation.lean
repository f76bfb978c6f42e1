import TensorArena.Numeric.Number

/-!
# Evaluating written numbers

A written number is evaluated in double-precision arithmetic. Its leading digits form a
significand of at most 64 bits, which is rounded and then multiplied or divided by rounded powers
of ten. So the result is near the number, and not always the double nearest to it.
-/

set_option autoImplicit false

namespace TensorArena

namespace Decimal

/-- All significands lie below it. -/
def significandBound : Nat := 0x10000000000000000

/-- The leading digits of a whole number that form a significand. A number of twenty digits may
form one, a number of nineteen digits always does. -/
def ofWhole (whole : Nat) : Decimal :=
  let surplus := digitCount whole - 20
  let dropped := if whole / Nat.pow 10 surplus < significandBound then surplus else surplus + 1
  ⟨whole / Nat.pow 10 dropped, dropped⟩

/-- Appends digits up to the first one that leaves no significand. -/
def append : Decimal → List (Fin 10) → Decimal
  | value, [] => value
  | value, digit :: digits =>
    let longer := 10 * value.digits + digit.val
    if longer < significandBound then append ⟨longer, value.exponent - 1⟩ digits else value

end Decimal

/-- The greatest exponent of a power of ten among the doubles. -/
def greatestPower : Nat := 308

/-- The double nearest to a power of ten. -/
def powerOfTen (exponent : Nat) : Binary64 := Decimal.toBinary ⟨1, exponent⟩ .double false

/-- Divides by a power of ten, the greatest ones first. -/
def Binary64.shrink (value : Binary64) (exponent : Nat) : Binary64 :=
  if exponent ≤ greatestPower then value.div (powerOfTen exponent)
  else if value.isZero then value
  else shrink (value.div (powerOfTen greatestPower)) (exponent - greatestPower)
termination_by exponent
decreasing_by simp only [greatestPower] at *; omega

/-- Multiplies by a power of ten, unless the result lies beyond the finite values. -/
def Binary64.grow? (value : Binary64) (exponent : Nat) : Option Binary64 :=
  if exponent ≤ greatestPower then
    let product := value.mul (powerOfTen exponent)
    if product.isFinite then some product else none
  else if value.isZero then some value
  else none

namespace Number

/-- The digits of a number that form a significand, and the power of ten they count. Digits of
the fraction are appended even where digits of the whole part have been dropped. -/
def significand (number : Number) : Decimal :=
  let value := (Decimal.ofWhole number.whole).append number.fraction
  { value with exponent := value.exponent + number.exponent.getD 0 }

/-- The double a number is evaluated to, unless it lies beyond the finite ones. -/
def toBinary64? (number : Number) : Option Binary64 :=
  let significand := number.significand
  let value : Binary64 := Decimal.toBinary ⟨significand.digits, 0⟩ .double number.negative
  if significand.exponent < 0 then some (value.shrink (-significand.exponent).toNat)
  else value.grow? significand.exponent.toNat

/-- A number written as a 64-bit integer is rounded to single precision at once, any other
through double precision. -/
def toBinary32? (number : Number) : Option Binary32 :=
  match number.toInt? with
  | some value =>
    if -0x8000000000000000 ≤ value && value ≤ 0xFFFFFFFFFFFFFFFF then
      some (Decimal.toBinary ⟨number.whole, 0⟩ .single number.negative)
    else number.toBinary64?.map Binary64.toSingle
  | none => number.toBinary64?.map Binary64.toSingle

end Number

end TensorArena
