import TensorArena.Numeric.Decimal

/-!
# Written numbers

`Number` is a decimal number as it is written: sign, whole part, fraction and exponent. A floating
point value is written with the fewest digits that identify it.
-/

set_option autoImplicit false

namespace TensorArena

structure Number where
  negative : Bool
  whole : Nat
  fraction : List (Fin 10)
  exponent : Option Int
deriving DecidableEq, Repr

namespace Number

def ofInt (value : Int) : Number := ⟨decide (value < 0), value.natAbs, [], none⟩

/-- The integer a number denotes if it is written as one; `-0` is not. -/
def toInt? (number : Number) : Option Int :=
  if number.fraction.isEmpty && number.exponent.isNone then
    if number.negative then if number.whole = 0 then none else some (-number.whole)
    else some number.whole
  else none

/-- Without an exponent, with at least one digit after the point. -/
def positional (negative : Bool) (value : Decimal) : Number :=
  let count := (-value.exponent).toNat
  ⟨negative, value.digits * Nat.pow 10 value.exponent.toNat / Nat.pow 10 count,
    if count = 0 then [0] else places count value.digits, none⟩

/-- With one digit before the point, and no point behind which nothing stands. -/
def scientific (negative : Bool) (value : Decimal) : Number :=
  let count := digitCount value.digits - 1
  ⟨negative, value.digits / Nat.pow 10 count, places count value.digits,
    some (value.exponent + count)⟩

def toChars (number : Number) : List Char :=
  (if number.negative then ['-'] else []) ++ Nat.toDigits 10 number.whole ++
    (if number.fraction.isEmpty then []
      else '.' :: number.fraction.map fun digit => Nat.digitChar digit.val) ++
    match number.exponent with
    | some exponent =>
      'e' :: (if exponent < 0 then '-' else '+') :: Nat.toDigits 10 exponent.natAbs
    | none => []

end Number

namespace Binary

variable {format : BinaryFormat}

/-- Writes a finite value with the fewest digits that are nearer to it than to any other value. -/
def toNumber (tie : Tie) (write : Bool → Decimal → Number) (value : Binary format) : Number :=
  if value.isZero then write value.negative ⟨0, 0⟩
  else
    write value.negative
      (Decimal.shortest tie
        (fun decimal => decide (decimal.toBinary format value.negative = value))
        value.steps format.scale)

end Binary

end TensorArena
