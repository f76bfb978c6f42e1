/-!
# Binary floating-point formats

A value is a sign and a magnitude pattern. Every finite magnitude is a whole number of steps of
the least subnormal, so decoding and rounding are arithmetic on natural numbers.
-/

set_option autoImplicit false

namespace TensorArena

/-- The widths of the exponent and fraction fields. -/
structure BinaryFormat where
  exponentBits : Nat
  fractionBits : Nat
deriving DecidableEq, Repr

namespace BinaryFormat

def single : BinaryFormat := ⟨8, 23⟩

def double : BinaryFormat := ⟨11, 52⟩

/-- The number of magnitude patterns. -/
def patterns (format : BinaryFormat) : Nat :=
  Nat.pow 2 (format.exponentBits + format.fractionBits)

/-- The pattern of infinity; finite magnitudes lie below it, NaN above. -/
def infinity (format : BinaryFormat) : Nat :=
  (Nat.pow 2 format.exponentBits - 1) * Nat.pow 2 format.fractionBits

/-- The least subnormal is `2 ^ (-scale)`. -/
def scale (format : BinaryFormat) : Nat :=
  Nat.pow 2 (format.exponentBits - 1) - 2 + format.fractionBits

theorem infinity_lt_patterns (format : BinaryFormat) : format.infinity < format.patterns := by
  have fraction : 0 < 2 ^ format.fractionBits := Nat.two_pow_pos _
  have exponent : 0 < 2 ^ format.exponentBits := Nat.two_pow_pos _
  rw [infinity, patterns, Nat.pow_eq, Nat.pow_eq, Nat.pow_eq, Nat.pow_add]
  exact Nat.mul_lt_mul_of_pos_right (by omega) fraction

/-- The magnitude of a finite pattern, counted in least subnormals. -/
def steps (format : BinaryFormat) (pattern : Nat) : Nat :=
  let exponent := pattern / Nat.pow 2 format.fractionBits
  if exponent = 0 then pattern
  else
    (Nat.pow 2 format.fractionBits + pattern % Nat.pow 2 format.fractionBits) *
      Nat.pow 2 (exponent - 1)

end BinaryFormat

/-- The natural number nearest to a quotient, the even one of two equally near. -/
def roundDiv (numerator denominator : Nat) : Nat :=
  let quotient := numerator / denominator
  let twice := 2 * (numerator % denominator)
  if twice < denominator then quotient
  else if denominator < twice then quotient + 1
  else quotient + quotient % 2

/-- The pattern nearest to `numerator / denominator` steps. Patterns grow with their magnitudes,
so a carry out of the fraction lands on the next exponent by itself. -/
def BinaryFormat.nearest (format : BinaryFormat) (numerator denominator : Nat) : Nat :=
  let shift := (numerator / denominator).log2 - format.fractionBits
  min format.infinity
    (shift * Nat.pow 2 format.fractionBits +
      roundDiv numerator (denominator * Nat.pow 2 shift))

theorem BinaryFormat.nearest_lt_patterns (format : BinaryFormat) (numerator denominator : Nat) :
    format.nearest numerator denominator < format.patterns :=
  Nat.lt_of_le_of_lt (Nat.min_le_left _ _) format.infinity_lt_patterns

/-- A floating-point value of a format. -/
structure Binary (format : BinaryFormat) where
  negative : Bool
  pattern : Fin format.patterns
deriving DecidableEq

abbrev Binary32 : Type := Binary .single

abbrev Binary64 : Type := Binary .double

namespace Binary

variable {format : BinaryFormat}

def isNaN (value : Binary format) : Bool := format.infinity < value.pattern.val

def isInfinite (value : Binary format) : Bool := value.pattern.val == format.infinity

def isFinite (value : Binary format) : Bool := value.pattern.val < format.infinity

def isZero (value : Binary format) : Bool := value.pattern.val == 0

/-- Numerical equality: NaN equals nothing and the two zeros are equal. -/
def same (left right : Binary format) : Bool :=
  !left.isNaN && !right.isNaN && (left == right || left.isZero && right.isZero)

/-- The sign bit above the magnitude pattern, as one number. -/
def toBits (value : Binary format) : Nat :=
  (if value.negative then format.patterns else 0) + value.pattern.val

def zero (format : BinaryFormat) (negative : Bool) : Binary format :=
  ⟨negative, 0, Nat.two_pow_pos _⟩

def infinite (format : BinaryFormat) (negative : Bool) : Binary format :=
  ⟨negative, format.infinity, format.infinity_lt_patterns⟩

/-- The value nearest to a number of steps, or infinity. -/
def ofSteps (format : BinaryFormat) (negative : Bool) (numerator denominator : Nat) :
    Binary format :=
  ⟨negative, format.nearest numerator denominator, format.nearest_lt_patterns _ _⟩

/-- The magnitude of a finite value, counted in least subnormals. -/
def steps (value : Binary format) : Nat := format.steps value.pattern.val

/-- The value nearest to the product of two finite values. -/
def mul (left right : Binary format) : Binary format :=
  .ofSteps format (left.negative ^^ right.negative) (left.steps * right.steps)
    (Nat.pow 2 format.scale)

/-- The value nearest to the quotient of two finite values, the second of them not zero. -/
def div (left right : Binary format) : Binary format :=
  .ofSteps format (left.negative ^^ right.negative) (left.steps * Nat.pow 2 format.scale)
    right.steps

/-- The positive NaN whose fraction has only its highest bit set. -/
def quietNaN (format : BinaryFormat) : Binary format :=
  ⟨false, (format.infinity + Nat.pow 2 (format.fractionBits - 1)) % format.patterns,
    Nat.mod_lt _ (Nat.two_pow_pos _)⟩

end Binary

/-- Rounds a double to the nearest single. -/
def Binary64.toSingle (value : Binary64) : Binary32 :=
  if value.isNaN then .quietNaN .single
  else if value.isInfinite then .infinite .single value.negative
  else .ofSteps .single value.negative value.steps
    (Nat.pow 2 (BinaryFormat.double.scale - BinaryFormat.single.scale))

end TensorArena
