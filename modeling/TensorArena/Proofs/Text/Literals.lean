import Mathlib.Tactic.Ring
import TensorArena.Text.Literal

/-!
# Floating-point literals

The literal of a finite value is a decimal number without an exponent, and the value is the one
nearest to that number. The decimal is one that has been tried and found to lead back to the value,
or it is the value itself, which has finitely many digits.
-/

set_option autoImplicit false

namespace TensorArena

/-! ### Rounding -/

theorem roundDiv_scale {factor : Nat} (positive : 0 < factor) (numerator denominator : Nat) :
    roundDiv (numerator * factor) (denominator * factor) = roundDiv numerator denominator := by
  unfold roundDiv
  dsimp only
  rw [Nat.mul_div_mul_right _ _ positive, Nat.mul_mod_mul_right, ← Nat.mul_assoc]
  simp only [Nat.mul_lt_mul_right positive]

theorem roundDiv_mul {factor : Nat} (positive : 0 < factor) (quotient : Nat) :
    roundDiv (quotient * factor) factor = quotient := by
  unfold roundDiv
  dsimp only
  rw [Nat.mul_div_cancel _ positive, Nat.mul_mod_left]
  exact if_pos (by omega)

namespace BinaryFormat

variable {format : BinaryFormat}

/-- Rounding depends on the quotient only. -/
theorem nearest_scale {factor : Nat} (positive : 0 < factor) (numerator denominator : Nat) :
    format.nearest (numerator * factor) (denominator * factor) =
      format.nearest numerator denominator := by
  unfold nearest
  dsimp only
  rw [Nat.mul_div_mul_right _ _ positive, Nat.mul_right_comm denominator factor,
    roundDiv_scale positive]

/-- The steps of a pattern have as many places after the first one as the format has, unless the
exponent says that there are more. -/
theorem nearest_of_shift {steps shift pattern : Nat} (finite : pattern < format.infinity)
    (isShift : steps.log2 - format.fractionBits = shift)
    (whole : shift * 2 ^ format.fractionBits + roundDiv steps (2 ^ shift) = pattern) :
    format.nearest steps 1 = pattern := by
  unfold nearest
  dsimp only
  rw [Nat.div_one, Nat.one_mul, isShift, Nat.pow_eq, Nat.pow_eq, whole]
  exact Nat.min_eq_right (Nat.le_of_lt finite)

theorem steps_zero (format : BinaryFormat) : format.steps 0 = 0 := by
  unfold steps
  rw [Nat.zero_div]
  rfl

/-- A finite magnitude is the one nearest to itself. -/
theorem nearest_steps {pattern : Nat} (finite : pattern < format.infinity) :
    format.nearest (format.steps pattern) 1 = pattern := by
  have positive : 0 < 2 ^ format.fractionBits := Nat.two_pow_pos _
  unfold steps
  dsimp only
  rw [Nat.pow_eq]
  by_cases subnormal : pattern / 2 ^ format.fractionBits = 0
  · have small : pattern < 2 ^ format.fractionBits :=
      (Nat.div_eq_zero_iff_lt positive).mp subnormal
    have low : pattern.log2 - format.fractionBits = 0 := by
      by_cases zero : pattern = 0
      · rw [zero, Nat.log2_zero, Nat.zero_sub]
      · have bits := (Nat.log2_lt zero).mpr small
        omega
    rw [if_pos subnormal]
    apply nearest_of_shift finite low
    have exact := roundDiv_mul Nat.one_pos pattern
    rw [Nat.mul_one] at exact
    rw [Nat.zero_mul, Nat.pow_zero, Nat.zero_add, exact]
  · have split := Nat.div_add_mod pattern (2 ^ format.fractionBits)
    have below := Nat.mod_lt pattern positive
    rw [if_neg subnormal]
    generalize pattern / 2 ^ format.fractionBits = exponent at split subnormal
    generalize pattern % 2 ^ format.fractionBits = fraction at split below
    have ⟨shift, isShift⟩ := Nat.exists_eq_succ_of_ne_zero subnormal
    rw [isShift] at split ⊢
    rw [Nat.succ_sub_one, Nat.pow_eq]
    have power : 0 < 2 ^ shift := Nat.two_pow_pos _
    have bits : ((2 ^ format.fractionBits + fraction) * 2 ^ shift).log2 =
        format.fractionBits + shift := by
      have nonzero : (2 ^ format.fractionBits + fraction) * 2 ^ shift ≠ 0 :=
        (Nat.mul_pos (by omega) power).ne'
      rw [Nat.log2_eq_iff nonzero, Nat.pow_succ, Nat.pow_add, Nat.mul_right_comm]
      exact ⟨Nat.mul_le_mul_right _ (by omega), Nat.mul_lt_mul_of_pos_right (by omega) power⟩
    have isPower : ((2 ^ format.fractionBits + fraction) * 2 ^ shift).log2 -
        format.fractionBits = shift := by omega
    apply nearest_of_shift finite isPower
    rw [roundDiv_mul power]
    calc
      shift * 2 ^ format.fractionBits + (2 ^ format.fractionBits + fraction) =
          2 ^ format.fractionBits * shift.succ + fraction := by
        rw [Nat.succ_eq_add_one]
        ring
      _ = pattern := split

end BinaryFormat

/-! ### Decimals -/

namespace Decimal

variable {format : BinaryFormat}

/-- The bounds on the exponent of a decimal are reached only where it is rounded to infinity or to
zero. -/
theorem pattern_eq_nearest {value : Decimal} (positive : 0 < value.pattern format)
    (finite : value.pattern format < format.infinity) :
    value.pattern format = format.nearest
      (value.digits * 10 ^ value.exponent.toNat * 2 ^ format.scale)
      (10 ^ (-value.exponent).toNat) := by
  unfold pattern at positive finite ⊢
  dsimp only at positive finite ⊢
  split at positive
  · exact absurd positive (Nat.lt_irrefl 0)
  next nonzero =>
    rw [if_neg nonzero] at finite ⊢
    split at positive
    next large =>
      rw [if_pos large] at finite
      exact absurd finite (Nat.lt_irrefl _)
    next moderate =>
      split at positive
      · exact absurd positive (Nat.lt_irrefl 0)
      next solid => rw [if_neg moderate, if_neg solid]; rfl

theorem neighbour?_accepted {tie : Tie} {accepts : Decimal → Bool}
    {numerator denominator count : Nat} {decimal : Decimal}
    (found : neighbour? tie accepts numerator denominator count = some decimal) :
    accepts decimal = true := by
  unfold neighbour? at found
  dsimp only at found
  split at found
  · cases found
  next isLower _ => rwa [← Option.some.inj found]
  next _ isUpper => rwa [← Option.some.inj found]
  next isLower isUpper =>
    split at found
    · rwa [← Option.some.inj found]
    · split at found
      · rwa [← Option.some.inj found]
      · split at found
        · rwa [← Option.some.inj found]
        · rwa [← Option.some.inj found]

/-- The shortest decimal is accepted, unless it is the exact one. -/
theorem shortest_cases (tie : Tie) (accepts : Decimal → Bool) (steps scale : Nat) :
    accepts (shortest tie accepts steps scale) = true ∨
      shortest tie accepts steps scale = ⟨steps * 5 ^ scale, -scale⟩ := by
  unfold shortest
  dsimp only
  cases found : (List.range 17).findSome? fun count =>
      neighbour? tie accepts steps (Nat.pow 2 scale) (count + 1) with
  | none => exact .inr rfl
  | some decimal =>
    have ⟨count, _, isNeighbour⟩ := List.exists_of_findSome?_eq_some found
    exact .inl (neighbour?_accepted isNeighbour)

end Decimal

/-! ### Positional numbers -/

/-- The value nearest to a number that is written without an exponent. -/
def Number.nearest (number : Number) (format : BinaryFormat) : Binary format :=
  .ofSteps format number.negative
    ((number.whole * 10 ^ number.fraction.length + numeral number.fraction) * 2 ^ format.scale)
    (10 ^ number.fraction.length)

theorem length_places (count value : Nat) : (places count value).length = count := by
  induction count with
  | zero => rfl
  | succ count ih => rw [places, List.length_cons, ih]

/-- The last digits of a number spell its remainder. -/
theorem numeral_places (count value : Nat) : numeral (places count value) = value % 10 ^ count := by
  have general : ∀ start, (places count value).foldl
      (fun value digit => 10 * value + digit.val) start =
        start * 10 ^ count + value % 10 ^ count := by
    induction count with
    | zero =>
      intro start
      show start = start * 1 + value % 1
      omega
    | succ count ih =>
      intro start
      have digits : value % 10 ^ (count + 1) =
          value % 10 ^ count + 10 ^ count * (value / 10 ^ count % 10) := by
        rw [Nat.pow_succ, Nat.mod_mul]
      rw [places, List.foldl_cons, ih, digits]
      dsimp only
      rw [Nat.pow_eq]
      ring
  rw [numeral, general, Nat.zero_mul, Nat.zero_add]

theorem Number.positional_shape (negative : Bool) (value : Decimal) :
    (positional negative value).exponent = none ∧ (positional negative value).fraction ≠ [] := by
  refine ⟨rfl, ?_⟩
  unfold positional
  dsimp only
  split
  · exact List.cons_ne_nil _ _
  next several =>
    intro empty
    have length := length_places (-value.exponent).toNat value.digits
    rw [empty] at length
    exact several length.symm

theorem Binary.ofSteps_congr {format : BinaryFormat} (negative : Bool)
    {numerator denominator other divisor : Nat}
    (same : format.nearest numerator denominator = format.nearest other divisor) :
    ofSteps format negative numerator denominator = ofSteps format negative other divisor := by
  unfold ofSteps
  simp only [same]

/-- A decimal is written with its own digits, so the number is the decimal. -/
theorem Number.nearest_positional (format : BinaryFormat) (negative : Bool) (value : Decimal) :
    (positional negative value).nearest format = .ofSteps format negative
      (value.digits * 10 ^ value.exponent.toNat * 2 ^ format.scale)
      (10 ^ (-value.exponent).toNat) := by
  unfold nearest positional
  apply Binary.ofSteps_congr
  dsimp only
  by_cases whole : (-value.exponent).toNat = 0
  · -- A number without a fraction gets a zero behind its point.
    have tenfold : format.nearest (value.digits * 10 ^ value.exponent.toNat * 2 ^ format.scale * 10)
        (1 * 10) = format.nearest (value.digits * 10 ^ value.exponent.toNat * 2 ^ format.scale) 1 :=
      BinaryFormat.nearest_scale (by decide) _ 1
    have digits : value.digits * 10 ^ value.exponent.toNat / 10 ^ 0 * 10 ^ 1 + numeral [0] =
        value.digits * 10 ^ value.exponent.toNat * 10 := by
      simp [numeral]
    rw [if_pos whole, whole, List.length_singleton, Nat.pow_eq, Nat.pow_eq, digits,
      Nat.mul_right_comm]
    exact tenfold
  · have noPower : value.exponent.toNat = 0 := by omega
    rw [if_neg whole, length_places, numeral_places, noPower, Nat.pow_eq, Nat.pow_eq, Nat.pow_zero,
      Nat.mul_one, Nat.div_add_mod']

/-! ### Literals -/

namespace Binary

variable {format : BinaryFormat}

theorem ofSteps_eq {value : Binary format} {numerator denominator : Nat}
    (nearest : format.nearest numerator denominator = value.pattern.val) :
    ofSteps format value.negative numerator denominator = value := by
  unfold ofSteps
  simp only [nearest]

/-- Where a decimal leads back to a value, the number that is written for it denotes the value. -/
theorem nearest_of_toBinary {value : Binary format} {decimal : Decimal}
    (finite : value.isFinite = true) (nonzero : value.isZero = false)
    (back : decimal.toBinary format value.negative = value) :
    (Number.positional value.negative decimal).nearest format = value := by
  have pattern : decimal.pattern format = value.pattern.val :=
    congrArg (fun value => value.pattern.val) back
  have positive : value.pattern.val ≠ 0 := by simpa [isZero] using nonzero
  have bounded : value.pattern.val < format.infinity := of_decide_eq_true finite
  rw [← pattern] at positive bounded
  have nearest := Decimal.pattern_eq_nearest (Nat.pos_of_ne_zero positive) bounded
  rw [Number.nearest_positional]
  exact ofSteps_eq (nearest.symm.trans pattern)

/-- A finite value has finitely many decimal digits. -/
theorem nearest_exact {value : Binary format} (finite : value.isFinite = true) :
    (Number.positional value.negative ⟨value.steps * 5 ^ format.scale, -format.scale⟩).nearest
      format = value := by
  have bounded : value.pattern.val < format.infinity := of_decide_eq_true finite
  have power : 0 < 10 ^ format.scale := Nat.pow_pos (by decide)
  have nearest : format.nearest (value.steps * 10 ^ format.scale) (1 * 10 ^ format.scale) =
      value.pattern.val :=
    (BinaryFormat.nearest_scale power value.steps 1).trans (BinaryFormat.nearest_steps bounded)
  have tens : value.steps * 5 ^ format.scale * 2 ^ format.scale =
      value.steps * 10 ^ format.scale := by
    rw [Nat.mul_assoc, ← Nat.mul_pow]
  have noPower : (-(format.scale : Int)).toNat = 0 := by omega
  have places : (- -(format.scale : Int)).toNat = format.scale := by omega
  rw [Number.nearest_positional, noPower, places, Nat.pow_zero, Nat.mul_one, tens]
  rw [Nat.one_mul] at nearest
  exact ofSteps_eq nearest

/-- A finite value is the one nearest to the number that is written for it. -/
theorem nearest_toNumber (tie : Tie) {value : Binary format} (finite : value.isFinite = true) :
    (value.toNumber tie Number.positional).nearest format = value := by
  unfold toNumber
  cases zero : value.isZero with
  | true =>
    have nothing : value.pattern.val = 0 := of_decide_eq_true zero
    have bounded : value.pattern.val < format.infinity := of_decide_eq_true finite
    have nearest := BinaryFormat.nearest_steps bounded
    rw [nothing, BinaryFormat.steps_zero] at nearest
    rw [if_pos rfl, Number.nearest_positional]
    show ofSteps format value.negative (0 * 10 ^ 0 * 2 ^ format.scale) (10 ^ 0) = value
    rw [Nat.zero_mul, Nat.zero_mul, Nat.pow_zero]
    exact ofSteps_eq (nearest.trans nothing.symm)
  | false =>
    rw [if_neg Bool.false_ne_true]
    rcases Decimal.shortest_cases tie
        (fun decimal => decide (decimal.toBinary format value.negative = value)) value.steps
        format.scale with accepted | exact
    · exact nearest_of_toBinary finite zero (of_decide_eq_true accepted)
    · rw [exact]
      exact nearest_exact finite

theorem toNumber_shape (tie : Tie) (value : Binary format) :
    (value.toNumber tie Number.positional).exponent = none ∧
      (value.toNumber tie Number.positional).fraction ≠ [] := by
  unfold toNumber
  split
  · exact Number.positional_shape _ _
  · exact Number.positional_shape _ _

end Binary

namespace Literal

/-- The literal denotes the value: it names what is no number, or it is the text of a number with a
point but no exponent to which the value is nearest. -/
inductive Denotes {format : BinaryFormat} (suffix : String) : String → Binary format → Prop where
  | nan {value : Binary format} (isNaN : value.isNaN = true) : Denotes suffix "NAN" value
  | infinity {value : Binary format} (infinite : value.isInfinite = true)
    (positive : value.negative = false) : Denotes suffix "INFINITY" value
  | negativeInfinity {value : Binary format} (infinite : value.isInfinite = true)
    (negative : value.negative = true) : Denotes suffix "-INFINITY" value
  | number {value : Binary format} (finite : value.isFinite = true) (number : Number)
    (positional : number.exponent = none ∧ number.fraction ≠ [])
    (nearest : number.nearest format = value) :
    Denotes suffix (String.ofList number.toChars ++ suffix) value

theorem denotes_floating {format : BinaryFormat} (suffix : String) (value : Binary format) :
    Denotes suffix (floating suffix value) value := by
  unfold floating
  cases nan : value.isNaN with
  | true => exact .nan nan
  | false =>
    cases infinite : value.isInfinite with
    | true =>
      cases sign : value.negative with
      | true => exact .negativeInfinity infinite sign
      | false => exact .infinity infinite sign
    | false =>
      have finite : value.isFinite = true := by
        simp only [Binary.isNaN, Binary.isInfinite, Binary.isFinite, decide_eq_false_iff_not,
          beq_eq_false_iff_ne, decide_eq_true_eq] at nan infinite ⊢
        omega
      exact .number finite _ (value.toNumber_shape .upper) (Binary.nearest_toNumber .upper finite)

end Literal

end TensorArena
