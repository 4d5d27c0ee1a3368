import TrustLayer.ThemisAgents

/-!
# Numbers of a payload

A `Value` keeps an `f32` as the `f64` of the same value, and has no number for
what is not finite.
-/

namespace TrustLayer.Library

namespace F32

def isFinite (number : F32) : Bool :=
  decide (number.magnitude < 0x7F800000)

def infinity : F32 := ⟨0x7F800000⟩

def negInfinity : F32 := ⟨0xFF800000⟩

/-- The magnitude of `as f64`.  Below the normal numbers, the first bit set
becomes the hidden one. -/
def magnitudeToF64 (magnitude : Nat) : Nat :=
  if magnitude = 0 then 0
  else if magnitude < 2 ^ 23 then
    let first := magnitude.log2
    (874 + first) * 2 ^ 52 + (magnitude - 2 ^ first) * 2 ^ (52 - first)
  else if magnitude < 0x7F800000 then magnitude * 2 ^ 29 + 896 * 2 ^ 52
  else if magnitude = 0x7F800000 then 0x7FF0000000000000
  else 0x7FF8000000000000 ||| (magnitude - 0x7F800000) * 2 ^ 29

/-- `as f64`. -/
def toF64 (number : F32) : F64 :=
  ⟨UInt64.ofNat (number.bits.toNat / 2 ^ 31 * 2 ^ 63 +
    magnitudeToF64 number.magnitude)⟩

-- the least number above zero, and 0.85
example : toF64 ⟨1⟩ = ⟨0x36A0000000000000⟩ ∧
    toF64 ⟨0x3F59999A⟩ = ⟨0x3FEB333340000000⟩ := by
  decide

end F32

/-! ## Widening loses nothing -/

namespace F64

theorem roundShift_mul_pow (value shift : Nat) :
    roundShift (value * 2 ^ shift) shift = value := by
  have rest : value * 2 ^ shift % 2 ^ shift = 0 := Nat.mul_mod_left _ _
  have quotient : (value * 2 ^ shift) >>> shift = value := by
    rw [Nat.shiftRight_eq_div_pow, Nat.mul_div_cancel _ (Nat.two_pow_pos shift)]
  have positive := Nat.two_pow_pos shift
  rw [roundShift, rest, quotient, if_neg (by omega)]

/-- Sign and magnitude are narrowed apart. -/
theorem toF32_of_parts {sign magnitude : Nat} (bit : sign < 2)
    (small : magnitude < 2 ^ 63) :
    toF32 ⟨UInt64.ofNat (sign * 2 ^ 63 + magnitude)⟩ =
      ⟨UInt32.ofNat (sign * 2 ^ 31 +
        magnitudeToF32 (magnitude / 2 ^ 52) (magnitude % 2 ^ 52))⟩ := by
  have bits : (UInt64.ofNat (sign * 2 ^ 63 + magnitude)).toNat =
      sign * 2 ^ 63 + magnitude :=
    UInt64.toNat_ofNat_of_lt' (by unfold UInt64.size; omega)
  simp only [toF32, bits, Nat.shiftRight_eq_div_pow]
  have exponent : (sign * 2 ^ 63 + magnitude) / 2 ^ 52 % 2048 =
      magnitude / 2 ^ 52 := by
    omega
  have mantissa : (sign * 2 ^ 63 + magnitude) % 2 ^ 52 = magnitude % 2 ^ 52 := by
    omega
  have top : (sign * 2 ^ 63 + magnitude) / 2 ^ 63 = sign := by
    omega
  rw [exponent, mantissa, top]

end F64

namespace F32

variable {magnitude : Nat}

/-- It narrows to the magnitude again. -/
def Widened (magnitude wide : Nat) : Prop :=
  wide < 2 ^ 63 ∧
    F64.magnitudeToF32 (wide / 2 ^ 52) (wide % 2 ^ 52) = magnitude

theorem widened_of_parts {exponent mantissa : Nat} (small : exponent < 2 ^ 11)
    (fraction : mantissa < 2 ^ 52)
    (narrows : F64.magnitudeToF32 exponent mantissa = magnitude) :
    Widened magnitude (exponent * 2 ^ 52 + mantissa) := by
  have quotient : (exponent * 2 ^ 52 + mantissa) / 2 ^ 52 = exponent := by
    omega
  have rest : (exponent * 2 ^ 52 + mantissa) % 2 ^ 52 = mantissa := by
    omega
  refine ⟨by omega, ?_⟩
  rw [quotient, rest, narrows]

theorem widened_normal (normal : 2 ^ 23 ≤ magnitude)
    (finite : magnitude < 0x7F800000) :
    Widened magnitude (magnitude * 2 ^ 29 + 896 * 2 ^ 52) := by
  have split : magnitude * 2 ^ 29 + 896 * 2 ^ 52 =
      (magnitude / 2 ^ 23 + 896) * 2 ^ 52 + magnitude % 2 ^ 23 * 2 ^ 29 := by
    omega
  rw [split]
  apply widened_of_parts (by omega) (by omega)
  have hidden : 2 ^ 52 + magnitude % 2 ^ 23 * 2 ^ 29 =
      (2 ^ 23 + magnitude % 2 ^ 23) * 2 ^ 29 := by
    omega
  rw [F64.magnitudeToF32, if_neg (by omega), if_pos (by omega), hidden,
    F64.roundShift_mul_pow]
  omega

theorem widened_subnormal (positive : magnitude ≠ 0)
    (subnormal : magnitude < 2 ^ 23) :
    Widened magnitude ((874 + magnitude.log2) * 2 ^ 52 +
      (magnitude - 2 ^ magnitude.log2) * 2 ^ (52 - magnitude.log2)) := by
  set first := magnitude.log2 with firstSet
  have low : 2 ^ first ≤ magnitude := Nat.log2_self_le positive
  have high : magnitude < 2 ^ (first + 1) := Nat.lt_log2_self
  have bounded : first < 23 := (Nat.log2_lt positive).mpr subnormal
  have whole : 2 ^ first * 2 ^ (52 - first) = 2 ^ 52 := by
    rw [← Nat.pow_add]
    congr 1
    omega
  have fraction : (magnitude - 2 ^ first) * 2 ^ (52 - first) < 2 ^ 52 := by
    rw [← whole]
    apply Nat.mul_lt_mul_of_pos_right _ (Nat.two_pow_pos _)
    rw [Nat.pow_succ] at high
    omega
  apply widened_of_parts (by omega) fraction
  have shift : 29 + (897 - (874 + first)) = 52 - first := by
    omega
  have hidden : 2 ^ 52 + (magnitude - 2 ^ first) * 2 ^ (52 - first) =
      magnitude * 2 ^ (52 - first) := by
    rw [← whole, ← Nat.add_mul, Nat.add_sub_cancel' low]
  rw [F64.magnitudeToF32, if_neg (by omega), if_neg (by omega),
    if_neg (by omega), shift, hidden, F64.roundShift_mul_pow]

theorem widened_magnitudeToF64 (finite : magnitude < 0x7F800000) :
    Widened magnitude (magnitudeToF64 magnitude) := by
  unfold magnitudeToF64
  split_ifs with zero subnormal
  · subst zero
    exact ⟨by decide, by decide⟩
  · exact widened_subnormal zero subnormal
  · exact widened_normal (by omega) finite

/-- A finite number survives `as f64 as f32`. -/
theorem toF32_toF64 {number : F32} (finite : number.isFinite = true) :
    number.toF64.toF32 = number := by
  obtain ⟨small, narrows⟩ := widened_magnitudeToF64 (of_decide_eq_true finite)
  have below := number.bits.toNat_lt
  rw [toF64, F64.toF32_of_parts (by omega) small, narrows, magnitude]
  have parts : number.bits.toNat / 2 ^ 31 * 2 ^ 31 + number.bits.toNat % 2 ^ 31 =
      number.bits.toNat := by
    omega
  rw [parts, UInt32.ofNat_toNat]

/-! ## What is not finite -/

theorem place_bounds {number : F32} (finite : number.isFinite = true) :
    -0x7F800000 < number.place ∧ number.place < 0x7F800000 := by
  have small : number.magnitude < 0x7F800000 := of_decide_eq_true finite
  unfold place
  split <;> omega

theorem not_finite_cases {number : F32} (notFinite : number.isFinite = false) :
    number.isNaN = true ∨ number = infinity ∨ number = negInfinity := by
  have large : ¬ number.magnitude < 0x7F800000 := of_decide_eq_false notFinite
  by_cases above : 0x7F800000 < number.magnitude
  · exact Or.inl (decide_eq_true above)
  · have below := number.bits.toNat_lt
    have bits : number.bits.toNat = 0x7F800000 ∨
        number.bits.toNat = 0xFF800000 := by
      unfold magnitude at large above
      omega
    right
    obtain ⟨word⟩ := number
    refine bits.imp (fun same => ?_) fun same => ?_
    · exact congrArg F32.mk (UInt32.toNat_inj.mp same)
    · exact congrArg F32.mk (UInt32.toNat_inj.mp same)

theorem lt_false_of_isNaN {left right : F32}
    (nan : left.isNaN = true ∨ right.isNaN = true) :
    left.lt right = false := by
  unfold lt
  rcases nan with nan | nan <;> simp [nan]

theorem isNaN_of_finite {number : F32} (finite : number.isFinite = true) :
    number.isNaN = false := by
  have small : number.magnitude < 0x7F800000 := of_decide_eq_true finite
  exact decide_eq_false (by omega)

/-- Only one number that is not finite is above a finite one. -/
theorem lt_iff_eq_infinity {left right : F32} (finite : left.isFinite = true)
    (notFinite : right.isFinite = false) :
    left.lt right = true ↔ right = infinity := by
  have bounds := place_bounds finite
  rcases not_finite_cases notFinite with nan | rfl | rfl
  · rw [lt_false_of_isNaN (Or.inr nan)]
    refine iff_of_false Bool.false_ne_true ?_
    rintro rfl
    exact absurd nan (by decide)
  · have place : infinity.place = 0x7F800000 := by decide
    have number : infinity.isNaN = false := by decide
    simp [lt, isNaN_of_finite finite, number, place, bounds.2]
  · have place : negInfinity.place = -0x7F800000 := by decide
    have different : negInfinity ≠ infinity := by decide
    simp [lt, place, different]
    omega

theorem lt_iff_eq_negInfinity {left right : F32}
    (notFinite : left.isFinite = false) (finite : right.isFinite = true) :
    left.lt right = true ↔ left = negInfinity := by
  have bounds := place_bounds finite
  rcases not_finite_cases notFinite with nan | rfl | rfl
  · rw [lt_false_of_isNaN (Or.inl nan)]
    refine iff_of_false Bool.false_ne_true ?_
    rintro rfl
    exact absurd nan (by decide)
  · have place : infinity.place = 0x7F800000 := by decide
    have different : infinity ≠ negInfinity := by decide
    simp [lt, place, different]
    omega
  · have place : negInfinity.place = -0x7F800000 := by decide
    have number : negInfinity.isNaN = false := by decide
    simp [lt, isNaN_of_finite finite, number, place, bounds.1]

end F32

end TrustLayer.Library

namespace TrustLayer.ThemisAgents

open TrustLayer.Library hiding Json
open TrustLayer.AgentGuard (Json)

/-- `to_value` of an `f32`. -/
class FloatValues where
  toValue : F32 → Json

/-- A finite `f32` becomes the number of its `f64`, and anything else null. -/
structure FloatConventions [FloatTexts] [FloatValues] : Prop where
  finite : ∀ number : F32, number.isFinite = true →
    ∃ literal, FloatValues.toValue number = .number literal ∧
      FloatTexts.asF64 literal = number.toF64
  other : ∀ number : F32, number.isFinite = false →
    FloatValues.toValue number = .null

namespace FloatConventions

variable [FloatTexts] [FloatValues]

/-- What is read where a number was written. -/
theorem readBack (conventions : FloatConventions) (number : F32)
    (absent : F64) :
    ((asF64 (FloatValues.toValue number)).getD absent).toF32 =
      if number.isFinite then number else absent.toF32 := by
  cases finite : number.isFinite with
  | true =>
      obtain ⟨literal, written, value⟩ := conventions.finite number finite
      rw [written, asF64, value]
      exact F32.toF32_toF64 finite
  | false =>
      rw [conventions.other number finite]
      rfl

end FloatConventions

end TrustLayer.ThemisAgents
