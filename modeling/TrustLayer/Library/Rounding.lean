import Mathlib.Data.Int.Log
import Mathlib.Data.Rat.Floor
import Mathlib.Tactic.FieldSimp
import Mathlib.Tactic.Linarith
import Mathlib.Tactic.Positivity.Basic

/-!
# Binary floating point

The finite numbers of a binary format by their values, and the rounding to the
nearest of them, with ties to even.  A format has no largest number here.
-/

namespace TrustLayer.Library

/-! ## The nearest integer -/

/-- The nearest integer, and of two nearest ones the even one. -/
def roundEven (value : ℚ) : ℤ :=
  if 2 * Int.fract value < 1 ∨ 2 * Int.fract value = 1 ∧ ⌊value⌋ % 2 = 0 then
    ⌊value⌋
  else ⌊value⌋ + 1

theorem floor_le_roundEven (value : ℚ) : ⌊value⌋ ≤ roundEven value := by
  unfold roundEven
  split_ifs <;> omega

theorem roundEven_le (value : ℚ) : roundEven value ≤ ⌊value⌋ + 1 := by
  unfold roundEven
  split_ifs <;> omega

@[simp] theorem roundEven_intCast (value : ℤ) : roundEven value = value := by
  simp [roundEven]

theorem roundEven_mono {left right : ℚ} (le : left ≤ right) :
    roundEven left ≤ roundEven right := by
  rcases (Int.floor_mono le).lt_or_eq with below | same
  · calc
      roundEven left ≤ ⌊left⌋ + 1 := roundEven_le left
      _ ≤ ⌊right⌋ := below
      _ ≤ roundEven right := floor_le_roundEven right
  · have fractions : Int.fract left ≤ Int.fract right := by
      rw [Int.fract, Int.fract, same]
      linarith
    unfold roundEven
    rw [same]
    split_ifs with down up
    · exact le_refl _
    · omega
    · rename_i stays
      exfalso
      apply down
      rcases stays with less | ⟨tie, even⟩
      · exact Or.inl (by linarith)
      · rcases fractions.lt_or_eq with lower | equal
        · exact Or.inl (by linarith)
        · exact Or.inr ⟨by rw [equal, tie], even⟩
    · exact le_refl _

/-! ## Formats -/

/-- How many bits a number has, and the exponent of the smallest one. -/
structure BinaryFormat where
  precision : Nat
  least : ℤ
  positive : 0 < precision

def binary32 : BinaryFormat where
  precision := 24
  least := -149
  positive := by decide

def binary64 : BinaryFormat where
  precision := 53
  least := -1074
  positive := by decide

namespace BinaryFormat

variable (format : BinaryFormat)

/-- The exponent of the last bit of a number of this size. -/
def lastBit (value : ℚ) : ℤ :=
  max format.least (Int.log 2 |value| + 1 - format.precision)

def nearest (value : ℚ) : ℚ :=
  roundEven (value / 2 ^ format.lastBit value) * 2 ^ format.lastBit value

/-- The numbers of the format. -/
def Holds (value : ℚ) : Prop :=
  ∃ mantissa exponent : ℤ, |mantissa| ≤ 2 ^ format.precision ∧
    format.least ≤ exponent ∧ value = mantissa * 2 ^ exponent

variable {format} {value : ℚ}

theorem two_zpow_pos (exponent : ℤ) : (0 : ℚ) < 2 ^ exponent :=
  zpow_pos (by norm_num) exponent

/-- A power of two is a multiple of the smaller ones. -/
theorem exists_mul_two_zpow {small large : ℤ} (le : small ≤ large) :
    ∃ factor : ℤ, (2 : ℚ) ^ large = factor * 2 ^ small := by
  refine ⟨2 ^ (large - small).toNat, ?_⟩
  have exponents : large = ((large - small).toNat : ℤ) + small := by
    omega
  push_cast
  rw [← zpow_natCast, ← zpow_add₀ (by norm_num), ← exponents]

theorem nearest_of_multiple {factor : ℤ}
    (multiple : value = factor * 2 ^ format.lastBit value) :
    format.nearest value = value := by
  have quotient : value / 2 ^ format.lastBit value = factor := by
    rw [div_eq_iff (two_zpow_pos _).ne']
    exact multiple
  rw [nearest, quotient, roundEven_intCast]
  exact multiple.symm

theorem nearest_le_multiple {factor : ℤ}
    (le : value ≤ factor * 2 ^ format.lastBit value) :
    format.nearest value ≤ factor * 2 ^ format.lastBit value := by
  have quotient : value / 2 ^ format.lastBit value ≤ factor :=
    (div_le_iff₀ (two_zpow_pos _)).mpr le
  have rounded := roundEven_mono quotient
  rw [roundEven_intCast] at rounded
  exact mul_le_mul_of_nonneg_right (by exact_mod_cast rounded)
    (two_zpow_pos _).le

theorem multiple_le_nearest {factor : ℤ}
    (le : factor * 2 ^ format.lastBit value ≤ value) :
    factor * 2 ^ format.lastBit value ≤ format.nearest value := by
  have quotient : factor ≤ value / 2 ^ format.lastBit value :=
    (le_div_iff₀ (two_zpow_pos _)).mpr le
  have rounded := roundEven_mono quotient
  rw [roundEven_intCast] at rounded
  exact mul_le_mul_of_nonneg_right (by exact_mod_cast rounded)
    (two_zpow_pos _).le

theorem nearest_nonneg (nonneg : 0 ≤ value) : 0 ≤ format.nearest value := by
  have zero : ((0 : ℤ) : ℚ) * 2 ^ format.lastBit value ≤ value := by
    simpa using nonneg
  simpa using multiple_le_nearest zero

@[simp] theorem nearest_zero : format.nearest 0 = 0 := by
  have rounded : roundEven 0 = 0 := by
    simpa using roundEven_intCast 0
  rw [nearest, zero_div, rounded]
  simp

/-- What is below a power of two stays so, and what is above. -/
theorem nearest_mono {left right : ℚ} (nonneg : 0 ≤ left)
    (le : left ≤ right) : format.nearest left ≤ format.nearest right := by
  rcases nonneg.eq_or_lt with rfl | positive
  · rw [nearest_zero]
    exact nearest_nonneg le
  have larger := positive.trans_le le
  have logs : Int.log 2 left ≤ Int.log 2 right := Int.log_mono_right positive le
  have bits : format.lastBit left ≤ format.lastBit right := by
    simp only [lastBit, abs_of_pos positive, abs_of_pos larger]
    omega
  rcases bits.lt_or_eq with coarser | same
  · have precise := format.positive
    simp only [lastBit, abs_of_pos positive, abs_of_pos larger] at coarser
    have leftBit : format.lastBit left ≤ Int.log 2 right := by
      simp only [lastBit, abs_of_pos positive]
      omega
    have rightBit : format.lastBit right ≤ Int.log 2 right := by
      simp only [lastBit, abs_of_pos larger]
      omega
    obtain ⟨above, isAbove⟩ := exists_mul_two_zpow leftBit
    obtain ⟨below, isBelow⟩ := exists_mul_two_zpow rightBit
    have between : left ≤ 2 ^ Int.log 2 right := by
      have power := Int.lt_zpow_succ_log_self (b := 2) (by norm_num) left
      have exponents : Int.log 2 left + 1 ≤ Int.log 2 right := by
        omega
      have powers : (2 : ℚ) ^ (Int.log 2 left + 1) ≤ 2 ^ Int.log 2 right :=
        zpow_le_zpow_right₀ (by norm_num) exponents
      push_cast at power
      linarith
    have reached : (2 : ℚ) ^ Int.log 2 right ≤ right := by
      exact_mod_cast Int.zpow_log_le_self (b := 2) (by norm_num) larger
    calc
      format.nearest left ≤ 2 ^ Int.log 2 right := by
        rw [isAbove]
        exact nearest_le_multiple (isAbove ▸ between)
      _ ≤ format.nearest right := by
        rw [isBelow]
        exact multiple_le_nearest (isBelow ▸ reached)
  · have quotients : left / 2 ^ format.lastBit left ≤
        right / 2 ^ format.lastBit right := by
      rw [same]
      exact div_le_div_of_nonneg_right le (two_zpow_pos _).le
    rw [nearest, nearest, same]
    rw [same] at quotients
    exact mul_le_mul_of_nonneg_right
      (by exact_mod_cast roundEven_mono quotients) (two_zpow_pos _).le

/-- A number of the format is its own rounding. -/
theorem nearest_of_holds (holds : format.Holds value) :
    format.nearest value = value := by
  obtain ⟨mantissa, exponent, small, least, isValue⟩ := holds
  rcases eq_or_ne mantissa 0 with rfl | nonzero
  · simp [isValue]
  have magnitude : |value| = |mantissa| * 2 ^ exponent := by
    rw [isValue, abs_mul, abs_of_pos (two_zpow_pos exponent)]
    norm_cast
  have positive : 0 < |value| := by
    rw [magnitude]
    exact mul_pos (by exact_mod_cast abs_pos.mpr nonzero) (two_zpow_pos _)
  rcases small.lt_or_eq with below | power
  · have bit : format.lastBit value ≤ exponent := by
      have bound : |value| < ((2 : ℕ) : ℚ) ^ (exponent + format.precision) := by
        rw [magnitude, Nat.cast_ofNat, zpow_add₀ (by norm_num), mul_comm,
          zpow_natCast]
        exact mul_lt_mul_of_pos_left (by exact_mod_cast below) (two_zpow_pos _)
      have log := (Int.lt_zpow_iff_log_lt (by norm_num) positive).mp bound
      unfold lastBit
      omega
    obtain ⟨factor, isFactor⟩ := exists_mul_two_zpow bit
    apply @nearest_of_multiple _ _ (mantissa * factor)
    rw [isFactor] at isValue
    rw [Int.cast_mul, mul_assoc]
    exact isValue
  · have bit : format.lastBit value ≤ exponent + format.precision := by
      have bound : |value| < ((2 : ℕ) : ℚ) ^ (exponent + format.precision + 1) := by
        rw [magnitude, power]
        push_cast
        rw [zpow_add_one₀ (by norm_num), zpow_add₀ (by norm_num), zpow_natCast]
        have product := mul_pos (two_zpow_pos exponent)
          (pow_pos (two_pos (α := ℚ)) format.precision)
        linarith
      have log := (Int.lt_zpow_iff_log_lt (by norm_num) positive).mp bound
      have precise := format.positive
      unfold lastBit
      omega
    obtain ⟨factor, isFactor⟩ := exists_mul_two_zpow bit
    have whole : |value| = factor * 2 ^ format.lastBit value := by
      rw [magnitude, power, ← isFactor, zpow_add₀ (by norm_num), mul_comm,
        zpow_natCast]
      norm_cast
    rcases abs_choice value with isPos | isNeg
    · apply @nearest_of_multiple _ _ factor
      rw [← whole, isPos]
    · apply @nearest_of_multiple _ _ (-factor)
      push_cast
      rw [neg_mul, ← whole, isNeg, neg_neg]

theorem holds_nearest (value : ℚ) : format.Holds (format.nearest value) := by
  refine ⟨_, _, ?_, le_max_left _ _, rfl⟩
  have bound : |value / 2 ^ format.lastBit value| < 2 ^ format.precision := by
    rw [abs_div, abs_of_pos (two_zpow_pos _), div_lt_iff₀ (two_zpow_pos _),
      ← zpow_natCast, ← zpow_add₀ (by norm_num)]
    have power := Int.lt_zpow_succ_log_self (b := 2) (by norm_num) |value|
    have exponents : Int.log 2 |value| + 1 ≤
        format.precision + format.lastBit value := by
      unfold lastBit
      omega
    have powers : (2 : ℚ) ^ (Int.log 2 |value| + 1) ≤
        2 ^ (format.precision + format.lastBit value) :=
      zpow_le_zpow_right₀ (by norm_num) exponents
    push_cast at power
    linarith
  rw [abs_lt] at bound
  have low : -(2 : ℤ) ^ format.precision ≤
      ⌊value / 2 ^ format.lastBit value⌋ := by
    rw [Int.le_floor]
    push_cast
    exact bound.1.le
  have high : ⌊value / 2 ^ format.lastBit value⌋ < (2 : ℤ) ^ format.precision := by
    rw [Int.floor_lt]
    push_cast
    exact bound.2
  have above := floor_le_roundEven (value / 2 ^ format.lastBit value)
  have below := roundEven_le (value / 2 ^ format.lastBit value)
  rw [abs_le]
  constructor <;> omega

/-! ## Numbers -/

/-- A finite number of the format, by its value. -/
@[ext] structure Number (format : BinaryFormat) where
  value : ℚ
  holds : format.Holds value

namespace Number

/-- The nearest number. -/
def ofRat (value : ℚ) : format.Number where
  value := format.nearest value
  holds := holds_nearest value

/-- `as f32`, and `as f64`. -/
def ofNat (count : Nat) : format.Number :=
  ofRat count

def sub (left right : format.Number) : format.Number :=
  ofRat (left.value - right.value)

def mul (left right : format.Number) : format.Number :=
  ofRat (left.value * right.value)

def div (left right : format.Number) : format.Number :=
  ofRat (left.value / right.value)

def clamp (number low high : format.Number) : format.Number :=
  if number.value < low.value then low
  else if high.value < number.value then high
  else number

/-- `.floor() as usize`, of what is below the largest `usize`. -/
def floorUsize (number : format.Number) : Nat :=
  ⌊number.value⌋.toNat

/-- `.round() as usize`. -/
def roundUsize (number : format.Number) : Nat :=
  (round number.value).toNat

theorem clamp_of_between {number low high : format.Number}
    (above : low.value ≤ number.value) (below : number.value ≤ high.value) :
    number.clamp low high = number := by
  rw [clamp, if_neg above.not_gt, if_neg below.not_gt]

end Number

theorem holds_natCast {count : Nat} (small : count ≤ 2 ^ format.precision)
    (least : format.least ≤ 0) : format.Holds count := by
  refine ⟨count, 0, ?_, least, by simp⟩
  rw [Nat.abs_cast]
  exact_mod_cast small

theorem nearest_le {limit : ℚ} (holds : format.Holds limit) (nonneg : 0 ≤ value)
    (le : value ≤ limit) : format.nearest value ≤ limit := by
  rw [← nearest_of_holds holds]
  exact nearest_mono nonneg le

theorem le_nearest {limit : ℚ} (holds : format.Holds limit) (nonneg : 0 ≤ limit)
    (le : limit ≤ value) : limit ≤ format.nearest value := by
  rw [← nearest_of_holds holds]
  exact nearest_mono nonneg le

end BinaryFormat

end TrustLayer.Library
