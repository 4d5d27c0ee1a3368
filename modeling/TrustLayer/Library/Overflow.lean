import Mathlib.Algebra.Group.Nat.Defs
import Mathlib.Algebra.Order.Group.Int
import Mathlib.Algebra.Order.Group.Unbundled.Int

/-!
# Signed arithmetic that overflows

A result that does not fit stops a checked build, and wraps around in an
unchecked one.
-/

namespace TrustLayer.Library

/-- Whether the overflow checks of the compiler are on. -/
inductive Profile where
  | dev
  | release
  deriving DecidableEq

def FitsI64 (value : Int) : Prop :=
  -2 ^ 63 ≤ value ∧ value < 2 ^ 63

instance (value : Int) : Decidable (FitsI64 value) :=
  inferInstanceAs (Decidable (-2 ^ 63 ≤ value ∧ value < 2 ^ 63))

namespace Profile

/-- The `i64` of a result; none is the panic. -/
def i64 (profile : Profile) (value : Int) : Option Int :=
  if FitsI64 value then some value
  else
    match profile with
    | .dev => none
    | .release => some (value.bmod (2 ^ 64))

/-- `(left - right).abs()`. -/
def absDiff (profile : Profile) (left right : Int) : Option Int := do
  let difference ← profile.i64 (left - right)
  profile.i64 |difference|

example : Profile.release.absDiff (2 ^ 62) (-2 ^ 62) = some (-2 ^ 63) ∧
    Profile.release.absDiff (2 ^ 63 - 1) (-2 ^ 63) = some 1 := by
  decide

variable {profile : Profile} {left right : Int}

theorem i64_of_fits {value : Int} (fits : FitsI64 value) :
    profile.i64 value = some value :=
  if_pos fits

theorem i64_release_of_high {value : Int} (high : 2 ^ 63 ≤ value)
    (below : value < 2 ^ 64) : release.i64 value = some (value - 2 ^ 64) := by
  have out : ¬ FitsI64 value := fun fits => absurd fits.2 (by omega)
  rw [i64, if_neg out, Int.bmod_def]
  congr 1
  omega

theorem i64_release_of_low {value : Int} (low : value < -2 ^ 63)
    (above : -2 ^ 64 < value) : release.i64 value = some (value + 2 ^ 64) := by
  have out : ¬ FitsI64 value := fun fits => absurd fits.1 (by omega)
  rw [i64, if_neg out, Int.bmod_def]
  congr 1
  omega

theorem absDiff_eq (profile : Profile) (left right : Int) :
    profile.absDiff left right =
      (profile.i64 (left - right)).bind fun difference =>
        profile.i64 |difference| := by
  rfl

theorem absDiff_of_lt (near : |left - right| < 2 ^ 63) :
    profile.absDiff left right = some |left - right| := by
  have bounds := abs_lt.mp near
  have nonneg := abs_nonneg (left - right)
  have difference : FitsI64 (left - right) := ⟨by omega, bounds.2⟩
  have distance : FitsI64 |left - right| := ⟨by omega, near⟩
  rw [absDiff_eq, i64_of_fits difference, Option.bind_some, i64_of_fits distance]

theorem absDiff_dev_of_le (far : 2 ^ 63 ≤ |left - right|) :
    dev.absDiff left right = none := by
  rw [absDiff_eq]
  by_cases fits : FitsI64 (left - right)
  · have out : ¬ FitsI64 |left - right| := fun small => absurd small.2 (by omega)
    rw [i64_of_fits fits, Option.bind_some, i64, if_neg out]
  · rw [i64, if_neg fits, Option.bind_none]

/-- The distance comes back small when it is almost the whole range. -/
theorem absDiff_release_of_le (far : 2 ^ 63 ≤ |left - right|)
    (bounded : |left - right| < 2 ^ 64) :
    release.absDiff left right =
      some (if |left - right| = 2 ^ 63 then -2 ^ 63
        else 2 ^ 64 - |left - right|) := by
  rw [absDiff_eq]
  have least : release.i64 (2 ^ 63) = some (-2 ^ 63) :=
    i64_release_of_high le_rfl (by omega)
  rcases le_or_gt 0 (left - right) with nonneg | negative
  · rw [abs_of_nonneg nonneg] at far bounded ⊢
    have wrapped : |left - right - 2 ^ 64| = 2 ^ 64 - (left - right) := by
      rw [abs_of_neg (by omega)]
      omega
    rw [i64_release_of_high far bounded, Option.bind_some, wrapped]
    split_ifs with middle
    · rw [middle]
      exact least
    · exact i64_of_fits ⟨by omega, by omega⟩
  · rw [abs_of_neg negative] at far bounded ⊢
    split_ifs with middle
    · have lowest : left - right = -2 ^ 63 := by omega
      rw [lowest, i64_of_fits ⟨le_rfl, by omega⟩, Option.bind_some]
      exact least
    · have wrapped : |left - right + 2 ^ 64| = 2 ^ 64 - -(left - right) := by
        rw [abs_of_pos (by omega)]
        omega
      rw [i64_release_of_low (by omega) (by omega), Option.bind_some, wrapped]
      exact i64_of_fits ⟨by omega, by omega⟩

end Profile

end TrustLayer.Library
