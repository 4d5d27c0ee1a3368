import Mathlib.Algebra.Group.Nat.Defs
import TrustLayer.Library.Text

/-!
# Networks of addresses

A network is the set of the addresses that begin with the same bits.  A program
finds it with a mask.
-/

namespace TrustLayer.Library

/-- The addresses of `width` bits whose first `length` bits are those of the
base. -/
structure Subnet (width : Nat) where
  base : Nat
  length : Nat

namespace Subnet

variable {width : Nat} {net : Subnet width} {address : Nat}

/-- What a network has in common with an address. -/
def head (net : Subnet width) (address : Nat) : Nat :=
  address / 2 ^ (width - net.length)

def Contains (net : Subnet width) (address : Nat) : Prop :=
  net.head address = net.head net.base

instance (net : Subnet width) (address : Nat) : Decidable (net.Contains address) :=
  inferInstanceAs (Decidable (_ = _))

/-- The first bits of an address, followed by zeros. -/
theorem and_mask {clear : Nat} (fits : clear ≤ width)
    (inside : address < 2 ^ width) :
    address &&& (2 ^ width - 2 ^ clear) = address / 2 ^ clear * 2 ^ clear := by
  have mask : 2 ^ width - 2 ^ clear = (2 ^ (width - clear) - 1) * 2 ^ clear := by
    rw [Nat.sub_mul, ← Nat.pow_add, Nat.sub_add_cancel fits, Nat.one_mul]
  apply Nat.eq_of_testBit_eq
  intro place
  rw [mask, Nat.testBit_and, Nat.testBit_mul_two_pow, Nat.testBit_mul_two_pow,
    Nat.testBit_two_pow_sub_one, Nat.testBit_div_two_pow]
  by_cases low : clear ≤ place
  · rw [Nat.sub_add_cancel low]
    by_cases high : place < width
    · have within : place - clear < width - clear := by omega
      simp [low, within]
    · have none : address.testBit place = false := by
        apply Nat.testBit_lt_two_pow
        exact inside.trans_le (Nat.pow_le_pow_right (by decide) (by omega))
      simp [none]
  · simp [low]

/-- A mask tells whether an address is in a network. -/
theorem masked_eq_iff (inside : address < 2 ^ width)
    (aligned : 2 ^ (width - net.length) ∣ net.base) :
    address &&& (2 ^ width - 2 ^ (width - net.length)) = net.base ↔
      net.Contains address := by
  have positive : 0 < 2 ^ (width - net.length) := Nat.two_pow_pos _
  obtain ⟨block, isBlock⟩ := aligned
  rw [and_mask (Nat.sub_le _ _) inside, Contains, head, head, isBlock,
    Nat.mul_div_cancel_left _ positive, Nat.mul_comm]
  exact Nat.mul_right_inj (Nat.ne_of_gt positive)

end Subnet

end TrustLayer.Library
