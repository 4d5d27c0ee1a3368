import TrustLayer.Library.Text
import Mathlib.Data.UInt

/-!
# Big-endian integers and hexadecimal text
-/

namespace TrustLayer.Library

/-- `u64::to_be_bytes`. -/
def beBytes (value : UInt64) : List UInt8 :=
  [56, 48, 40, 32, 24, 16, 8, 0].map fun shift =>
    UInt8.ofNat (value.toNat / 2 ^ shift)

@[simp] theorem beBytes_length (value : UInt64) : (beBytes value).length = 8 :=
  rfl

/-- A number is determined by its digits to base 256. -/
theorem eq_of_digits {width left right : Nat} (leftBound : left < 256 ^ width)
    (rightBound : right < 256 ^ width)
    (same : ∀ place < width,
      left / 256 ^ place % 256 = right / 256 ^ place % 256) :
    left = right := by
  induction width generalizing left right with
  | zero => omega
  | succ width induction =>
      have lowest : left % 256 = right % 256 := by
        simpa using same 0 (Nat.succ_pos _)
      rw [Nat.pow_succ'] at leftBound rightBound
      have others : left / 256 = right / 256 := by
        refine induction (Nat.div_lt_of_lt_mul leftBound)
          (Nat.div_lt_of_lt_mul rightBound) fun place below => ?_
        rw [Nat.div_div_eq_div_mul, Nat.div_div_eq_div_mul, ← Nat.pow_succ']
        exact same (place + 1) (Nat.succ_lt_succ below)
      omega

theorem beBytes_injective : Function.Injective beBytes := by
  intro left right same
  have digit : ∀ {first second : Nat}, UInt8.ofNat first = UInt8.ofNat second →
      first % 256 = second % 256 := by
    intro first second equal
    simpa using congrArg UInt8.toNat equal
  simp only [beBytes, List.map_cons, List.map_nil, List.cons.injEq,
    and_true] at same
  obtain ⟨h7, h6, h5, h4, h3, h2, h1, h0⟩ := same
  refine UInt64.toNat_inj.mp
    (@eq_of_digits 8 _ _ left.toNat_lt right.toNat_lt fun place below => ?_)
  match place, below with
  | 0, _ => exact digit h0
  | 1, _ => exact digit h1
  | 2, _ => exact digit h2
  | 3, _ => exact digit h3
  | 4, _ => exact digit h4
  | 5, _ => exact digit h5
  | 6, _ => exact digit h6
  | 7, _ => exact digit h7

/-- A lower-case hexadecimal digit. -/
def hexDigit (value : Nat) : Char :=
  if value < 10 then Char.ofNat (value + '0'.toNat)
  else Char.ofNat (value - 10 + 'a'.toNat)

/-- `{:02x}` of every byte. -/
def toHex (bytes : List UInt8) : Str :=
  bytes.flatMap fun byte =>
    [hexDigit (byte.toNat / 16), hexDigit (byte.toNat % 16)]

theorem hexDigit_inj {left right : Nat} (leftDigit : left < 16)
    (rightDigit : right < 16) (same : hexDigit left = hexDigit right) :
    left = right := by
  have table : ∀ first second : Fin 16,
      hexDigit first = hexDigit second → first = second := by decide
  simpa using table ⟨left, leftDigit⟩ ⟨right, rightDigit⟩ same

theorem hexDigit_ascii {value : Nat} (digit : value < 16) :
    (hexDigit value).toNat < 128 := by
  revert value
  decide

theorem toHex_injective : Function.Injective toHex := by
  intro left
  induction left with
  | nil =>
      intro right same
      cases right with
      | nil => rfl
      | cons byte right => simp [toHex] at same
  | cons byte left induction =>
      intro right same
      cases right with
      | nil => simp [toHex] at same
      | cons other right =>
          simp only [toHex, List.flatMap_cons, List.cons_append,
            List.nil_append, List.cons.injEq] at same
          obtain ⟨high, low, rest⟩ := same
          have byteBound := byte.toNat_lt
          have otherBound := other.toNat_lt
          have sameHigh := hexDigit_inj (by omega) (by omega) high
          have sameLow := hexDigit_inj (by omega) (by omega) low
          have sameByte : byte = other := by
            apply UInt8.toNat_inj.mp
            omega
          rw [sameByte, induction rest]

theorem toHex_length (bytes : List UInt8) :
    (toHex bytes).length = 2 * bytes.length := by
  induction bytes with
  | nil => rfl
  | cons byte bytes induction =>
      simp only [toHex, List.flatMap_cons, List.length_append,
        List.length_cons, List.length_nil] at induction ⊢
      omega

theorem toHex_ascii (bytes : List UInt8) : IsAscii (toHex bytes) := by
  intro char member
  simp only [toHex, List.mem_flatMap, List.mem_cons, List.not_mem_nil,
    or_false] at member
  obtain ⟨byte, -, rfl | rfl⟩ := member
  · exact hexDigit_ascii (by have := byte.toNat_lt; omega)
  · exact hexDigit_ascii (by omega)

/-- An ASCII text takes one byte for each character. -/
theorem utf8Bytes_length_of_ascii {text : Str} (ascii : IsAscii text) :
    (utf8Bytes text).length = text.length := by
  have bytes := congrArg List.length (asBytes_of_ascii ascii)
  simpa [asBytes] using bytes

end TrustLayer.Library
