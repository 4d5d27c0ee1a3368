import Mathlib.Data.List.TakeWhile
import Mathlib.Data.Nat.Digits.Lemmas
import Mathlib.Data.UInt

/-!
# Positional numerals

A numeral is a list of digits with the highest one first.  A change of the base
keeps the number and the leading zeros.
-/

namespace TrustLayer.Library

namespace Radix

/-- The number that a numeral denotes. -/
def value (base : Nat) (digits : List Nat) : Nat :=
  Nat.ofDigits base digits.reverse

/-- The numeral without leading zeros; the one of zero is empty. -/
def numeral (base number : Nat) : List Nat :=
  (Nat.digits base number).reverse

def leadingZeros (digits : List Nat) : Nat :=
  (digits.takeWhile fun digit => digit = 0).length

def rebase (source target : Nat) (digits : List Nat) : List Nat :=
  List.replicate (leadingZeros digits) 0 ++ numeral target (value source digits)

def Valid (base : Nat) (digits : List Nat) : Prop :=
  ∀ digit ∈ digits, digit < base

variable {base number : Nat} {digits left right : List Nat}

@[simp] theorem value_nil : value base [] = 0 := rfl

theorem value_append : value base (left ++ right) =
    value base left * base ^ right.length + value base right := by
  rw [value, List.reverse_append, Nat.ofDigits_append, List.length_reverse]
  simp only [value]
  ring

theorem value_concat (digits : List Nat) (last : Nat) :
    value base (digits ++ [last]) = value base digits * base + last := by
  rw [value_append]
  simp [value]

theorem value_cons (first : Nat) (digits : List Nat) :
    value base (first :: digits) =
      first * base ^ digits.length + value base digits := by
  rw [← List.singleton_append, value_append]
  simp [value]

@[simp] theorem value_replicate_zero_append (count : Nat) :
    value base (List.replicate count 0 ++ digits) = value base digits := by
  rw [value, List.reverse_append, List.reverse_replicate,
    Nat.ofDigits_append_replicate_zero, value]

theorem value_lt (proper : 1 < base) (valid : Valid base digits) :
    value base digits < base ^ digits.length := by
  have bound := Nat.ofDigits_lt_base_pow_length proper
    (l := digits.reverse) fun digit member =>
      valid digit (List.mem_reverse.mp member)
  simpa [value] using bound

/-- Numerals of one length are told apart by their numbers. -/
theorem eq_of_value_eq (proper : 1 < base) (leftValid : Valid base left)
    (rightValid : Valid base right) (length : left.length = right.length)
    (same : value base left = value base right) : left = right := by
  apply List.reverse_injective
  refine Nat.ofDigits_inj_of_len_eq proper (by simpa using length) ?_ ?_ same
  · intro digit member
    exact leftValid digit (List.mem_reverse.mp member)
  · intro digit member
    exact rightValid digit (List.mem_reverse.mp member)

@[simp] theorem value_numeral : value base (numeral base number) = number := by
  rw [value, numeral, List.reverse_reverse, Nat.ofDigits_digits]

theorem numeral_valid (proper : 1 < base) : Valid base (numeral base number) :=
  fun _ member => Nat.digits_lt_base proper (List.mem_reverse.mp member)

/-- The numeral of a value is the numeral itself, where the first digit is
something. -/
theorem numeral_value (proper : 1 < base) (valid : Valid base digits)
    (first : ∀ digit ∈ digits.head?, digit ≠ 0) :
    numeral base (value base digits) = digits := by
  rw [numeral, value, Nat.digits_ofDigits base proper, List.reverse_reverse]
  · intro digit member
    exact valid digit (List.mem_reverse.mp member)
  · intro nonempty
    rw [List.getLast_reverse]
    exact first _ (List.head?_eq_some_head _)

theorem head_numeral (digit : Nat) (head : digit ∈ (numeral base number).head?) :
    digit ≠ 0 := by
  rw [numeral, List.head?_reverse] at head
  obtain ⟨nonempty, rfl⟩ := List.mem_getLast?_eq_getLast head
  exact Nat.getLast_digit_ne_zero base
    (Nat.digits_ne_nil_iff_ne_zero.mp nonempty)

theorem numeral_length {count : Nat} (proper : 1 < base)
    (low : base ^ count ≤ number) (high : number < base ^ (count + 1)) :
    (numeral base number).length = count + 1 := by
  have nonzero : number ≠ 0 :=
    Nat.ne_of_gt (lt_of_lt_of_le (Nat.pow_pos (by omega)) low)
  rw [numeral, List.length_reverse, Nat.length_digits base number proper nonzero,
    (Nat.log_eq_iff (.inr ⟨proper, nonzero⟩)).mpr ⟨low, high⟩]

theorem numeral_length_le {count : Nat} (proper : 1 < base)
    (high : number < base ^ count) : (numeral base number).length ≤ count := by
  rw [numeral, List.length_reverse]
  exact (Nat.digits_length_le_iff proper number).mpr high

/-! ## Leading zeros -/

theorem dropWhile_zero_head (digit : Nat)
    (head : digit ∈ (digits.dropWhile fun digit => digit = 0).head?) :
    digit ≠ 0 := by
  have kept := List.head?_dropWhile_not (fun digit => decide (digit = 0)) digits
  rw [Option.mem_def.mp head] at kept
  simpa using kept

theorem replicate_leadingZeros (digits : List Nat) :
    List.replicate (leadingZeros digits) 0 ++
      digits.dropWhile (fun digit => digit = 0) = digits := by
  have zeros : digits.takeWhile (fun digit => decide (digit = 0)) =
      List.replicate (leadingZeros digits) 0 := by
    refine List.eq_replicate_iff.mpr ⟨rfl, fun digit member => ?_⟩
    simpa using List.mem_takeWhile_imp member
  rw [← zeros, List.takeWhile_append_dropWhile]

/-- A numeral is its leading zeros and the numeral of its number. -/
theorem eq_replicate_append (proper : 1 < base) (valid : Valid base digits) :
    List.replicate (leadingZeros digits) 0 ++ numeral base (value base digits) =
      digits := by
  have whole := replicate_leadingZeros digits
  have behind : numeral base (value base digits) =
      digits.dropWhile fun digit => digit = 0 := by
    rw [← whole, value_replicate_zero_append, whole]
    refine numeral_value proper (fun digit member => ?_) dropWhile_zero_head
    exact valid digit ((List.dropWhile_sublist _).subset member)
  rw [behind, whole]

theorem leadingZeros_replicate_append (count : Nat) :
    leadingZeros (List.replicate count 0 ++ numeral base number) = count := by
  have none : (numeral base number).takeWhile (fun digit => decide (digit = 0)) =
      [] := by
    cases same : numeral base number with
    | nil => rfl
    | cons first rest =>
        have nonzero : first ≠ 0 := head_numeral first (by rw [same]; rfl)
        simp [nonzero]
  rw [leadingZeros, List.takeWhile_append_of_pos (by simp), none]
  simp

theorem rebase_valid {source target : Nat} (proper : 1 < target) :
    Valid target (rebase source target digits) := by
  intro digit member
  rcases List.mem_append.mp member with zero | high
  · rw [List.eq_of_mem_replicate zero]
    omega
  · exact numeral_valid proper digit high

/-- The way back gives the numeral again. -/
theorem rebase_rebase {source target : Nat} (proper : 1 < source)
    (valid : Valid source digits) :
    rebase target source (rebase source target digits) = digits := by
  rw [rebase, rebase, leadingZeros_replicate_append,
    value_replicate_zero_append, value_numeral,
    eq_replicate_append proper valid]

end Radix

/-! ## Bytes -/

/-- The number of big-endian bytes. -/
def bytesValue (bytes : List UInt8) : Nat :=
  Radix.value 256 (bytes.map UInt8.toNat)

/-- The least big-endian bytes of a number; zero has none. -/
def valueBytes (number : Nat) : List UInt8 :=
  (Radix.numeral 256 number).map UInt8.ofNat

/-- The last big-endian bytes of a number, as many as the width says. -/
def fixedBytes : (width : Nat) → Nat → List UInt8
  | 0, _ => []
  | width + 1, number =>
      fixedBytes width (number / 256) ++ [UInt8.ofNat number]

variable {bytes left right : List UInt8} {width number : Nat}

theorem toNat_ofNat_byte (byte : number < 256) :
    (UInt8.ofNat number).toNat = number :=
  UInt8.toNat_ofNat_of_lt byte

theorem toNat_valid (bytes : List UInt8) :
    Radix.Valid 256 (bytes.map UInt8.toNat) := by
  intro digit member
  obtain ⟨byte, -, rfl⟩ := List.mem_map.mp member
  exact byte.toNat_lt

theorem map_ofNat_toNat (bytes : List UInt8) :
    (bytes.map UInt8.toNat).map UInt8.ofNat = bytes := by
  rw [List.map_map, List.map_congr_left (g := id) fun byte _ => by simp,
    List.map_id]

theorem map_toNat_ofNat {digits : List Nat} (valid : Radix.Valid 256 digits) :
    (digits.map UInt8.ofNat).map UInt8.toNat = digits := by
  rw [List.map_map, List.map_congr_left (g := id), List.map_id]
  intro digit member
  exact toNat_ofNat_byte (valid digit member)

@[simp] theorem bytesValue_nil : bytesValue [] = 0 := rfl

theorem bytesValue_append : bytesValue (left ++ right) =
    bytesValue left * 256 ^ right.length + bytesValue right := by
  rw [bytesValue, List.map_append, Radix.value_append, List.length_map]
  rfl

theorem bytesValue_cons (first : UInt8) (bytes : List UInt8) :
    bytesValue (first :: bytes) =
      first.toNat * 256 ^ bytes.length + bytesValue bytes := by
  rw [bytesValue, List.map_cons, Radix.value_cons, List.length_map]
  rfl

theorem bytesValue_concat (bytes : List UInt8) (last : UInt8) :
    bytesValue (bytes ++ [last]) = bytesValue bytes * 256 + last.toNat := by
  rw [bytesValue, List.map_append]
  exact Radix.value_concat _ _

theorem bytesValue_replicate_zero_append (count : Nat) :
    bytesValue (List.replicate count 0 ++ bytes) = bytesValue bytes := by
  rw [bytesValue, List.map_append, List.map_replicate]
  exact Radix.value_replicate_zero_append count

theorem bytesValue_lt (bytes : List UInt8) :
    bytesValue bytes < 256 ^ bytes.length := by
  simpa [bytesValue] using Radix.value_lt (by omega) (toNat_valid bytes)

theorem eq_of_bytesValue_eq (length : left.length = right.length)
    (same : bytesValue left = bytesValue right) : left = right := by
  have digits := Radix.eq_of_value_eq (by omega) (toNat_valid left)
    (toNat_valid right) (by simpa using length) same
  rw [← map_ofNat_toNat left, digits, map_ofNat_toNat]

@[simp] theorem bytesValue_valueBytes (number : Nat) :
    bytesValue (valueBytes number) = number := by
  rw [bytesValue, valueBytes,
    map_toNat_ofNat (Radix.numeral_valid (by omega)), Radix.value_numeral]

theorem valueBytes_length_le (high : number < 256 ^ width) :
    (valueBytes number).length ≤ width := by
  rw [valueBytes, List.length_map]
  exact Radix.numeral_length_le (by omega) high

@[simp] theorem fixedBytes_length (width number : Nat) :
    (fixedBytes width number).length = width := by
  induction width generalizing number with
  | zero => rfl
  | succ width induction => simp [fixedBytes, induction]

@[simp] theorem bytesValue_fixedBytes (width number : Nat) :
    bytesValue (fixedBytes width number) = number % 256 ^ width := by
  induction width generalizing number with
  | zero => simp [fixedBytes, Nat.mod_one]
  | succ width induction =>
      have last : (UInt8.ofNat number).toNat = number % 256 := by simp
      rw [fixedBytes, bytesValue_concat, induction, last, Nat.pow_succ',
        Nat.mod_mul]
      ring

end TrustLayer.Library
