import TrustLayer.Library.Radix
import TrustLayer.Library.Text

/-!
# The base 58 of Bitcoin

Bytes are written in base 58, and each leading zero byte as a leading `1`.
-/

namespace TrustLayer.Library.Base58

def alphabet : List Char :=
  "123456789ABCDEFGHJKLMNPQRSTUVWXYZabcdefghijkmnopqrstuvwxyz".toList

def digitChar (digit : Nat) : Char :=
  alphabet.getD digit '1'

def charDigit (char : Char) : Option Nat :=
  alphabet.findIdx? fun other => other = char

def encode (bytes : List UInt8) : Str :=
  (Radix.rebase 256 58 (bytes.map UInt8.toNat)).map digitChar

def decode (text : Str) : Option (List UInt8) :=
  (text.mapM charDigit).map fun digits =>
    (Radix.rebase 58 256 digits).map UInt8.ofNat

example : encode [0, 0x51, 0x6b, 0x6f, 0xcd, 0x0f] = "1ABnLTmg".toList := by
  decide

theorem charDigit_digitChar {digit : Nat} (bound : digit < 58) :
    charDigit (digitChar digit) = some digit := by
  have table : ∀ digit : Fin 58, charDigit (digitChar digit) = some digit.val := by
    decide
  exact table ⟨digit, bound⟩

theorem charDigit_eq_some {char : Char} {digit : Nat}
    (found : charDigit char = some digit) :
    digit < 58 ∧ digitChar digit = char := by
  obtain ⟨bound, same, -⟩ := List.findIdx?_eq_some_iff_getElem.mp found
  refine ⟨bound, ?_⟩
  rw [digitChar, List.getD_eq_getElem?_getD, List.getElem?_eq_getElem bound]
  exact of_decide_eq_true same

theorem mapM_digitChar {digits : List Nat} (valid : Radix.Valid 58 digits) :
    (digits.map digitChar).mapM charDigit = some digits := by
  induction digits with
  | nil => rfl
  | cons digit digits induction =>
      have first := charDigit_digitChar (valid digit List.mem_cons_self)
      have rest := induction fun other member =>
        valid other (List.mem_cons_of_mem _ member)
      simp [first, rest]

theorem mapM_charDigit {text : Str} {digits : List Nat}
    (read : text.mapM charDigit = some digits) :
    Radix.Valid 58 digits ∧ digits.map digitChar = text := by
  induction text generalizing digits with
  | nil =>
      obtain rfl := Option.some.inj read
      exact ⟨nofun, rfl⟩
  | cons char text induction =>
      simp only [List.mapM_cons, Option.bind_eq_bind, Option.pure_def,
        Option.bind_eq_some_iff, Option.some.injEq] at read
      obtain ⟨digit, first, others, rest, rfl⟩ := read
      obtain ⟨bound, same⟩ := charDigit_eq_some first
      obtain ⟨valid, back⟩ := induction rest
      constructor
      · exact List.forall_mem_cons.mpr ⟨bound, valid⟩
      · rw [List.map_cons, same, back]

/-- A text is read as the bytes whose text it is. -/
theorem decode_eq_some_iff {text : Str} {bytes : List UInt8} :
    decode text = some bytes ↔ text = encode bytes := by
  constructor
  · intro decoded
    obtain ⟨digits, read, rfl⟩ := Option.map_eq_some_iff.mp decoded
    obtain ⟨valid, same⟩ := mapM_charDigit read
    rw [encode, map_toNat_ofNat (Radix.rebase_valid (by omega)),
      Radix.rebase_rebase (by omega) valid, same]
  · rintro rfl
    rw [decode, encode, mapM_digitChar (Radix.rebase_valid (by omega)),
      Option.map_some, Radix.rebase_rebase (by omega) (toNat_valid bytes),
      map_ofNat_toNat]

/-- The first byte fixes how long the text is, where a power of 58 lies between
its values. -/
theorem encode_length {first : UInt8} {rest : List UInt8} {count : Nat}
    (nonzero : first ≠ 0)
    (low : 58 ^ count ≤ first.toNat * 256 ^ rest.length)
    (high : (first.toNat + 1) * 256 ^ rest.length ≤ 58 ^ (count + 1)) :
    (encode (first :: rest)).length = count + 1 := by
  have digit : first.toNat ≠ 0 := fun zero =>
    nonzero (UInt8.toNat_inj.mp zero)
  have number := bytesValue_cons first rest
  have bound := bytesValue_lt rest
  rw [bytesValue] at number
  have zeros : Radix.leadingZeros ((first :: rest).map UInt8.toNat) = 0 := by
    simp [Radix.leadingZeros, digit]
  rw [encode, Radix.rebase, zeros, List.map_append, List.replicate_zero,
    List.map_nil, List.nil_append, List.length_map]
  refine Radix.numeral_length (by omega) ?_ ?_
  · rw [number]
    exact Nat.le_add_right_of_le low
  · rw [number]
    rw [Nat.add_mul, Nat.one_mul] at high
    exact lt_of_lt_of_le (Nat.add_lt_add_left bound _) high

end TrustLayer.Library.Base58
