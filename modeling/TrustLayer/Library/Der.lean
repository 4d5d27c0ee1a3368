import TrustLayer.Library.Radix

/-!
# Distinguished encoding

An element is an identifier octet, a length in its least definite form, and the
value.  The reader takes the least form only.
-/

namespace TrustLayer.Library.Der

/-- The least definite form of a length. -/
def lengthField (length : Nat) : List UInt8 :=
  if length < 128 then [UInt8.ofNat length]
  else
    let bytes := valueBytes length
    UInt8.ofNat (128 + bytes.length) :: bytes

def encode (tag : UInt8) (value : List UInt8) : List UInt8 :=
  tag :: lengthField value.length ++ value

/-- The identifier is a single octet. -/
def LowTag (tag : UInt8) : Prop :=
  tag.toNat % 32 ≠ 31

instance (tag : UInt8) : Decidable (LowTag tag) :=
  inferInstanceAs (Decidable (tag.toNat % 32 ≠ 31))

/-- A definite length in any form, least or not. -/
inductive Definite : (length : Nat) → List UInt8 → Prop where
  | short {length : Nat} (small : length < 128) :
      Definite length [UInt8.ofNat length]
  | long {bytes : List UInt8} (nonempty : bytes ≠ [])
      (few : bytes.length < 127) :
      Definite (bytesValue bytes) (UInt8.ofNat (128 + bytes.length) :: bytes)

def readValue (tag : UInt8) (length : Nat) (rest : List UInt8) :
    Option (UInt8 × List UInt8 × List UInt8) :=
  if length ≤ rest.length then some (tag, rest.take length, rest.drop length)
  else none

/-- The first element, as its tag and value, and what is behind it. -/
def read : List UInt8 → Option (UInt8 × List UInt8 × List UInt8)
  | tag :: first :: rest =>
      if ¬ LowTag tag then none
      else if first.toNat < 128 then readValue tag first.toNat rest
      else
        let count := first.toNat - 128
        let bytes := rest.take count
        if count = 127 ∨ rest.length < count ∨ bytes.head? = some 0 ∨
            bytesValue bytes < 128 then none
        else readValue tag (bytesValue bytes) (rest.drop count)
  | _ => none

/-! ## Integers -/

/-- The least octets of a number as an INTEGER. -/
def integerBytes (number : Nat) : List UInt8 :=
  match valueBytes number with
  | [] => [0]
  | first :: rest =>
      if first.toNat < 128 then first :: rest else 0 :: first :: rest

def integer (number : Nat) : List UInt8 :=
  encode 0x02 (integerBytes number)

/-- The octets of an INTEGER, read in two's complement. -/
def signed (bytes : List UInt8) : Int :=
  match bytes with
  | [] => 0
  | first :: rest =>
      if first.toNat < 128 then bytesValue (first :: rest)
      else bytesValue (first :: rest) - 256 ^ (rest.length + 1)

example : encode 0x30 (integer 128 ++ integer 3) =
    [0x30, 7, 2, 2, 0, 128, 2, 1, 3] := by
  decide

/-! ## Length fields -/

variable {tag : UInt8} {value rest bytes : List UInt8} {length number : Nat}

theorem valueBytes_head (byte : UInt8)
    (head : byte ∈ (valueBytes number).head?) : byte ≠ 0 := by
  rw [valueBytes, List.head?_map] at head
  obtain ⟨digit, found, rfl⟩ := Option.map_eq_some_iff.mp head
  have bound : digit < 256 := Radix.numeral_valid (by omega) digit
    (List.mem_of_mem_head? found)
  have nonzero := Radix.head_numeral digit found
  have back := toNat_ofNat_byte bound
  intro zero
  rw [zero] at back
  exact nonzero back.symm

theorem valueBytes_ne_nil (positive : 0 < number) : valueBytes number ≠ [] := by
  intro empty
  have zero := bytesValue_valueBytes number
  rw [empty, bytesValue_nil] at zero
  omega

/-- Bytes without a leading zero are those of their number. -/
theorem valueBytes_bytesValue (first : ∀ byte ∈ bytes.head?, byte ≠ 0) :
    valueBytes (bytesValue bytes) = bytes := by
  rw [valueBytes, bytesValue, Radix.numeral_value (by omega) (toNat_valid bytes),
    map_ofNat_toNat]
  intro digit head
  rw [List.head?_map] at head
  obtain ⟨byte, found, rfl⟩ := Option.map_eq_some_iff.mp head
  exact fun zero => first byte found (UInt8.toNat_inj.mp zero)

theorem lengthField_of_lt (small : length < 128) :
    lengthField length = [UInt8.ofNat length] :=
  if_pos small

theorem lengthField_of_le (large : 128 ≤ length) :
    lengthField length =
      UInt8.ofNat (128 + (valueBytes length).length) :: valueBytes length :=
  if_neg (Nat.not_lt_of_le large)

theorem encode_length_of_lt (short : value.length < 128) :
    (encode tag value).length = 2 + value.length := by
  rw [encode, lengthField_of_lt short, List.length_append, List.length_cons,
    List.length_singleton]

/-! ## The reader takes what is encoded -/

theorem readValue_append : readValue tag value.length (value ++ rest) =
    some (tag, value, rest) := by
  rw [readValue, if_pos (by simp), List.take_left, List.drop_left]

theorem readValue_eq_some
    (found : readValue tag length bytes = some (tag, value, rest)) :
    length = value.length ∧ bytes = value ++ rest := by
  unfold readValue at found
  split_ifs at found with inside
  obtain ⟨-, pair⟩ := Prod.mk.inj (Option.some.inj found)
  obtain ⟨rfl, rfl⟩ := Prod.mk.inj pair
  exact ⟨(List.length_take_of_le inside).symm,
    (List.take_append_drop length bytes).symm⟩

theorem readValue_tag {other : UInt8}
    (found : readValue tag length bytes = some (other, value, rest)) :
    tag = other := by
  unfold readValue at found
  split_ifs at found
  exact (Prod.mk.inj (Option.some.inj found)).1

theorem toNat_ofNat_long {count : Nat} (few : count < 127) :
    (UInt8.ofNat (128 + count)).toNat = 128 + count :=
  toNat_ofNat_byte (by omega)

theorem read_encode (low : LowTag tag)
    (few : (valueBytes value.length).length < 127) :
    read (encode tag value ++ rest) = some (tag, value, rest) := by
  by_cases small : value.length < 128
  · have byte : (UInt8.ofNat value.length).toNat = value.length :=
      toNat_ofNat_byte (by omega)
    rw [encode, lengthField_of_lt small, List.cons_append, List.cons_append,
      List.singleton_append, List.cons_append, read, if_neg (not_not.mpr low),
      byte, if_pos small, readValue_append]
  · have large := Nat.le_of_not_lt small
    have first := toNat_ofNat_long few
    have whole : encode tag value ++ rest =
        tag :: UInt8.ofNat (128 + (valueBytes value.length).length) ::
          (valueBytes value.length ++ (value ++ rest)) := by
      simp [encode, lengthField_of_le large]
    rw [whole, read, if_neg (not_not.mpr low), first, if_neg (by omega),
      Nat.add_sub_cancel_left]
    simp only [List.take_left, List.drop_left, bytesValue_valueBytes]
    rw [if_neg, readValue_append]
    rintro (long | short | zero | least)
    · omega
    · rw [List.length_append] at short
      omega
    · exact valueBytes_head 0 zero rfl
    · exact small least

theorem eq_encode_of_read (found : read bytes = some (tag, value, rest)) :
    LowTag tag ∧ bytes = encode tag value ++ rest := by
  match bytes, found with
  | identifier :: first :: behind, found =>
      rw [read] at found
      by_cases low : LowTag identifier
      · rw [if_neg (not_not.mpr low)] at found
        by_cases small : first.toNat < 128
        · rw [if_pos small] at found
          obtain rfl := readValue_tag found
          obtain ⟨length, rfl⟩ := readValue_eq_some found
          refine ⟨low, ?_⟩
          rw [encode, lengthField_of_lt (length ▸ small), ← length,
            UInt8.ofNat_toNat]
          rfl
        · rw [if_neg small] at found
          simp only at found
          split_ifs at found with least
          obtain ⟨-, notShort, notZero, notSmall⟩ := by
            simpa only [not_or] using least
          obtain rfl := readValue_tag found
          obtain ⟨length, same⟩ := readValue_eq_some found
          have count : (behind.take (first.toNat - 128)).length =
              first.toNat - 128 :=
            List.length_take_of_le (Nat.le_of_not_lt notShort)
          have field : valueBytes value.length =
              behind.take (first.toNat - 128) := by
            rw [← length]
            refine valueBytes_bytesValue fun byte head zero => notZero ?_
            rw [Option.mem_def.mp head, zero]
          have octet : 128 + (first.toNat - 128) = first.toNat := by omega
          refine ⟨low, ?_⟩
          rw [encode, lengthField_of_le (length ▸ Nat.le_of_not_lt notSmall),
            field, count, octet, UInt8.ofNat_toNat, List.cons_append,
            List.cons_append, List.append_assoc, ← same, List.cons_append,
            List.take_append_drop]
      · rw [if_pos low] at found
        cases found

/-! ## The octets of an INTEGER -/

/-- A zero byte in front keeps the sign. -/
theorem integerBytes_cases (number : Nat) :
    (∃ first rest, integerBytes number = first :: rest ∧ first.toNat < 128) ∧
      (integerBytes number = valueBytes number ∨
        integerBytes number = 0 :: valueBytes number) := by
  unfold integerBytes
  split
  next empty =>
    rw [empty]
    exact ⟨⟨0, [], rfl, by decide⟩, .inr rfl⟩
  next first rest same =>
    rw [same]
    split_ifs with small
    · exact ⟨⟨first, rest, rfl, small⟩, .inl rfl⟩
    · exact ⟨⟨0, first :: rest, rfl, by decide⟩, .inr rfl⟩

theorem integerBytes_length_le (number : Nat) :
    (integerBytes number).length ≤ (valueBytes number).length + 1 := by
  rcases (integerBytes_cases number).2 with same | same
  · rw [same]
    exact Nat.le_succ _
  · rw [same, List.length_cons]

end TrustLayer.Library.Der
