import TrustLayer.Library.Der

/-!
# Wrapping a value again

The wrapping writes one byte or two for the length.  Two are not the least form
below 256, and do not hold a length from 65536 on.
-/

namespace TrustLayer.ThemisEvidence.Timestamp

open TrustLayer.Library

def wrapWithTag (tag : UInt8) (value : List UInt8) : List UInt8 :=
  let len := value.length
  let length :=
    if len < 128 then [UInt8.ofNat len]
    else [0x82, UInt8.ofNat (len >>> 8), UInt8.ofNat (len &&& 0xFF)]
  tag :: length ++ value

def wrapAsSequence (value : List UInt8) : List UInt8 :=
  wrapWithTag 0x30 value

variable {tag : UInt8} {value : List UInt8}

/-- The lengths whose least form is the one that is written. -/
def LeastForm (length : Nat) : Prop :=
  length < 128 ∨ 256 ≤ length ∧ length < 65536

instance (length : Nat) : Decidable (LeastForm length) :=
  inferInstanceAs (Decidable (_ ∨ _))

/-- What is expected of a wrapping. -/
structure IsDer (tag : UInt8) (value out : List UInt8) : Prop where
  least : out = Der.encode tag value
  back : Der.read out = some (tag, value, [])

theorem wrapWithTag_of_lt (short : value.length < 128) :
    wrapWithTag tag value = Der.encode tag value := by
  rw [wrapWithTag, Der.encode, Der.lengthField_of_lt short]
  simp only [if_pos short]

theorem valueBytes_two {length : Nat} (least : 256 ≤ length)
    (most : length < 65536) :
    valueBytes length =
      [UInt8.ofNat (length >>> 8), UInt8.ofNat (length &&& 0xFF)] := by
  have high : (UInt8.ofNat (length >>> 8)).toNat = length / 256 := by
    rw [Nat.shiftRight_eq_div_pow]
    exact toNat_ofNat_byte (by omega)
  have low : (UInt8.ofNat (length &&& 0xFF)).toNat = length % 256 := by
    rw [show 0xFF = 2 ^ 8 - 1 from rfl, Nat.and_two_pow_sub_one_eq_mod]
    exact toNat_ofNat_byte (by omega)
  have value : bytesValue
      [UInt8.ofNat (length >>> 8), UInt8.ofNat (length &&& 0xFF)] = length := by
    rw [bytesValue_cons, bytesValue_cons, high, low]
    simp
    omega
  have nonzero : ∀ byte ∈ [UInt8.ofNat (length >>> 8),
      UInt8.ofNat (length &&& 0xFF)].head?, byte ≠ 0 := by
    intro byte head zero
    obtain rfl : UInt8.ofNat (length >>> 8) = byte := Option.some.inj head
    rw [zero] at high
    change 0 = length / 256 at high
    omega
  have least' := Der.valueBytes_bytesValue nonzero
  rwa [value] at least'

theorem wrapWithTag_of_le (least : 256 ≤ value.length)
    (most : value.length < 65536) :
    wrapWithTag tag value = Der.encode tag value := by
  have large : ¬ value.length < 128 := by omega
  rw [wrapWithTag, Der.encode, Der.lengthField_of_le (by omega),
    valueBytes_two least most]
  simp only [if_neg large]
  rfl

theorem wrapWithTag_length (large : 128 ≤ value.length) :
    (wrapWithTag tag value).length = 4 + value.length := by
  rw [wrapWithTag]
  simp only [if_neg (Nat.not_lt_of_le large), List.length_append,
    List.length_cons, List.length_nil]

/-- Two length bytes are the least for the lengths from 256 to 65535. -/
theorem leastForm_of_eq_encode
    (least : wrapWithTag tag value = Der.encode tag value) :
    LeastForm value.length := by
  rcases Nat.lt_or_ge value.length 128 with short | large
  · exact .inl short
  · right
    have whole := congrArg List.length least
    rw [wrapWithTag_length large, Der.encode, Der.lengthField_of_le large,
      List.length_append, List.length_cons, List.length_cons] at whole
    have two : (valueBytes value.length).length = 2 := by omega
    have most := bytesValue_lt (valueBytes value.length)
    rw [bytesValue_valueBytes, two] at most
    refine ⟨?_, most⟩
    by_contra small
    have one : (valueBytes value.length).length ≤ 1 :=
      valueBytes_length_le (Nat.lt_of_not_le small)
    omega

theorem wrapWithTag_isDer_iff (tag : UInt8) (value : List UInt8) :
    IsDer tag value (wrapWithTag tag value) ↔
      Der.LowTag tag ∧ LeastForm value.length := by
  constructor
  · rintro ⟨least, back⟩
    exact ⟨(Der.eq_encode_of_read back).1, leastForm_of_eq_encode least⟩
  · rintro ⟨low, form⟩
    have few : (valueBytes value.length).length ≤ 2 := by
      refine valueBytes_length_le ?_
      rcases form with short | ⟨-, most⟩
      · omega
      · exact most
    have least : wrapWithTag tag value = Der.encode tag value := by
      rcases form with short | ⟨least, most⟩
      · exact wrapWithTag_of_lt short
      · exact wrapWithTag_of_le least most
    have back : Der.read (Der.encode tag value ++ []) =
        some (tag, value, []) := Der.read_encode low (by omega)
    rw [List.append_nil, ← least] at back
    exact ⟨least, back⟩

/-- A value of 200 bytes gets a length that is not the least. -/
theorem wrapAsSequence_200_not_isDer :
    ¬ IsDer 0x30 (List.replicate 200 0)
      (wrapAsSequence (List.replicate 200 0)) := by
  rintro ⟨least, -⟩
  have form := leastForm_of_eq_encode least
  rw [List.length_replicate] at form
  exact absurd form (by decide)

end TrustLayer.ThemisEvidence.Timestamp
