import TrustLayer.Library.ResidueWalk
import TrustLayer.TlChain

/-!
# The text watermark in two languages

The green list of a token position as the Rust generator and the Python
detector derive it.  Both walk through the vocabulary by one stride, one in
wrapping 32-bit arithmetic and one in exact integers.
-/

namespace TrustLayer.Watermark

open TrustLayer.Library
open TrustLayer.TlChain (Blake3)

instance atLeastTwo_two : Nat.AtLeastTwo 2 := inferInstance

/-- BLAKE2b with a 32-byte digest, from the Python standard library. -/
class Blake2b where
  digest : List UInt8 → Vector UInt8 32

/-- `int.from_bytes(bytes, "little")`. -/
def fromLeBytes : List UInt8 → Nat
  | [] => 0
  | byte :: bytes => byte.toNat + 256 * fromLeBytes bytes

/-- The `width` low bytes of a number, the lowest first. -/
def toLeBytes : (width : Nat) → Nat → List UInt8
  | 0, _ => []
  | width + 1, value => UInt8.ofNat value :: toLeBytes width (value / 256)

theorem fromLeBytes_toLeBytes (width value : Nat) :
    fromLeBytes (toLeBytes width value) = value % 256 ^ width := by
  induction width generalizing value with
  | zero => simp [fromLeBytes, toLeBytes, Nat.mod_one]
  | succ width induction =>
      have low : (UInt8.ofNat value).toNat = value % 256 := UInt8.toNat_ofNat'
      rw [toLeBytes, fromLeBytes, induction, low, pow_succ']
      exact (Nat.mod_mul).symm

theorem toLeBytes_length (width value : Nat) :
    (toLeBytes width value).length = width := by
  induction width generalizing value with
  | zero => rfl
  | succ width induction => rw [toLeBytes, List.length_cons, induction]

/-! ## The generator -/

namespace Rust

/-- `gammaOf` is `(self.gamma * vocab_size as f32) as u32`. -/
structure KirchenbauerTextWatermark where
  key : Vector UInt8 32
  gammaOf : UInt32 → UInt32

/-- The walk of the loop. -/
def greenWalk (seed vocabSize greenSize : UInt32) : List UInt32 :=
  (List.range greenSize.toNat).map fun i =>
    (seed + UInt32.ofNat i * 0x9E3779B1) % max vocabSize 1

/-- The first four bytes of the hash of key and position. -/
def seedFor [Blake3] (key : Vector UInt8 32) (position : UInt32) : UInt32 :=
  let prngSeed := key.toList ++ toLeBytes 4 position.toNat
  UInt32.ofNat (fromLeBytes ((Blake3.hash prngSeed).toList.take 4))

def KirchenbauerTextWatermark.greenListForPosition [Blake3]
    (mark : KirchenbauerTextWatermark) (position vocabSize : UInt32) :
    List UInt32 :=
  greenWalk (seedFor mark.key position) vocabSize
    (max (mark.gammaOf vocabSize) 1)

end Rust

/-! ## The detector -/

namespace Python

def greenWalk (seed vocabSize greenSize : Nat) : Finset Nat :=
  (Finset.range greenSize).image fun i =>
    (seed + i * 0x9E3779B1) % max 1 vocabSize

/-- `None` stands for the `OverflowError` of `position.to_bytes`. -/
def seedFor [Blake2b] (key : List UInt8) (position : Nat) : Option Nat :=
  if position < 2 ^ 64 then
    let seedMaterial := key ++ toLeBytes 8 position
    some (fromLeBytes ((Blake2b.digest seedMaterial).toList.take 4))
  else none

/-- `gammaOf` is `int(gamma * vocab_size)`. -/
def greenListForPosition [Blake2b] (key : List UInt8) (position : Nat)
    (vocabSize : Int) (gammaOf : Int → Int) : Option (Finset Nat) :=
  if vocabSize ≤ 0 then some ∅
  else
    (seedFor key position).map fun seed =>
      greenWalk seed vocabSize.toNat (max 1 (gammaOf vocabSize)).toNat

end Python

/-! ## Agreement -/

section

variable {seed vocabSize greenSize : UInt32}

theorem rust_token (i : Nat) :
    ((seed + UInt32.ofNat i * 0x9E3779B1) % vocabSize).toNat =
      (seed.toNat + i * 0x9E3779B1) % 2 ^ 32 % vocabSize.toNat := by
  rw [UInt32.toNat_mod, UInt32.toNat_add, UInt32.toNat_mul, UInt32.toNat_ofNat']
  simp [Nat.add_mod, Nat.mul_mod]

theorem max_one (positive : 0 < vocabSize) : max vocabSize 1 = vocabSize := by
  show (if vocabSize ≤ 1 then 1 else vocabSize) = vocabSize
  split
  · rename_i small
    have low := UInt32.le_iff_toNat_le.mp small
    have high := UInt32.lt_iff_toNat_lt.mp positive
    apply UInt32.toNat_inj.mp
    simp only [UInt32.toNat_one, UInt32.toNat_zero] at low high ⊢
    omega
  · rfl

theorem mem_rust_greenWalk (positive : 0 < vocabSize) {token : UInt32} :
    token ∈ Rust.greenWalk seed vocabSize greenSize ↔
      token.toNat ∈ wordWalk (2 ^ 32) 0x9E3779B1 seed.toNat vocabSize.toNat
        greenSize.toNat := by
  rw [mem_wordWalk]
  simp only [Rust.greenWalk, List.mem_map, List.mem_range, max_one positive]
  refine exists_congr fun i => and_congr_right fun _ => ?_
  rw [← UInt32.toNat_inj, rust_token]

theorem python_greenWalk (positive : 0 < vocabSize) (seed size : Nat) :
    Python.greenWalk seed vocabSize.toNat size =
      exactWalk 0x9E3779B1 seed vocabSize.toNat size := by
  have atLeast : max 1 vocabSize.toNat = vocabSize.toNat :=
    max_eq_right (UInt32.lt_iff_toNat_lt.mp positive)
  rw [Python.greenWalk, atLeast, exactWalk]

/-- A residue of the vocabulary is a token. -/
theorem wordWalk_lt (positive : 0 < vocabSize) {residue : Nat}
    (member : residue ∈ wordWalk (2 ^ 32) 0x9E3779B1 seed.toNat vocabSize.toNat
      greenSize.toNat) : residue < 2 ^ 32 := by
  obtain ⟨i, -, rfl⟩ := mem_wordWalk.mp member
  exact (Nat.mod_lt _ (UInt32.lt_iff_toNat_lt.mp positive)).trans
    vocabSize.toNat_lt

theorem exactWalk_lt (positive : 0 < vocabSize) {residue : Nat}
    (member : residue ∈ exactWalk 0x9E3779B1 seed.toNat vocabSize.toNat
      greenSize.toNat) : residue < 2 ^ 32 := by
  obtain ⟨i, -, rfl⟩ := mem_exactWalk.mp member
  exact (Nat.mod_lt _ (UInt32.lt_iff_toNat_lt.mp positive)).trans
    vocabSize.toNat_lt

/-- The green lists from one seed hold the same tokens when the two walks take
the same residues. -/
theorem greenWalk_iff (positive : 0 < vocabSize) :
    (∀ token : UInt32, token ∈ Rust.greenWalk seed vocabSize greenSize ↔
        token.toNat ∈ Python.greenWalk seed.toNat vocabSize.toNat
          greenSize.toNat) ↔
      wordWalk (2 ^ 32) 0x9E3779B1 seed.toNat vocabSize.toNat greenSize.toNat =
        exactWalk 0x9E3779B1 seed.toNat vocabSize.toNat greenSize.toNat := by
  simp only [mem_rust_greenWalk positive, python_greenWalk positive]
  constructor
  · intro same
    ext residue
    constructor
    · intro member
      have fits : residue < UInt32.size := wordWalk_lt positive member
      have read := same (UInt32.ofNat residue)
      rw [UInt32.toNat_ofNat_of_lt' fits] at read
      exact read.mp member
    · intro member
      have fits : residue < UInt32.size := exactWalk_lt positive member
      have read := same (UInt32.ofNat residue)
      rw [UInt32.toNat_ofNat_of_lt' fits] at read
      exact read.mpr member
  · intro same token
    rw [same]

end

/-- The generator and the detector select the same tokens, at one position and
from one seed. -/
def ListsAgree [Blake3] [Blake2b] (mark : Rust.KirchenbauerTextWatermark)
    (position vocabSize : UInt32) (gammaOf : Int → Int) : Prop :=
  ∃ green, Python.greenListForPosition mark.key.toList position.toNat
      vocabSize.toNat gammaOf = some green ∧
    ∀ token : UInt32, token ∈ mark.greenListForPosition position vocabSize ↔
      token.toNat ∈ green

/-- Both sides derive the same seed and the same size of the green list. -/
structure SameParameters [Blake3] [Blake2b]
    (mark : Rust.KirchenbauerTextWatermark)
    (position vocabSize greenSize : UInt32) (gammaOf : Int → Int) : Prop where
  seed : Python.seedFor mark.key.toList position.toNat =
    some (Rust.seedFor mark.key position).toNat
  generated : max (mark.gammaOf vocabSize) 1 = greenSize
  detected : max 1 (gammaOf vocabSize.toNat) = greenSize.toNat

section

variable [Blake3] [Blake2b] {mark : Rust.KirchenbauerTextWatermark}
  {position vocabSize greenSize : UInt32} {gammaOf : Int → Int}

theorem listsAgree_iff (positive : 0 < vocabSize)
    (same : SameParameters mark position vocabSize greenSize gammaOf) :
    ListsAgree mark position vocabSize gammaOf ↔
      let seed := (Rust.seedFor mark.key position).toNat
      wordWalk (2 ^ 32) 0x9E3779B1 seed vocabSize.toNat greenSize.toNat =
        exactWalk 0x9E3779B1 seed vocabSize.toNat greenSize.toNat := by
  have inVocabulary : 0 < vocabSize.toNat := UInt32.lt_iff_toNat_lt.mp positive
  have detected : Python.greenListForPosition mark.key.toList position.toNat
      vocabSize.toNat gammaOf =
        some (Python.greenWalk (Rust.seedFor mark.key position).toNat
          vocabSize.toNat greenSize.toNat) := by
    rw [Python.greenListForPosition, if_neg (by omega), same.seed, same.detected]
    rfl
  rw [ListsAgree, detected, ← greenWalk_iff positive,
    Rust.KirchenbauerTextWatermark.greenListForPosition, same.generated]
  simp

end

/-- For every hash function, key and position, the two languages select the
same tokens whenever they derive the same seed and the same size. -/
def LanguagesAgree (vocabSize greenSize : UInt32) : Prop :=
  ∀ (_ : Blake3) (_ : Blake2b) (mark : Rust.KirchenbauerTextWatermark)
    (position : UInt32) (gammaOf : Int → Int),
      SameParameters mark position vocabSize greenSize gammaOf →
        ListsAgree mark position vocabSize gammaOf

/-- A hash function whose digests start with the bytes of a seed. -/
def seededDigest (seed : UInt32) : Vector UInt8 32 :=
  Vector.ofFn fun i =>
    ((toLeBytes 4 seed.toNat)[i.val]?).getD 0

theorem fromLeBytes_seededDigest (seed : UInt32) :
    fromLeBytes ((seededDigest seed).toList.take 4) = seed.toNat := by
  have bytes : (seededDigest seed).toList.take 4 = toLeBytes 4 seed.toNat := by
    apply List.ext_getElem
    · simp [toLeBytes_length]
    · intro i left right
      rw [toLeBytes_length] at right
      simp [seededDigest, toLeBytes_length, right]
  rw [bytes, fromLeBytes_toLeBytes]
  exact Nat.mod_eq_of_lt seed.toNat_lt

/-- Every seed is the seed of some hash functions. -/
theorem exists_sameParameters (seed vocabSize greenSize : UInt32)
    (nonempty : 0 < greenSize) :
    ∃ (_ : Blake3) (_ : Blake2b) (mark : Rust.KirchenbauerTextWatermark)
      (position : UInt32) (gammaOf : Int → Int),
        SameParameters mark position vocabSize greenSize gammaOf ∧
          Rust.seedFor mark.key position = seed := by
  let blake3 : Blake3 := { hash := fun _ => seededDigest seed }
  let blake2b : Blake2b := { digest := fun _ => seededDigest seed }
  let mark : Rust.KirchenbauerTextWatermark :=
    { key := Vector.replicate 32 0, gammaOf := fun _ => greenSize }
  have derived : Rust.seedFor mark.key 0 = seed := by
    apply UInt32.toNat_inj.mp
    show (UInt32.ofNat (fromLeBytes ((seededDigest seed).toList.take 4))).toNat =
      seed.toNat
    rw [fromLeBytes_seededDigest, UInt32.toNat_ofNat_of_lt' seed.toNat_lt]
  refine ⟨blake3, blake2b, mark, 0, fun _ => greenSize.toNat,
    ⟨?_, max_one nonempty, ?_⟩, derived⟩
  · rw [derived]
    show some (fromLeBytes ((seededDigest seed).toList.take 4)) =
      some seed.toNat
    rw [fromLeBytes_seededDigest]
  · have size := UInt32.lt_iff_toNat_lt.mp nonempty
    simp only [UInt32.toNat_zero] at size
    omega

/-- The two languages agree exactly on vocabularies that divide `2^32` and on
green lists of one token; from one seed they also agree while the exact walk
stays below `2^32`. -/
theorem languagesAgree_iff (vocabSize greenSize : UInt32)
    (nonempty : 0 < greenSize) (short : greenSize ≤ vocabSize) :
    (LanguagesAgree vocabSize greenSize ↔
      greenSize = 1 ∨ vocabSize.toNat ∣ 2 ^ 32) ∧
    ∀ (_ : Blake3) (_ : Blake2b) (mark : Rust.KirchenbauerTextWatermark)
      (position : UInt32) (gammaOf : Int → Int),
        SameParameters mark position vocabSize greenSize gammaOf →
          (Rust.seedFor mark.key position).toNat +
              (greenSize.toNat - 1) * 0x9E3779B1 < 2 ^ 32 →
            ListsAgree mark position vocabSize gammaOf := by
  have nonemptyNat := UInt32.lt_iff_toNat_lt.mp nonempty
  have shortNat := UInt32.le_iff_toNat_le.mp short
  have positive : 0 < vocabSize :=
    UInt32.lt_iff_toNat_lt.mpr (nonemptyNat.trans_le shortNat)
  have walks := @wordWalk_eq_iff (2 ^ 32) 0x9E3779B1 vocabSize.toNat
    greenSize.toNat (by decide) (by decide) (by decide) nonemptyNat shortNat
  have single : greenSize.toNat = 1 ↔ greenSize = 1 := by
    rw [← UInt32.toNat_inj]
    rfl
  rw [single] at walks
  refine ⟨?_, ?_⟩
  · rw [← walks]
    constructor
    · intro agree seed inWord
      obtain ⟨blake3, blake2b, mark, position, gammaOf, same, derived⟩ :=
        exists_sameParameters (UInt32.ofNat seed) vocabSize greenSize nonempty
      have lists := (listsAgree_iff positive same).mp
        (agree blake3 blake2b mark position gammaOf same)
      rwa [derived, UInt32.toNat_ofNat_of_lt' inWord] at lists
    · intro agree blake3 blake2b mark position gammaOf same
      exact (listsAgree_iff positive same).mpr (agree _ (UInt32.toNat_lt _))
  · intro blake3 blake2b mark position gammaOf same fits
    exact (listsAgree_iff positive same).mpr (wordWalk_eq_of_fits fits)

theorem languagesAgree_iff_ten :
    LanguagesAgree 16 4 ∧ ¬ LanguagesAgree 10 2 :=
  ⟨(languagesAgree_iff 16 4 (by decide) (by decide)).1.mpr (.inr (by decide)),
    fun agree => by
      have divides :=
        (languagesAgree_iff 10 2 (by decide) (by decide)).1.mp agree
      revert divides
      decide⟩

/-- From the seed `2^32 - 1` the second token of a vocabulary of ten is 0 in
one language and 6 in the other. -/
theorem wrap_not_languagesAgree :
    Rust.greenWalk 0xFFFFFFFF 10 2 = [5, 0] ∧
      Python.greenWalk 0xFFFFFFFF 10 2 = {5, 6} ∧ ¬ LanguagesAgree 10 2 := by
  refine ⟨by decide, by decide, fun agree => ?_⟩
  obtain ⟨blake3, blake2b, mark, position, gammaOf, same, derived⟩ :=
    exists_sameParameters 0xFFFFFFFF 10 2 (by decide)
  have lists := (listsAgree_iff (by decide) same).mp
    (agree blake3 blake2b mark position gammaOf same)
  rw [derived] at lists
  revert lists
  decide

end TrustLayer.Watermark
