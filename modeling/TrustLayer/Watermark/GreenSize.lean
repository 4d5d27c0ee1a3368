import TrustLayer.Watermark
import Mathlib.NumberTheory.LucasPrimality
import Mathlib.Tactic.NormNum.Prime
import Mathlib.Tactic.ReduceModChar

/-!
# The size of a green list

The statistic of the detectors takes a green list for a fixed share of the
vocabulary.  A walk in exact integers has as many tokens as steps, because its
stride is prime; in 32-bit arithmetic two steps can meet behind a wrap.
-/

namespace TrustLayer.Watermark

open TrustLayer.Library
open TrustLayer.TlChain (Blake3)

/-- As many tokens as the size says, all of the vocabulary. -/
structure ExactlyGreen (green : List UInt32) (vocabSize greenSize : UInt32) :
    Prop where
  size : green.length = greenSize.toNat
  distinct : green.Nodup
  below : ∀ token ∈ green, token < vocabSize

/-- For every hash function, key and position, the generator selects as many
tokens as the size says. -/
def SizeHolds (vocabSize greenSize : UInt32) : Prop :=
  ∀ (_ : Blake3) (mark : Rust.KirchenbauerTextWatermark) (position : UInt32),
    max (mark.gammaOf vocabSize) 1 = greenSize →
      ExactlyGreen (mark.greenListForPosition position vocabSize) vocabSize
        greenSize

/-! ## The generator -/

section

variable {seed vocabSize greenSize : UInt32}

theorem rust_greenWalk_toNat (positive : 0 < vocabSize) :
    (Rust.greenWalk seed vocabSize greenSize).map UInt32.toNat =
      (List.range greenSize.toNat).map fun step =>
        (seed.toNat + step * 0x9E3779B1) % 2 ^ 32 % vocabSize.toNat := by
  rw [Rust.greenWalk, List.map_map]
  apply List.map_congr_left
  intro step _
  rw [Function.comp_apply, max_one positive, rust_token]

/-- Only the distinctness of the tokens is in question. -/
theorem exactlyGreen_greenWalk_iff (positive : 0 < vocabSize) :
    ExactlyGreen (Rust.greenWalk seed vocabSize greenSize) vocabSize
        greenSize ↔
      ((List.range greenSize.toNat).map fun step =>
        (seed.toNat + step * 0x9E3779B1) % 2 ^ 32 % vocabSize.toNat).Nodup := by
  rw [← rust_greenWalk_toNat positive,
    List.nodup_map_iff fun _ _ same => UInt32.toNat_inj.mp same]
  constructor
  · exact fun green => green.distinct
  · intro distinct
    refine ⟨?_, distinct, ?_⟩
    · rw [Rust.greenWalk, List.length_map, List.length_range]
    · intro token member
      obtain ⟨step, -, rfl⟩ := List.mem_map.mp member
      rw [max_one positive]
      exact UInt32.mod_lt _ positive

theorem greenWalk_iff_meets (positive : 0 < vocabSize) :
    ExactlyGreen (Rust.greenWalk seed vocabSize greenSize) vocabSize
        greenSize ↔
      ∀ step gap, step + gap < greenSize.toNat → 0 < gap →
        ¬ Meets (2 ^ 32) 0x9E3779B1 vocabSize.toNat
          ((seed.toNat + step * 0x9E3779B1) % 2 ^ 32) gap := by
  rw [exactlyGreen_greenWalk_iff positive]
  apply nodup_wordWalk_iff
  decide

/-- Over all hash functions, the size holds from every seed. -/
theorem sizeHolds_iff_seeds (nonempty : 0 < greenSize) :
    SizeHolds vocabSize greenSize ↔
      ∀ seed : UInt32,
        ExactlyGreen (Rust.greenWalk seed vocabSize greenSize) vocabSize
          greenSize := by
  constructor
  · intro holds seed
    obtain ⟨blake3, blake2b, mark, position, gammaOf, same, derived⟩ :=
      exists_sameParameters seed vocabSize greenSize nonempty
    have green := holds blake3 mark position same.generated
    rwa [Rust.KirchenbauerTextWatermark.greenListForPosition, same.generated,
      derived] at green
  · intro every blake3 mark position generated
    rw [Rust.KirchenbauerTextWatermark.greenListForPosition, generated]
    exact every _

theorem sizeHolds_iff (nonempty : 0 < greenSize) (positive : 0 < vocabSize) :
    SizeHolds vocabSize greenSize ↔
      ∀ gap < greenSize.toNat, 0 < gap →
        ¬ vocabSize.toNat ∣ gap * 0x9E3779B1 % 2 ^ 32 ∧
          ¬ vocabSize.toNat ∣ 2 ^ 32 - gap * 0x9E3779B1 % 2 ^ 32 := by
  rw [sizeHolds_iff_seeds nonempty,
    ← forall_nodup_wordWalk_iff (by decide : 0 < 2 ^ 32)]
  simp only [exactlyGreen_greenWalk_iff positive]
  constructor
  · intro every seed inWord
    have walk := every (UInt32.ofNat seed)
    rwa [UInt32.toNat_ofNat_of_lt' inWord] at walk
  · intro every seed
    exact every seed.toNat seed.toNat_lt

end

/-! ## The detector -/

/-- The factors of the stride less one are small, and 22 is a primitive root. -/
theorem prime_stride : Nat.Prime 0x9E3779B1 := by
  apply lucas_primality 0x9E3779B1 22
  · reduce_mod_char
  · intro factor prime divides
    have small : factor ∈ [2, 3, 5, 17, 31, 677] := by
      have product : factor ∣ [2, 2, 2, 2, 3, 5, 17, 31, 31, 677].prod :=
        divides
      obtain ⟨other, member, inOther⟩ :=
        (Prime.dvd_prod_iff prime.prime).mp product
      have otherPrime : Nat.Prime other := by
        revert other
        norm_num
      obtain rfl := (Nat.prime_dvd_prime_iff_eq prime otherPrime).mp inOther
      revert member
      simp
    simp only [List.mem_cons, List.not_mem_nil, or_false] at small
    rcases small with rfl | rfl | rfl | rfl | rfl | rfl
    all_goals
      norm_num
      reduce_mod_char
      decide

theorem coprime_stride {vocabSize : Nat} (positive : 0 < vocabSize)
    (below : vocabSize < 0x9E3779B1) : Nat.Coprime vocabSize 0x9E3779B1 := by
  apply Nat.Coprime.symm
  rw [prime_stride.coprime_iff_not_dvd]
  intro divides
  have := Nat.le_of_dvd positive divides
  omega

theorem card_python_greenWalk {seed vocabSize greenSize : Nat}
    (positive : 0 < vocabSize) (below : vocabSize < 0x9E3779B1)
    (short : greenSize ≤ vocabSize) :
    (Python.greenWalk seed vocabSize greenSize).card = greenSize := by
  have distinct := @exactWalk_injOn 0x9E3779B1 seed vocabSize greenSize
    (coprime_stride positive below) short
  rw [Python.greenWalk, max_eq_right (Nat.succ_le_of_lt positive),
    Finset.card_image_of_injOn distinct, Finset.card_range]

/-! ## Both sizes -/

/-- A vocabulary that divides the word has lists of every size: the stride is
odd. -/
theorem sizeHolds_of_dvd {vocabSize greenSize : UInt32}
    (nonempty : 0 < greenSize) (short : greenSize ≤ vocabSize)
    (divides : vocabSize.toNat ∣ 2 ^ 32) : SizeHolds vocabSize greenSize := by
  have nonemptyNat := UInt32.lt_iff_toNat_lt.mp nonempty
  have shortNat := UInt32.le_iff_toNat_le.mp short
  have positive : 0 < vocabSize :=
    UInt32.lt_iff_toNat_lt.mpr (nonemptyNat.trans_le shortNat)
  have odd : Nat.Coprime vocabSize.toNat 0x9E3779B1 :=
    Nat.Coprime.of_dvd_left divides (by decide)
  rw [sizeHolds_iff nonempty positive]
  intro gap inside someGap
  have shift := Nat.mod_lt (gap * 0x9E3779B1) (by decide : 0 < 2 ^ 32)
  have whole : ¬ vocabSize.toNat ∣ gap * 0x9E3779B1 % 2 ^ 32 := by
    intro rounds
    rw [Nat.dvd_mod_iff divides] at rounds
    have := Nat.le_of_dvd someGap (odd.dvd_of_dvd_mul_right rounds)
    omega
  refine ⟨whole, fun around => whole ?_⟩
  exact (Nat.dvd_sub_iff_right shift.le divides).mp around

/-- The generator keeps the size from every seed exactly when no number of
steps below it takes the walk through whole rounds, forward or around the
word.  The detector always keeps it below its multiplier. -/
theorem greenSize_iff (vocabSize greenSize : UInt32) (nonempty : 0 < greenSize)
    (short : greenSize ≤ vocabSize) :
    (SizeHolds vocabSize greenSize ↔
      ∀ gap < greenSize.toNat, 0 < gap →
        ¬ vocabSize.toNat ∣ gap * 0x9E3779B1 % 2 ^ 32 ∧
          ¬ vocabSize.toNat ∣ 2 ^ 32 - gap * 0x9E3779B1 % 2 ^ 32) ∧
    (∀ (_ : Blake3) (mark : Rust.KirchenbauerTextWatermark) (position : UInt32),
      max (mark.gammaOf vocabSize) 1 = greenSize →
        (ExactlyGreen (mark.greenListForPosition position vocabSize) vocabSize
            greenSize ↔
          ∀ step gap, step + gap < greenSize.toNat → 0 < gap →
            ¬ Meets (2 ^ 32) 0x9E3779B1 vocabSize.toNat
              (((Rust.seedFor mark.key position).toNat + step * 0x9E3779B1) %
                2 ^ 32) gap)) ∧
    (vocabSize.toNat < 0x9E3779B1 →
      ∀ (_ : Blake2b) (key : List UInt8) (position : Nat) (gammaOf : Int → Int),
        position < 2 ^ 64 → max 1 (gammaOf vocabSize.toNat) = greenSize.toNat →
          ∃ green, Python.greenListForPosition key position vocabSize.toNat
              gammaOf = some green ∧
            green.card = greenSize.toNat ∧
              ∀ token ∈ green, token < vocabSize.toNat) := by
  have nonemptyNat := UInt32.lt_iff_toNat_lt.mp nonempty
  have shortNat := UInt32.le_iff_toNat_le.mp short
  have positiveNat : 0 < vocabSize.toNat := nonemptyNat.trans_le shortNat
  have positive : 0 < vocabSize := UInt32.lt_iff_toNat_lt.mpr positiveNat
  refine ⟨sizeHolds_iff nonempty positive, ?_, ?_⟩
  · intro blake3 mark position generated
    rw [Rust.KirchenbauerTextWatermark.greenListForPosition, generated]
    exact greenWalk_iff_meets positive
  · intro below blake2b key position gammaOf inRange detected
    rw [Python.greenListForPosition, if_neg (by omega), Python.seedFor,
      if_pos inRange, detected]
    refine ⟨_, rfl, card_python_greenWalk positiveNat below shortNat, ?_⟩
    intro token member
    obtain ⟨step, -, rfl⟩ := Finset.mem_image.mp member
    have atLeast : max 1 ((vocabSize.toNat : Int).toNat) = vocabSize.toNat :=
      max_eq_right (Nat.succ_le_of_lt positiveNat)
    rw [atLeast]
    exact Nat.mod_lt _ positiveNat

theorem greenSize_iff_sixteen : SizeHolds 16 4 :=
  (greenSize_iff 16 4 (by decide) (by decide)).1.mpr (by decide)

/-- From the seed `2^32 - 1`, the quarter of a vocabulary of fifteen is one
token three times. -/
theorem wrap_not_sizeHolds :
    Rust.greenWalk 0xFFFFFFFF 15 3 = [0, 0, 0] ∧ ¬ SizeHolds 15 3 := by
  refine ⟨by decide, fun holds => ?_⟩
  have green := (sizeHolds_iff_seeds (by decide)).mp holds 0xFFFFFFFF
  have distinct := green.distinct
  revert distinct
  decide

end TrustLayer.Watermark
