import Mathlib.Data.Finset.Card
import Mathlib.Data.Finset.Image
import Mathlib.Data.Nat.ModEq
import Mathlib.Data.Nat.GCD.Basic

/-!
# Walks through residues

A walk adds one stride at a time and reduces each position.  Reducing modulo a
word size first and the number of residues after is compared with reducing the
exact position.
-/

namespace TrustLayer.Library

section

variable (word stride seed residues steps : Nat)

/-- The residues of the exact positions. -/
def exactWalk : Finset Nat :=
  (Finset.range steps).image fun step => (seed + step * stride) % residues

/-- The residues of the positions in a machine word. -/
def wordWalk : Finset Nat :=
  (Finset.range steps).image fun step =>
    (seed + step * stride) % word % residues

end

section

variable {word stride seed residues steps : Nat}

theorem mem_exactWalk {residue : Nat} :
    residue ∈ exactWalk stride seed residues steps ↔
      ∃ step < steps, (seed + step * stride) % residues = residue := by
  simp [exactWalk]

theorem mem_wordWalk {residue : Nat} :
    residue ∈ wordWalk word stride seed residues steps ↔
      ∃ step < steps, (seed + step * stride) % word % residues = residue := by
  simp [wordWalk]

/-- The word size does not show when the residues divide it. -/
theorem wordWalk_eq_of_dvd (divides : residues ∣ word) :
    wordWalk word stride seed residues steps =
      exactWalk stride seed residues steps := by
  simp only [wordWalk, exactWalk, Nat.mod_mod_of_dvd _ divides]

/-- Nor does it show before the walk leaves the first word. -/
theorem wordWalk_eq_of_fits (fits : seed + (steps - 1) * stride < word) :
    wordWalk word stride seed residues steps =
      exactWalk stride seed residues steps := by
  refine Finset.image_congr fun step member => ?_
  have last : step ≤ steps - 1 := Nat.le_sub_one_of_lt (by simpa using member)
  have inWord : seed + step * stride < word :=
    (Nat.add_le_add_left (Nat.mul_le_mul_right stride last) seed).trans_lt fits
  show (seed + step * stride) % word % residues = _
  rw [Nat.mod_eq_of_lt inWord]

theorem exactWalk_injOn (coprime : Nat.Coprime residues stride)
    (short : steps ≤ residues) :
    Set.InjOn (fun step => (seed + step * stride) % residues)
      (Finset.range steps) := by
  intro first firstMember second secondMember same
  have firstLt : first < residues :=
    (Finset.mem_range.mp firstMember).trans_le short
  have secondLt : second < residues :=
    (Finset.mem_range.mp secondMember).trans_le short
  have congruent : first ≡ second [MOD residues] :=
    Nat.ModEq.cancel_right_of_coprime coprime (Nat.ModEq.add_left_cancel' seed same)
  rwa [Nat.ModEq, Nat.mod_eq_of_lt firstLt, Nat.mod_eq_of_lt secondLt] at congruent

/-- A word walk that agrees with an exact one of distinct residues takes
distinct residues too. -/
theorem wordWalk_injOn (coprime : Nat.Coprime residues stride)
    (short : steps ≤ residues)
    (agrees : wordWalk word stride seed residues steps =
      exactWalk stride seed residues steps) :
    Set.InjOn (fun step => (seed + step * stride) % word % residues)
      (Finset.range steps) := by
  have distinct : (exactWalk stride seed residues steps).card = steps :=
    (Finset.card_image_of_injOn (exactWalk_injOn coprime short)).trans
      (Finset.card_range steps)
  refine Finset.card_image_iff.mp ?_
  rw [Finset.card_range]
  exact (congrArg Finset.card agrees).trans distinct

/-- Agreement from the last word already makes the stride prime to the
residues. -/
theorem coprime_of_agrees (coprime : Nat.Coprime word stride)
    (positive : 0 < stride) (small : stride < word) (two : 1 < steps)
    (agrees : wordWalk word stride (word - 1) residues steps =
      exactWalk stride (word - 1) residues steps) :
    Nat.Coprime residues stride := by
  have second : (stride - 1) % residues ∈
      wordWalk word stride (word - 1) residues steps := by
    refine mem_wordWalk.mpr ⟨1, two, ?_⟩
    have position : word - 1 + 1 * stride = word + (stride - 1) := by omega
    rw [position, Nat.add_mod_left, Nat.mod_eq_of_lt (by omega : stride - 1 < word)]
  rw [agrees] at second
  obtain ⟨step, -, same⟩ := mem_exactWalk.mp second
  have divides : Nat.gcd residues stride ∣ word := by
    have residue : word - 1 + step * stride ≡ stride - 1
        [MOD Nat.gcd residues stride] :=
      Nat.ModEq.of_dvd (Nat.gcd_dvd_left _ _) same
    have shifted : word + step * stride ≡ stride
        [MOD Nat.gcd residues stride] := by
      have next := residue.add_right 1
      rwa [show word - 1 + step * stride + 1 = word + step * stride by omega,
        Nat.sub_add_cancel positive] at next
    have strideZero : stride ≡ 0 [MOD Nat.gcd residues stride] :=
      (Nat.modEq_zero_iff_dvd).mpr (Nat.gcd_dvd_right _ _)
    have stepZero : step * stride ≡ 0 [MOD Nat.gcd residues stride] :=
      (Nat.modEq_zero_iff_dvd).mpr ((Nat.gcd_dvd_right _ _).mul_left step)
    have wordZero : word ≡ 0 [MOD Nat.gcd residues stride] :=
      Nat.ModEq.add_right_cancel (stepZero.trans (Nat.ModEq.refl 0))
        (by simpa using shifted.trans strideZero)
    exact (Nat.modEq_zero_iff_dvd).mp wordZero
  exact Nat.eq_one_of_dvd_one (coprime ▸ Nat.dvd_gcd divides
    (Nat.gcd_dvd_right residues stride))

theorem mod_succ_of_ne_zero {position : Nat} (wide : 1 < word)
    (inside : (position + 1) % word ≠ 0) :
    (position + 1) % word = position % word + 1 := by
  have bound := Nat.mod_lt position (by omega : 0 < word)
  rw [Nat.add_mod, Nat.mod_eq_of_lt wide] at inside ⊢
  apply Nat.mod_eq_of_lt
  refine lt_of_le_of_ne bound fun full => inside ?_
  rw [full, Nat.mod_self]

/-- The walk from `word - stride - 1` reaches `word - 1` at its second step, so
that an exact walk one seed later reaches the word size. -/
theorem word_mem_of_agrees (positive : 0 < stride) (small : stride < word)
    (two : 1 < steps)
    (agrees : wordWalk word stride (word - stride - 1) residues steps =
      exactWalk stride (word - stride - 1) residues steps) :
    word % residues ∈ exactWalk stride (word - stride) residues steps := by
  have reached : (word - 1) % residues ∈
      wordWalk word stride (word - stride - 1) residues steps := by
    refine mem_wordWalk.mpr ⟨1, two, ?_⟩
    have position : word - stride - 1 + 1 * stride = word - 1 := by omega
    rw [position, Nat.mod_eq_of_lt (by omega : word - 1 < word)]
  rw [agrees] at reached
  obtain ⟨step, stepLt, same⟩ := mem_exactWalk.mp reached
  refine mem_exactWalk.mpr ⟨step, stepLt, ?_⟩
  have next := Nat.ModEq.add_right 1 same
  rwa [show word - stride - 1 + step * stride + 1 =
      word - stride + step * stride by omega,
    show word - 1 + 1 = word by omega] at next

/-- A walk that agrees from the two seeds lands on the word size only by
wrapping to zero. -/
theorem dvd_of_agrees (positive : 0 < stride) (small : stride < word)
    (two : 1 < steps) (short : steps ≤ residues)
    (prime : Nat.Coprime residues stride)
    (before : wordWalk word stride (word - stride - 1) residues steps =
      exactWalk stride (word - stride - 1) residues steps)
    (after : wordWalk word stride (word - stride) residues steps =
      exactWalk stride (word - stride) residues steps) : residues ∣ word := by
  have shifted := word_mem_of_agrees positive small two before
  rw [← after] at shifted
  obtain ⟨step, stepLt, lands⟩ := mem_wordWalk.mp shifted
  by_contra notDivides
  have wraps : (word - stride + step * stride) % word ≠ 0 := by
    intro zero
    rw [zero, Nat.zero_mod] at lands
    exact notDivides (Nat.dvd_of_mod_eq_zero lands.symm)
  have position : word - stride + step * stride =
      word - stride - 1 + step * stride + 1 := by omega
  -- otherwise the walk one seed earlier stands at `word - 1` at this step too
  have sameResidue : (word - stride - 1 + step * stride) % word % residues =
      (word - stride - 1 + 1 * stride) % word % residues := by
    rw [position] at wraps lands
    rw [mod_succ_of_ne_zero (by omega) wraps] at lands
    have second : word - stride - 1 + 1 * stride = word - 1 := by omega
    rw [second, Nat.mod_eq_of_lt (by omega : word - 1 < word)]
    refine Nat.ModEq.add_right_cancel' 1 (lands.trans ?_)
    rw [show word - 1 + 1 = word by omega]
  have isSecond := wordWalk_injOn prime short before
    (Finset.mem_coe.mpr (Finset.mem_range.mpr stepLt))
    (Finset.mem_coe.mpr (Finset.mem_range.mpr two)) sameResidue
  rw [isSecond] at wraps
  apply wraps
  rw [show word - stride + 1 * stride = word by omega, Nat.mod_self]

/-- The walks agree from every seed exactly when they stop at the first step
or the residues divide the word size. -/
theorem wordWalk_eq_iff (coprime : Nat.Coprime word stride)
    (positive : 0 < stride) (small : stride < word) (nonempty : 0 < steps)
    (short : steps ≤ residues) :
    (∀ seed < word, wordWalk word stride seed residues steps =
        exactWalk stride seed residues steps) ↔
      steps = 1 ∨ residues ∣ word := by
  constructor
  · intro agree
    by_cases one : steps = 1
    · exact .inl one
    · have two : 1 < steps := by omega
      have prime := coprime_of_agrees coprime positive small two
        (agree (word - 1) (by omega))
      right
      apply dvd_of_agrees positive small two short prime
      · exact agree (word - stride - 1) (by omega)
      · exact agree (word - stride) (by omega)
  · rintro (rfl | divides) seed inFirst
    · exact wordWalk_eq_of_fits (by simpa using inFirst)
    · exact wordWalk_eq_of_dvd divides

/-! ## Meeting places -/

/-- A walk that stands at a position of the word is at the same residue a gap
later: the stretch is made of whole rounds, with or without the wrap. -/
def Meets (word stride residues position gap : Nat) : Prop :=
  if position + gap * stride % word < word then
    residues ∣ gap * stride % word
  else residues ∣ word - gap * stride % word

instance (word stride residues position gap : Nat) :
    Decidable (Meets word stride residues position gap) := by
  unfold Meets
  infer_instance

theorem same_residue_iff (positive : 0 < word) {step gap : Nat} :
    (seed + step * stride) % word % residues =
        (seed + (step + gap) * stride) % word % residues ↔
      Meets word stride residues ((seed + step * stride) % word) gap := by
  have later : (seed + (step + gap) * stride) % word =
      ((seed + step * stride) % word + gap * stride % word) % word := by
    rw [← Nat.add_mod, Nat.add_mul, Nat.add_assoc]
  have below := Nat.mod_lt (seed + step * stride) positive
  have shiftBelow := Nat.mod_lt (gap * stride) positive
  rw [later, Meets]
  generalize (seed + step * stride) % word = position at below ⊢
  generalize gap * stride % word = shift at shiftBelow ⊢
  by_cases fits : position + shift < word
  · rw [if_pos fits, Nat.mod_eq_of_lt fits]
    constructor
    · intro same
      have next : position + 0 ≡ position + shift [MOD residues] := same
      exact (Nat.modEq_zero_iff_dvd).mp (Nat.ModEq.add_left_cancel' _ next).symm
    · intro divides
      have zero := (Nat.modEq_zero_iff_dvd).mpr divides
      exact (zero.add_left position).symm
  · -- the wrap puts the later position below the earlier one
    have wrapped : (position + shift) % word = position + shift - word := by
      rw [Nat.mod_eq_sub_mod (by omega), Nat.mod_eq_of_lt (by omega)]
    have back : position = (position + shift - word) + (word - shift) := by
      omega
    rw [if_neg fits, wrapped]
    constructor
    · intro same
      have next : (position + shift - word) + (word - shift) ≡
          (position + shift - word) + 0 [MOD residues] := by
        rw [← back]
        exact same
      exact (Nat.modEq_zero_iff_dvd).mp (Nat.ModEq.add_left_cancel' _ next)
    · intro divides
      have zero := (Nat.modEq_zero_iff_dvd).mpr divides
      have next := zero.add_left (position + shift - word)
      rw [← back] at next
      exact next

/-- A walk takes distinct residues exactly when no two of its steps meet. -/
theorem nodup_wordWalk_iff (positive : 0 < word) :
    ((List.range steps).map fun step =>
        (seed + step * stride) % word % residues).Nodup ↔
      ∀ step gap, step + gap < steps → 0 < gap →
        ¬ Meets word stride residues ((seed + step * stride) % word) gap := by
  rw [List.nodup_map_iff_inj_on List.nodup_range]
  constructor
  · intro distinct step gap inside someGap meets
    have same := distinct step (List.mem_range.mpr (by omega)) (step + gap)
      (List.mem_range.mpr inside) ((same_residue_iff positive).mpr meets)
    omega
  · intro apart first firstMember second secondMember same
    have firstLt := List.mem_range.mp firstMember
    have secondLt := List.mem_range.mp secondMember
    rcases Nat.lt_trichotomy first second with less | equal | more
    · obtain ⟨gap, rfl⟩ := Nat.exists_eq_add_of_le less.le
      have meets := (same_residue_iff positive).mp same
      exact absurd meets (apart first gap secondLt (by omega))
    · exact equal
    · obtain ⟨gap, rfl⟩ := Nat.exists_eq_add_of_le more.le
      have meets := (same_residue_iff positive).mp same.symm
      exact absurd meets (apart second gap firstLt (by omega))

/-- From every seed the residues are distinct exactly when no stretch of the
walk, nor what it lacks to the word, is made of whole rounds. -/
theorem forall_nodup_wordWalk_iff (positive : 0 < word) :
    (∀ seed < word, ((List.range steps).map fun step =>
        (seed + step * stride) % word % residues).Nodup) ↔
      ∀ gap < steps, 0 < gap →
        ¬ residues ∣ gap * stride % word ∧
          ¬ residues ∣ word - gap * stride % word := by
  simp only [nodup_wordWalk_iff positive]
  constructor
  · intro apart gap inside someGap
    have fromZero := apart 0 positive 0 gap (by omega) someGap
    have shiftBelow := Nat.mod_lt (gap * stride) positive
    rw [Nat.zero_mul, Nat.zero_add, Nat.zero_mod, Meets, Nat.zero_add,
      if_pos shiftBelow] at fromZero
    refine ⟨fromZero, ?_⟩
    -- a stretch that is not made of whole rounds wraps behind the last position
    have shifts : 0 < gap * stride % word := by
      apply Nat.pos_of_ne_zero
      intro zero
      rw [zero] at fromZero
      exact fromZero (Nat.dvd_zero residues)
    have fromLast := apart (word - 1) (by omega) 0 gap (by omega) someGap
    rw [Nat.zero_mul, Nat.add_zero,
      Nat.mod_eq_of_lt (by omega : word - 1 < word), Meets,
      if_neg (by omega)] at fromLast
    exact fromLast
  · intro apart seed _ step gap inside someGap meets
    obtain ⟨direct, around⟩ := apart gap (by omega) someGap
    unfold Meets at meets
    split at meets
    · exact direct meets
    · exact around meets

end

end TrustLayer.Library
