import Mathlib.Analysis.Real.Sqrt
import Mathlib.MeasureTheory.Integral.IntervalIntegral.Basic
import Mathlib.Tactic.Linarith
import Mathlib.Tactic.NormNum
import TrustLayer.Watermark

/-!
# Embedding a watermark offline

The embedder replaces every token that is not green at its position by the
least green one.  Fractions and scores are read as exact numbers.
-/

namespace TrustLayer.Watermark.Python

/-- A list has at most `sys.maxsize` items. -/
abbrev PyList (α : Type) : Type :=
  { items : List α // items.length ≤ 2 ^ 63 - 1 }

def hashOutputBytes : Nat := 32

def defaultGamma : ℚ := 1 / 4

def defaultZThreshold : ℚ := 4

inductive Raised where
  /-- `ValueError`: `vocab_size must be > 0, got {vocab_size}` -/
  | vocabSize (vocabSize : Int)
  /-- `ValueError`: `gamma must be in (0, 1), got {gamma}` -/
  | gamma (gamma : ℚ)
  /-- `OverflowError`: `int too big to convert` -/
  | position
  /-- `ValueError`: `min() arg is an empty sequence` -/
  | emptyMin
  deriving DecidableEq

def key32 (key : List UInt8) : List UInt8 :=
  if key.length < hashOutputBytes then
    (key ++ List.replicate hashOutputBytes 0x00).take hashOutputBytes
  else key.take hashOutputBytes

/-! ## Tokens and green lists -/

/-- `tok in green`. -/
def isGreen (tok : Int) (green : Finset Nat) : Bool :=
  decide (0 ≤ tok ∧ tok.toNat ∈ green)

/-- `min(green)`. -/
def least (green : Finset Nat) : Except Raised Int :=
  if nonempty : green.Nonempty then .ok (green.min' nonempty)
  else .error .emptyMin

/-- What the embedder puts in the place of a token. -/
def embedToken (tok : Int) (green : Finset Nat) : Except Raised Int :=
  if isGreen tok green then .ok tok else least green

theorem greenWalk_nonempty (seed vocabSize : Nat) {greenSize : Nat}
    (positive : 0 < greenSize) :
    (greenWalk seed vocabSize greenSize).Nonempty :=
  (Finset.nonempty_range_iff.mpr positive.ne').image _

theorem embedToken_of_isGreen {tok : Int} {green : Finset Nat}
    (already : isGreen tok green = true) : embedToken tok green = .ok tok :=
  if_pos already

/-- The least token of a green list is green itself. -/
theorem embedToken_spec (tok : Int) {green : Finset Nat}
    (nonempty : green.Nonempty) :
    ∃ first, embedToken tok green = .ok first ∧ isGreen first green = true := by
  by_cases already : isGreen tok green = true
  · exact ⟨tok, embedToken_of_isGreen already, already⟩
  · have member := green.min'_mem nonempty
    refine ⟨green.min' nonempty, ?_, ?_⟩
    · rw [embedToken, if_neg already, least, dif_pos nonempty]
    · exact decide_eq_true ⟨Int.natCast_nonneg _, member⟩

/-! ## Scores -/

/-- `math.erf`. -/
noncomputable def erf (x : ℝ) : ℝ :=
  2 / √Real.pi * ∫ t in (0 : ℝ)..x, Real.exp (-t ^ 2)

noncomputable def zScore (greenCount t : Nat) (gamma : ℝ) : ℝ :=
  let numerator := greenCount - gamma * t
  let denominator := √(gamma * (1 - gamma) * t)
  if denominator = 0 then 0 else numerator / denominator

/-- Of `t` tokens, all of them green, the score is the root of `3 t`. -/
theorem four_lt_zScore_iff (t : Nat) : 4 < zScore t t (1 / 4) ↔ 6 ≤ t := by
  have numerator : (t - 1 / 4 * t : ℝ) = 3 / 4 * t := by ring
  have variance : (1 / 4 * (1 - 1 / 4) * t : ℝ) = 3 / 16 * t := by ring
  rw [zScore, numerator, variance]
  rcases Nat.eq_zero_or_pos t with rfl | tokens
  · norm_num
  · have positive : (0 : ℝ) < t := Nat.cast_pos.mpr tokens
    have root : 0 < √(3 / 16 * t : ℝ) := Real.sqrt_pos.mpr (by linarith)
    rw [if_neg root.ne', lt_div_iff₀ root, ← lt_div_iff₀' (by norm_num),
      Real.sqrt_lt' (by linarith)]
    have squares : ((3 / 4 * t / 4) ^ 2 : ℝ) = 3 / 16 * t * (3 / 16 * t) := by
      ring
    rw [squares, lt_mul_iff_one_lt_right (by linarith)]
    constructor
    · intro above
      by_contra fewer
      have bound : (t : ℝ) ≤ 5 := by
        exact_mod_cast Nat.lt_succ_iff.mp (not_le.mp fewer)
      linarith
    · intro enough
      have bound : (6 : ℝ) ≤ t := by exact_mod_cast enough
      linarith

section

variable [Blake2b]

def green (key : List UInt8) (vocabSize : Int) (gamma : ℚ) (position : Nat) :
    Option (Finset Nat) :=
  greenListForPosition key position vocabSize fun size => ⌊gamma * size⌋

/-! ## The detector -/

structure WatermarkResult where
  detected : Bool
  zScore : ℝ
  greenCount : Nat
  totalCount : Nat
  gamma : ℚ
  zThreshold : ℚ
  confidence : ℝ

/-- The loop that counts, from a position on. -/
def greenCount (key : List UInt8) (vocabSize : Int) (gamma : ℚ) :
    (position : Nat) → List Int → Except Raised Nat
  | _, [] => .ok 0
  | position, tok :: tokens =>
      match green key vocabSize gamma position with
      | none => .error .position
      | some green => do
          let count ← greenCount key vocabSize gamma (position + 1) tokens
          pure (if isGreen tok green then count + 1 else count)

noncomputable def kirchenbauerDetect (tokens : List Int) (vocabSize : Int)
    (key : List UInt8) (gamma zThreshold : ℚ) :
    Except Raised WatermarkResult :=
  if tokens = [] then
    .ok
      { detected := false, zScore := 0, greenCount := 0, totalCount := 0, gamma
        zThreshold, confidence := 0.5 }
  else if vocabSize ≤ 0 then .error (.vocabSize vocabSize)
  else if ¬ (0 < gamma ∧ gamma < 1) then .error (.gamma gamma)
  else do
    let greenCount ← greenCount (key32 key) vocabSize gamma 0 tokens
    let t := tokens.length
    let z := zScore greenCount t gamma
    pure
      { detected := decide (zThreshold < z), zScore := z, greenCount
        totalCount := t, gamma, zThreshold
        confidence := min 1 (max 0 (0.5 + 0.5 * erf (z / √2))) }

/-! ## The embedder -/

/-- The loop that embeds, from a position on. -/
def embedTokens (key : List UInt8) (vocabSize : Int) (gamma : ℚ) :
    (position : Nat) → List Int → Except Raised (List Int)
  | _, [] => .ok []
  | position, tok :: tokens =>
      match green key vocabSize gamma position with
      | none => .error .position
      | some green => do
          let first ← embedToken tok green
          let out ← embedTokens key vocabSize gamma (position + 1) tokens
          pure (first :: out)

def kirchenbauerEmbedTokens (tokens : List Int) (key : List UInt8)
    (vocabSize : Option Int) (gamma : ℚ) : Except Raised (List Int) :=
  match tokens with
  | [] => .ok []
  | tok :: rest =>
      let vocabSize := vocabSize.getD (rest.foldl max tok + 1)
      if ¬ (0 < gamma ∧ gamma < 1) then .error (.gamma gamma)
      else embedTokens (key32 key) vocabSize gamma 0 (tok :: rest)

/-! ## Green lists -/

section

variable {key : List UInt8} {vocabSize : Int} {gamma : ℚ}

/-- Within the length of a list every position has a green list, and it is not
empty. -/
theorem exists_green (key : List UInt8) (gamma : ℚ)
    (positive : 0 < vocabSize) {position : Nat} (fits : position < 2 ^ 64) :
    ∃ list, green key vocabSize gamma position = some list ∧ list.Nonempty := by
  have size : 0 < (max 1 ⌊gamma * vocabSize⌋).toNat := by omega
  rw [green, greenListForPosition, if_neg positive.not_ge, seedFor, if_pos fits]
  exact ⟨_, rfl, greenWalk_nonempty _ _ size⟩

/-- Every token is green at its position. -/
inductive AllGreen (key : List UInt8) (vocabSize : Int) (gamma : ℚ) :
    (position : Nat) → List Int → Prop where
  | nil {position : Nat} : AllGreen key vocabSize gamma position []
  | cons {position : Nat} {tok : Int} {tokens : List Int} {list : Finset Nat}
      (here : green key vocabSize gamma position = some list)
      (isGreen : isGreen tok list = true)
      (rest : AllGreen key vocabSize gamma (position + 1) tokens) :
      AllGreen key vocabSize gamma position (tok :: tokens)

theorem AllGreen.embedTokens {position : Nat} {tokens : List Int}
    (allGreen : AllGreen key vocabSize gamma position tokens) :
    embedTokens key vocabSize gamma position tokens = .ok tokens := by
  induction allGreen with
  | nil => rfl
  | cons here isGreen _ induction =>
      rw [Python.embedTokens, here]
      simp only [embedToken_of_isGreen isGreen, induction]
      rfl

theorem AllGreen.greenCount {position : Nat} {tokens : List Int}
    (allGreen : AllGreen key vocabSize gamma position tokens) :
    greenCount key vocabSize gamma position tokens = .ok tokens.length := by
  induction allGreen with
  | nil => rfl
  | cons here isGreen _ induction =>
      rw [Python.greenCount, here]
      simp only [isGreen, if_true, induction]
      rfl

/-- What the loop returns is all green, and keeps the tokens that were. -/
theorem embedTokens_spec (key : List UInt8) (gamma : ℚ)
    (positive : 0 < vocabSize) {position : Nat}
    {tokens : List Int} (fits : position + tokens.length < 2 ^ 64) :
    ∃ out, embedTokens key vocabSize gamma position tokens = .ok out ∧
      out.length = tokens.length ∧
      AllGreen key vocabSize gamma position out ∧
      ∀ index list, green key vocabSize gamma (position + index) = some list →
        ∀ tok, tokens[index]? = some tok → isGreen tok list = true →
          out[index]? = some tok := by
  induction tokens generalizing position with
  | nil => exact ⟨[], rfl, rfl, .nil, by simp⟩
  | cons tok tokens induction =>
      simp only [List.length_cons] at fits
      obtain ⟨list, here, nonempty⟩ :=
        exists_green key gamma positive (show position < 2 ^ 64 by omega)
      obtain ⟨out, returned, length, allGreen, kept⟩ :=
        induction (show position + 1 + tokens.length < 2 ^ 64 by omega)
      obtain ⟨first, chosen, firstGreen⟩ := embedToken_spec tok nonempty
      refine ⟨first :: out, ?_, congrArg (· + 1) length,
        .cons here firstGreen allGreen, ?_⟩
      · rw [embedTokens, here]
        simp only [chosen, returned]
        rfl
      · intro index other found token atIndex wasGreen
        cases index with
        | zero =>
            rw [Nat.add_zero, here] at found
            cases found
            cases atIndex
            rw [embedToken_of_isGreen wasGreen] at chosen
            cases chosen
            rfl
        | succ index =>
            refine kept index other ?_ token atIndex wasGreen
            rwa [Nat.add_right_comm]

end

/-- What is embedded is counted as green throughout, and with the defaults it
is detected from six tokens on. -/
theorem kirchenbauerEmbedTokens_spec (tokens : PyList Int) (key : List UInt8)
    {vocabSize : Int} {gamma : ℚ} (positive : 0 < vocabSize) (low : 0 < gamma)
    (high : gamma < 1) :
    ∃ out, kirchenbauerEmbedTokens tokens.1 key (some vocabSize) gamma =
        .ok out ∧
      out.length = tokens.1.length ∧
      (∀ position list,
        green (key32 key) vocabSize gamma position = some list →
          ∀ tok, tokens.1[position]? = some tok → isGreen tok list = true →
            out[position]? = some tok) ∧
      kirchenbauerEmbedTokens out key (some vocabSize) gamma = .ok out ∧
      ∀ zThreshold, ∃ result,
        kirchenbauerDetect out vocabSize key gamma zThreshold = .ok result ∧
          result.greenCount = tokens.1.length ∧
          result.totalCount = tokens.1.length ∧
          (gamma = defaultGamma → zThreshold = defaultZThreshold →
            (result.detected = true ↔ 6 ≤ tokens.1.length)) := by
  have fits := tokens.2
  obtain ⟨out, returned, length, allGreen, kept⟩ :=
    embedTokens_spec (key32 key) gamma positive
      (show 0 + tokens.1.length < 2 ^ 64 by omega)
  have embeds (items : List Int) :
      kirchenbauerEmbedTokens items key (some vocabSize) gamma =
        embedTokens (key32 key) vocabSize gamma 0 items := by
    cases items with
    | nil => rfl
    | cons tok items =>
        exact if_neg (not_not.mpr ⟨low, high⟩)
  simp only [Nat.zero_add] at kept
  refine ⟨out, (embeds _).trans returned, length, kept,
    (embeds _).trans allGreen.embedTokens, fun zThreshold => ?_⟩
  rw [kirchenbauerDetect, allGreen.greenCount, ← length]
  split_ifs with empty noVocabulary fraction
  · subst empty
    exact ⟨_, rfl, rfl, rfl, by simp⟩
  · exact absurd positive noVocabulary.not_gt
  · refine ⟨_, rfl, rfl, rfl, ?_⟩
    rintro rfl rfl
    rw [decide_eq_true_iff, ← four_lt_zScore_iff]
    norm_num [defaultGamma, defaultZThreshold]
  · exact absurd ⟨low, high⟩ fraction

end

/-! ## Six tokens -/

def sixTokens : PyList Int :=
  ⟨[0, 1, 2, 3, 4, 5], by decide⟩

/-- What BLAKE2b answers for the key `k` at the first six positions. -/
@[reducible] def answers : Blake2b where
  digest data :=
    let digests :=
      [0x6b0f2e90eec65b7c19923f99159c738ac02fdc74c033cbb5afe9b3bee36ff0c0,
        0x98ac4d6834b1ad271b7d0edd38012c64cdfbdb50e08051c9d56579931d336212,
        0x8de9991df3760e52227f99fb3bee8e6b772d3ccacfd249d17db2e194f2296b14,
        0x9510aad29f0f6295dfb87b5887030970298db3666304711f7b26c0c821abb462,
        0x5117ce46749953e87216a29743a890c82200531398f13c94928f339f18dab737,
        0x21e154375edb6c08ec5b31fa05fd1fee5f6b5f6df46308308967a9bd1bce4acc]
    let answer := (digests.zipIdx.find? fun (_, position) =>
      data = key32 [0x6b] ++ toLeBytes 8 position).map Prod.fst
    Vector.ofFn fun index =>
      UInt8.ofNat (answer.getD 0 / 256 ^ (31 - index.val))

theorem kirchenbauerEmbedTokens_spec_sixTokens :
    let := answers
    kirchenbauerEmbedTokens sixTokens.1 [0x6b] (some 8) defaultGamma =
        .ok [3, 1, 5, 5, 1, 1] ∧
      ∃ result, kirchenbauerDetect [3, 1, 5, 5, 1, 1] 8 [0x6b] defaultGamma
          defaultZThreshold = .ok result ∧
        result.greenCount = 6 ∧ result.detected = true := by
  let := answers
  have run : kirchenbauerEmbedTokens sixTokens.1 [0x6b] (some 8) defaultGamma =
      .ok [3, 1, 5, 5, 1, 1] := by
    decide +kernel
  obtain ⟨out, embedded, -, -, -, detects⟩ :=
    kirchenbauerEmbedTokens_spec sixTokens [0x6b] (by decide : (0 : Int) < 8)
      (by norm_num [defaultGamma] : 0 < defaultGamma)
      (by norm_num [defaultGamma])
  obtain ⟨result, detected, count, -, enough⟩ := detects defaultZThreshold
  cases run.symm.trans embedded
  exact ⟨run, result, detected, count, (enough rfl rfl).mpr (by decide)⟩

end TrustLayer.Watermark.Python
