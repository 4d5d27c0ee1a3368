import Mathlib.Analysis.Real.Sqrt
import Mathlib.Tactic.LinearCombination
import Mathlib.Tactic.NormNum.OfScientific
import TrustLayer.Library.KeyedCount
import TrustLayer.Watermark

/-!
# The detectors of the text watermark

Three detectors count green tokens and test the count.  Fractions and scores
are read as exact numbers; only Go takes its roots by a fixed number of steps.
-/

namespace TrustLayer.Watermark

open TrustLayer.Library
open TrustLayer.TlChain (Blake3)

/-- A number that is not negative, as `u32`. -/
def toU32 (number : ℚ) : UInt32 :=
  UInt32.ofNat (min ⌊number⌋₊ (2 ^ 32 - 1))

/-! ## Rust -/

namespace Rust

def watermark (key : Vector UInt8 32) (gamma : ℚ) : KirchenbauerTextWatermark :=
  { key, gammaOf := fun vocabSize => toU32 (gamma * vocabSize.toNat) }

structure DetectionStats where
  detected : Bool
  zScore : ℝ
  greenCount : Nat
  totalCount : Nat
  gamma : ℚ

noncomputable def zScore (n greenCount : Nat) (gamma : ℝ) : ℝ :=
  let expected := n * gamma
  let variance := n * gamma * (1 - gamma)
  let stdDev := √variance
  if 0 < stdDev then (greenCount - expected) / stdDev else 0

def greenCount [Blake3] (key : Vector UInt8 32) (gamma : ℚ)
    (tokens : List UInt32) (vocabSize : UInt32) : Nat :=
  tokens.zipIdx.countP fun (tok, i) =>
    ((watermark key gamma).greenListForPosition (UInt32.ofNat i)
      vocabSize).contains tok

noncomputable def detectTokens [Blake3] (key : Vector UInt8 32) (gamma : ℚ)
    (tokens : List UInt32) (vocabSize : UInt32) : DetectionStats :=
  let n := tokens.length
  if n = 0 then
    { detected := false, zScore := 0, greenCount := 0, totalCount := 0, gamma }
  else
    let greenCount := greenCount key gamma tokens vocabSize
    let z := zScore n greenCount gamma
    { detected := decide (4 < z), zScore := z, greenCount, totalCount := n
      gamma }

/-- `confidence` of a score. -/
noncomputable def confidence (zScore : ℝ) : ℝ :=
  let z := |zScore|
  let oneMinusCdf : ℝ :=
    if 6 ≤ z then 1
    else if 4 ≤ z then 0.99997
    else if 3 ≤ z then 0.99865
    else if 2 ≤ z then 0.97725
    else if 1 ≤ z then 0.84134
    else 0.5
  if 0 ≤ zScore then oneMinusCdf else 1 - oneMinusCdf

end Rust

/-! ## Go -/

namespace Go

structure WatermarkConfig where
  key : Vector UInt8 32
  gamma : ℚ
  threshold : ℚ
  vocabSize : UInt32

structure WatermarkStats where
  detected : Bool
  zScore : ℚ
  greenCount : Nat
  totalCount : Nat
  gamma : ℚ
  threshold : ℚ

/-- The first four bytes of the hash of a buffer of 40 bytes, the last four of
which are never written. -/
def seedFor [Blake3] (key : Vector UInt8 32) (position : UInt32) : UInt32 :=
  let prngSeed := key.toList ++ toLeBytes 4 position.toNat ++ List.replicate 4 0
  UInt32.ofNat (fromLeBytes ((Blake3.hash prngSeed).toList.take 4))

def WatermarkConfig.greenListForPosition [Blake3] (c : WatermarkConfig)
    (position : UInt32) : List UInt32 :=
  let greenSize := toU32 (c.gamma * c.vocabSize.toNat)
  let greenSize := if greenSize < 1 then 1 else greenSize
  let seed := seedFor c.key position
  (List.range greenSize.toNat).map fun i =>
    (seed + UInt32.ofNat i * 0x9E3779B1) % c.vocabSize

/-- 32 steps of Newton's method. -/
def sqrt (x : ℚ) : ℚ :=
  if x ≤ 0 then 0
  else (fun z => (z + x / z) / 2)^[32] (x / 2)

def zScore (n greenCount : Nat) (gamma : ℚ) : ℚ :=
  let expected := n * gamma
  let variance := n * gamma * (1 - gamma)
  if 0 < variance then (greenCount - expected) / sqrt variance else 0

def greenCount [Blake3] (tokens : List UInt32) (cfg : WatermarkConfig) : Nat :=
  tokens.zipIdx.countP fun (tok, i) =>
    tok < cfg.vocabSize &&
      (cfg.greenListForPosition (UInt32.ofNat i)).contains tok

def detectWatermark [Blake3] (tokens : List UInt32) (cfg : WatermarkConfig) :
    Except Str WatermarkStats :=
  if cfg.vocabSize = 0 then
    .error "trustlayer: VocabSize must be > 0".toList
  else if cfg.gamma ≤ 0 ∨ 1 ≤ cfg.gamma then
    .error "trustlayer: Gamma must be in (0, 1)".toList
  else if cfg.threshold ≤ 0 then
    .error "trustlayer: Threshold must be > 0".toList
  else
    let n := tokens.length
    if n = 0 then
      .ok { detected := false, zScore := 0, greenCount := 0, totalCount := n
            gamma := cfg.gamma, threshold := cfg.threshold }
    else
      let greenCount := greenCount tokens cfg
      let z := zScore n greenCount cfg.gamma
      .ok { detected := decide (cfg.threshold < z), zScore := z, greenCount
            totalCount := n, gamma := cfg.gamma, threshold := cfg.threshold }

/-- `Confidence` of a score. -/
noncomputable def confidence (zScore : ℝ) : ℝ :=
  let z := if zScore < 0 then -zScore else zScore
  if 6 ≤ z then 1
  else if 4 ≤ z then 0.99997
  else if 3 ≤ z then 0.9987
  else if 2 ≤ z then 0.9772
  else if 1 ≤ z then 0.8413
  else 1 - 0.8413

end Go

/-! ## WebAssembly -/

namespace Wasm

def byteVocabSize : UInt32 := 256

structure WatermarkDetection where
  detected : Bool
  zScore : ℝ
  greenCount : UInt32
  totalCount : UInt32
  gamma : ℚ
  threshold : ℚ

/-- The texts of the errors, up to the number that each ends with. -/
inductive WasmError where
  | gammaOutside (gamma : ℚ)
  | thresholdNotPositive (threshold : ℚ)

/-- The matches of a loop with an early exit, counted in 32 bits. -/
def greenCount [Blake3] (bytes : List UInt8) (key : Vector UInt8 32)
    (gamma : ℚ) : UInt32 :=
  let greenSize := max (toU32 (gamma * byteVocabSize.toNat)) 1
  bytes.zipIdx.foldl
    (fun count (tok, i) =>
      let seed := Rust.seedFor key (UInt32.ofNat i)
      let found := (List.range greenSize.toNat).any fun j =>
        (seed + UInt32.ofNat j * 0x9E3779B1) % byteVocabSize == tok.toUInt32
      if found then count + 1 else count)
    0

noncomputable def detectWatermarkPure [Blake3] (text : Str)
    (key : Vector UInt8 32) (gamma threshold : ℚ) :
    Except WasmError WatermarkDetection :=
  if gamma ≤ 0 ∨ 1 ≤ gamma then .error (.gammaOutside gamma)
  else if threshold ≤ 0 then .error (.thresholdNotPositive threshold)
  else
    let bytes := utf8Bytes text
    let n := bytes.length
    if n = 0 then
      .ok { detected := false, zScore := 0, greenCount := 0, totalCount := 0
            gamma, threshold }
    else
      let greenCount := greenCount bytes key gamma
      let z := Rust.zScore n greenCount.toNat gamma
      .ok { detected := decide ((threshold : ℝ) < z), zScore := z, greenCount
            totalCount := UInt32.ofNat n, gamma, threshold }

end Wasm

/-! ## Counts -/

def positionOf (entry : UInt32 × Nat) : UInt32 :=
  UInt32.ofNat entry.2

/-- Whether a token is green from a seed. -/
def isGreen (gamma : ℚ) (vocabSize seed : UInt32) (entry : UInt32 × Nat) :
    Bool :=
  (Rust.greenWalk seed vocabSize
    (max (toU32 (gamma * vocabSize.toNat)) 1)).contains entry.1

def greenFrom (gamma : ℚ) (vocabSize : UInt32) (tokens : List UInt32)
    (seeds : UInt32 → UInt32) : Nat :=
  countWith positionOf (isGreen gamma vocabSize) seeds tokens.zipIdx

section

variable [Blake3] {key : Vector UInt8 32} {gamma threshold : ℚ}
  {vocabSize : UInt32} {tokens : List UInt32}

theorem rust_greenCount :
    Rust.greenCount key gamma tokens vocabSize =
      greenFrom gamma vocabSize tokens (Rust.seedFor key) :=
  rfl

theorem go_greenList (positive : 0 < vocabSize) (position : UInt32) :
    Go.WatermarkConfig.greenListForPosition
        { key, gamma, threshold, vocabSize } position =
      Rust.greenWalk (Go.seedFor key position) vocabSize
        (max (toU32 (gamma * vocabSize.toNat)) 1) := by
  have atLeast (size : UInt32) : (if size < 1 then 1 else size) = max size 1 := by
    show _ = if size ≤ 1 then 1 else size
    grind
  simp only [Go.WatermarkConfig.greenListForPosition, Rust.greenWalk,
    max_one positive, atLeast]

theorem go_greenCount (positive : 0 < vocabSize)
    (inside : ∀ tok ∈ tokens, tok < vocabSize) :
    Go.greenCount tokens { key, gamma, threshold, vocabSize } =
      greenFrom gamma vocabSize tokens (Go.seedFor key) := by
  refine List.countP_congr fun entry member => ?_
  have token := inside entry.1 (List.fst_mem_of_mem_zipIdx member)
  simp [go_greenList positive, token, isGreen, positionOf]

end

/-! ## Flags -/

/-- The exact root and the root by Newton's method take the test of a count to
different ends. -/
def RootsDiffer (gamma : ℚ) (n count : Nat) : Prop :=
  4 * √(n * gamma * (1 - gamma) : ℝ) < count - n * gamma ∧
    (count : ℚ) - n * gamma ≤ 4 * Go.sqrt (n * gamma * (1 - gamma))

theorem sqrt_le_step {x z : ℝ} (positive : 0 < z) (nonneg : 0 ≤ x) :
    √x ≤ (z + x / z) / 2 := by
  have root : √x ^ 2 = x := Real.sq_sqrt nonneg
  rw [le_div_iff₀ two_pos, ← sub_nonneg]
  have whole : z + x / z - √x * 2 = (z - √x) ^ 2 / z := by
    field_simp
    linear_combination -root
  rw [whole]
  positivity

/-- Newton's method comes from above. -/
theorem sqrt_le_go_sqrt {x : ℚ} (positive : 0 < x) :
    √(x : ℝ) ≤ Go.sqrt x := by
  have steps : ∀ count, 0 < (fun z => (z + x / z) / 2)^[count] (x / 2) := by
    intro count
    induction count with
    | zero => exact half_pos positive
    | succ count induction =>
        rw [Function.iterate_succ_apply']
        positivity
  rw [Go.sqrt, if_neg positive.not_ge, Function.iterate_succ_apply']
  push_cast
  exact sqrt_le_step (by exact_mod_cast steps 31) (by exact_mod_cast positive.le)

section

variable {gamma : ℚ} {n : Nat} (count : Nat)

theorem variance_pos (nonempty : n ≠ 0) (low : 0 < gamma) (high : gamma < 1) :
    0 < n * gamma * (1 - gamma) := by
  have tokens : (0 : ℚ) < n := Nat.cast_pos.mpr (Nat.pos_of_ne_zero nonempty)
  exact mul_pos (mul_pos tokens low) (sub_pos.mpr high)

theorem go_flag_iff (nonempty : n ≠ 0) (low : 0 < gamma) (high : gamma < 1) :
    4 < Go.zScore n count gamma ↔
      4 * Go.sqrt (n * gamma * (1 - gamma)) < count - n * gamma := by
  have positive := variance_pos nonempty low high
  have root : (0 : ℝ) < Go.sqrt (n * gamma * (1 - gamma)) :=
    (Real.sqrt_pos.mpr (by exact_mod_cast positive)).trans_le
      (sqrt_le_go_sqrt positive)
  simp only [Go.zScore, if_pos positive]
  exact lt_div_iff₀ (by exact_mod_cast root)

theorem rust_flag_iff (nonempty : n ≠ 0) (low : 0 < gamma) (high : gamma < 1) :
    4 < Rust.zScore n count gamma ↔
      4 * √(n * gamma * (1 - gamma) : ℝ) < count - n * gamma := by
  have positive : (0 : ℝ) < n * gamma * (1 - gamma) := by
    exact_mod_cast variance_pos nonempty low high
  have root := Real.sqrt_pos.mpr positive
  simp only [Rust.zScore, if_pos root]
  exact lt_div_iff₀ root

theorem go_zScore_zero (gamma : ℚ) : Go.zScore 0 count gamma = 0 := by
  simp [Go.zScore]

theorem rust_zScore_zero (gamma : ℝ) : Rust.zScore 0 count gamma = 0 := by
  simp [Rust.zScore]

theorem flags_iff (low : 0 < gamma) (high : gamma < 1) :
    (4 < Go.zScore n count gamma ↔ 4 < Rust.zScore n count gamma) ↔
      ¬ RootsDiffer gamma n count := by
  by_cases empty : n = 0
  · subst empty
    refine iff_of_true ?_ ?_
    · rw [go_zScore_zero, rust_zScore_zero]
      norm_num
    · rintro ⟨above, newton⟩
      simp only [Nat.cast_zero, zero_mul, Real.sqrt_zero, mul_zero, sub_zero,
        Go.sqrt, le_refl, if_true] at above newton
      exact (Nat.cast_pos.mp above).not_ge (by exact_mod_cast newton)
  · have positive := variance_pos empty low high
    have above := sqrt_le_go_sqrt positive
    have cast : 4 * Go.sqrt (n * gamma * (1 - gamma)) < count - n * gamma ↔
        4 * (Go.sqrt (n * gamma * (1 - gamma)) : ℝ) < count - n * gamma := by
      exact_mod_cast Iff.rfl
    rw [go_flag_iff count empty low high, rust_flag_iff count empty low high,
      RootsDiffer]
    push_cast at above
    constructor
    · rintro same ⟨exact_, newton⟩
      exact (same.mpr exact_).not_ge newton
    · intro same
      constructor
      · intro newton
        rw [cast] at newton
        linarith
      · intro exact_
        by_contra newton
        exact same ⟨exact_, not_lt.mp newton⟩

end

/-! ## Agreement -/

/-- Go at the threshold of Rust. -/
def goConfig (key : Vector UInt8 32) (gamma : ℚ) (vocabSize : UInt32) :
    Go.WatermarkConfig :=
  { key, gamma, threshold := 4, vocabSize }

def DetectorsAgree [Blake3] (key : Vector UInt8 32) (gamma : ℚ)
    (tokens : List UInt32) (vocabSize : UInt32) : Prop :=
  let rust := Rust.detectTokens key gamma tokens vocabSize
  ∃ go, Go.detectWatermark tokens (goConfig key gamma vocabSize) = .ok go ∧
    go.greenCount = rust.greenCount ∧ go.detected = rust.detected

/-- How many tokens of a position are green does not depend on its seed. -/
def Seedless (gamma : ℚ) (tokens : List UInt32) (vocabSize : UInt32) : Prop :=
  ∀ position seed other,
    countAt positionOf (isGreen gamma vocabSize) position seed tokens.zipIdx =
      countAt positionOf (isGreen gamma vocabSize) position other tokens.zipIdx

section

variable {key : Vector UInt8 32} {gamma : ℚ} {vocabSize : UInt32}
  {tokens : List UInt32}

theorem not_outside (low : 0 < gamma) (high : gamma < 1) :
    ¬ (gamma ≤ 0 ∨ 1 ≤ gamma) := by
  rw [not_or]
  exact ⟨low.not_ge, high.not_ge⟩

theorem go_detect [Blake3] (key : Vector UInt8 32) (tokens : List UInt32)
    (positive : 0 < vocabSize) (low : 0 < gamma)
    (high : gamma < 1) :
    let count := Go.greenCount tokens (goConfig key gamma vocabSize)
    ∃ go, Go.detectWatermark tokens (goConfig key gamma vocabSize) = .ok go ∧
      go.greenCount = count ∧
        (go.detected = true ↔ 4 < Go.zScore tokens.length count gamma) := by
  have vocabulary : vocabSize ≠ 0 := by
    rintro rfl
    exact absurd positive (by decide)
  have fraction := not_outside low high
  have threshold : ¬ (4 : ℚ) ≤ 0 := by norm_num
  rw [Go.detectWatermark]
  simp only [goConfig, vocabulary, fraction, threshold, if_false]
  split_ifs with empty
  · obtain rfl := List.eq_nil_of_length_eq_zero empty
    refine ⟨_, rfl, rfl, ?_⟩
    simp [go_zScore_zero]
  · exact ⟨_, rfl, rfl, decide_eq_true_iff⟩

theorem rust_detect [Blake3] (key : Vector UInt8 32) (gamma : ℚ)
    (tokens : List UInt32) (vocabSize : UInt32) :
    let rust := Rust.detectTokens key gamma tokens vocabSize
    rust.greenCount = Rust.greenCount key gamma tokens vocabSize ∧
      (rust.detected = true ↔
        4 < Rust.zScore tokens.length rust.greenCount gamma) := by
  simp only [Rust.detectTokens]
  split_ifs with empty
  · obtain rfl := List.eq_nil_of_length_eq_zero empty
    refine ⟨rfl, ?_⟩
    simp [rust_zScore_zero]
  · exact ⟨rfl, decide_eq_true_iff⟩

theorem detectorsAgree_iff_counts [Blake3] (positive : 0 < vocabSize)
    (low : 0 < gamma) (high : gamma < 1)
    (inside : ∀ tok ∈ tokens, tok < vocabSize) :
    DetectorsAgree key gamma tokens vocabSize ↔
      greenFrom gamma vocabSize tokens (Go.seedFor key) =
          greenFrom gamma vocabSize tokens (Rust.seedFor key) ∧
        ¬ RootsDiffer gamma tokens.length
          (greenFrom gamma vocabSize tokens (Rust.seedFor key)) := by
  obtain ⟨go, returned, goCount, goFlag⟩ := go_detect key tokens positive low high
  obtain ⟨rustCount, rustFlag⟩ := rust_detect key gamma tokens vocabSize
  rw [goConfig, go_greenCount positive inside] at goCount goFlag
  rw [rustCount, rust_greenCount] at rustFlag
  rw [rust_greenCount] at rustCount
  have agree : DetectorsAgree key gamma tokens vocabSize ↔
      go.greenCount = (Rust.detectTokens key gamma tokens vocabSize).greenCount ∧
        go.detected = (Rust.detectTokens key gamma tokens vocabSize).detected := by
    rw [DetectorsAgree, returned]
    simp
  rw [agree, goCount, rustCount, Bool.eq_iff_iff, goFlag, rustFlag]
  refine and_congr_right fun same => ?_
  rw [same]
  exact flags_iff _ low high

/-! ## Seeds -/

/-- A hash function with seeds of its own for each of the two buffers. -/
@[reducible] def twoSeeds (rust go : UInt32 → UInt32) : Blake3 where
  hash bytes :=
    let position := UInt32.ofNat (fromLeBytes ((bytes.drop 32).take 4))
    seededDigest (if bytes.length = 36 then rust position else go position)

theorem position_of_buffer (key : Vector UInt8 32) (position : UInt32)
    (padding : List UInt8) :
    UInt32.ofNat (fromLeBytes
      (((key.toList ++ toLeBytes 4 position.toNat ++ padding).drop 32).take
        4)) = position := by
  have behind : (key.toList ++ toLeBytes 4 position.toNat ++ padding).drop 32 =
      toLeBytes 4 position.toNat ++ padding := by
    rw [List.append_assoc]
    exact List.drop_left' key.length_toList
  have bytes : (toLeBytes 4 position.toNat ++ padding).take 4 =
      toLeBytes 4 position.toNat :=
    List.take_left' (toLeBytes_length 4 _)
  rw [behind, bytes, fromLeBytes_toLeBytes,
    Nat.mod_eq_of_lt (show position.toNat < 256 ^ 4 from position.toNat_lt)]
  exact UInt32.ofNat_toNat

theorem seed_of_digest (seed : UInt32) :
    UInt32.ofNat (fromLeBytes ((seededDigest seed).toList.take 4)) = seed := by
  rw [fromLeBytes_seededDigest]
  exact UInt32.ofNat_toNat

theorem rust_seedFor_twoSeeds (rust go : UInt32 → UInt32)
    (key : Vector UInt8 32) : @Rust.seedFor (twoSeeds rust go) key = rust := by
  funext position
  have length : (key.toList ++ toLeBytes 4 position.toNat).length = 36 := by
    simp [toLeBytes_length]
  have place := position_of_buffer key position []
  rw [List.append_nil] at place
  show UInt32.ofNat (fromLeBytes ((seededDigest (ite _ _ _)).toList.take 4)) = _
  rw [if_pos length, place]
  exact seed_of_digest _

theorem go_seedFor_twoSeeds (rust go : UInt32 → UInt32)
    (key : Vector UInt8 32) : @Go.seedFor (twoSeeds rust go) key = go := by
  funext position
  have length : (key.toList ++ toLeBytes 4 position.toNat ++
      List.replicate 4 0).length ≠ 36 := by
    simp [toLeBytes_length]
  have place := position_of_buffer key position (List.replicate 4 0)
  show UInt32.ofNat (fromLeBytes ((seededDigest (ite _ _ _)).toList.take 4)) = _
  rw [if_neg length, place]
  exact seed_of_digest _

/-- The detectors agree under every hash function and key where no count
depends on a seed, and the roots do not differ for it. -/
theorem forall_detectorsAgree_iff (positive : 0 < vocabSize)
    (low : 0 < gamma) (high : gamma < 1)
    (inside : ∀ tok ∈ tokens, tok < vocabSize) :
    (∀ (_ : Blake3) key, DetectorsAgree key gamma tokens vocabSize) ↔
      Seedless gamma tokens vocabSize ∧
        ¬ RootsDiffer gamma tokens.length
          (greenFrom gamma vocabSize tokens fun _ => 0) := by
  rw [Seedless, ← countWith_constant_iff]
  constructor
  · intro agree
    have counts : ∀ rust go : UInt32 → UInt32,
        greenFrom gamma vocabSize tokens go =
            greenFrom gamma vocabSize tokens rust ∧
          ¬ RootsDiffer gamma tokens.length
            (greenFrom gamma vocabSize tokens rust) := by
      intro rust go
      let key : Vector UInt8 32 := Vector.replicate 32 0
      have agreed := (@detectorsAgree_iff_counts _ _ _ _ (twoSeeds rust go)
        positive low high inside).mp (agree (twoSeeds rust go) key)
      rwa [rust_seedFor_twoSeeds, go_seedFor_twoSeeds] at agreed
    exact ⟨fun seeds other => (counts other seeds).1,
      (counts (fun _ => 0) fun _ => 0).2⟩
  · rintro ⟨constant, roots⟩ blake3 key
    rw [detectorsAgree_iff_counts positive low high inside]
    refine ⟨constant _ _, ?_⟩
    have same : greenFrom gamma vocabSize tokens (Rust.seedFor key) =
        greenFrom gamma vocabSize tokens fun _ => 0 := constant _ _
    rwa [same]

theorem max_one_pos (size : UInt32) : 0 < max size 1 := by
  show 0 < if size ≤ 1 then 1 else size
  grind

theorem mem_greenWalk_self {tok size : UInt32} (inside : tok < vocabSize)
    (nonempty : 0 < size) : tok ∈ Rust.greenWalk tok vocabSize size := by
  have positive : 0 < vocabSize := by grind
  refine List.mem_map.mpr ⟨0, List.mem_range.mpr ?_, ?_⟩
  · exact UInt32.lt_iff_toNat_lt.mp nonempty
  · rw [max_one positive]
    apply UInt32.toNat_inj.mp
    simpa using Nat.mod_eq_of_lt (UInt32.lt_iff_toNat_lt.mp inside)

/-- Among fewer tokens than there are positions, each has to be green from
every seed. -/
theorem seedless_iff_of_short (inside : ∀ tok ∈ tokens, tok < vocabSize)
    (short : tokens.length ≤ 2 ^ 32) :
    Seedless gamma tokens vocabSize ↔
      ∀ tok ∈ tokens, ∀ seed, tok ∈ Rust.greenWalk seed vocabSize
        (max (toU32 (gamma * vocabSize.toNat)) 1) := by
  constructor
  · intro seedless tok member seed
    obtain ⟨i, bound, rfl⟩ := List.mem_iff_getElem.mp member
    have entry : (tokens[i], i) ∈ tokens.zipIdx :=
      List.mem_zipIdx_iff_getElem?.mpr (List.getElem?_eq_getElem bound)
    have green : 0 < countAt positionOf (isGreen gamma vocabSize)
        (UInt32.ofNat i) tokens[i] tokens.zipIdx := by
      refine List.countP_pos_iff.mpr ⟨_, entry, ?_⟩
      have own := mem_greenWalk_self (inside tokens[i] member)
        (max_one_pos (toU32 (gamma * vocabSize.toNat)))
      simpa [positionOf, isGreen] using own
    rw [seedless _ _ seed] at green
    obtain ⟨⟨other, j⟩, found, holds⟩ := List.countP_pos_iff.mp green
    obtain ⟨inBound, token⟩ := List.mem_zipIdx' found
    simp only [positionOf, isGreen, Bool.and_eq_true,
      List.contains_iff_mem] at holds
    obtain ⟨position, isMember⟩ := holds
    have places := congrArg UInt32.toNat (of_decide_eq_true position)
    rw [UInt32.toNat_ofNat_of_lt' (inBound.trans_le short),
      UInt32.toNat_ofNat_of_lt' (bound.trans_le short)] at places
    subst places
    rwa [token] at isMember
  · intro green position seed other
    refine List.countP_congr fun entry member => ?_
    have always := green entry.1 (List.fst_mem_of_mem_zipIdx member)
    simp [isGreen, always]

/-! ## Confidence -/

/-- The tables agree from 4 on, and both signs of Rust's differ below. -/
theorem confidence_iff (z : ℝ) : Go.confidence z = Rust.confidence z ↔ 4 ≤ z := by
  have magnitude : (if z < 0 then -z else z) = |z| := by
    split_ifs with negative
    · rw [abs_of_neg negative]
    · rw [abs_of_nonneg (not_lt.mp negative)]
  simp only [Go.confidence, Rust.confidence, magnitude]
  rcases le_or_gt 0 z with nonneg | negative
  · rw [if_pos nonneg, abs_of_nonneg nonneg]
    split_ifs <;> norm_num <;> linarith
  · rw [if_neg negative.not_ge, abs_of_neg negative]
    refine iff_of_false ?_ (by linarith)
    split_ifs <;> norm_num

/-! ## Bytes -/

theorem toNat_foldl_count {α : Type} (test : α → Bool) (items : List α)
    (start : UInt32) :
    (items.foldl (fun count item => if test item then count + 1 else count)
      start).toNat = (start.toNat + items.countP test) % 2 ^ 32 := by
  induction items generalizing start with
  | nil => exact (Nat.mod_eq_of_lt start.toNat_lt).symm
  | cons item items induction =>
      rw [List.foldl_cons, induction, List.countP_cons]
      split_ifs with passes
      · rw [UInt32.toNat_add, UInt32.toNat_one]
        omega
      · rfl

variable [Blake3]

theorem wasm_greenCount (bytes : List UInt8) (key : Vector UInt8 32)
    (gamma : ℚ) :
    (Wasm.greenCount bytes key gamma).toNat =
      Rust.greenCount key gamma (bytes.map UInt8.toUInt32) Wasm.byteVocabSize %
        2 ^ 32 := by
  have positive : 0 < Wasm.byteVocabSize := by decide
  rw [Wasm.greenCount, toNat_foldl_count, Rust.greenCount, List.zipIdx_map,
    List.countP_map]
  simp only [UInt32.toNat_zero, Nat.zero_add]
  congr 1
  refine List.countP_congr fun entry _ => ?_
  simp [Rust.KirchenbauerTextWatermark.greenListForPosition, Rust.watermark,
    Rust.greenWalk, max_one positive]

/-- The detector of bytes, at the threshold of Rust. -/
def WasmAgrees (key : Vector UInt8 32) (gamma : ℚ) (text : Str) : Prop :=
  let rust := Rust.detectTokens key gamma
    ((utf8Bytes text).map UInt8.toUInt32) Wasm.byteVocabSize
  ∃ wasm, Wasm.detectWatermarkPure text key gamma 4 = .ok wasm ∧
    wasm.greenCount.toNat = rust.greenCount ∧ wasm.detected = rust.detected

theorem wasm_agrees {key : Vector UInt8 32} {gamma : ℚ} {text : Str}
    (low : 0 < gamma) (high : gamma < 1)
    (short : (utf8Bytes text).length < 2 ^ 32) : WasmAgrees key gamma text := by
  have fraction := not_outside low high
  have threshold : ¬ (4 : ℚ) ≤ 0 := by norm_num
  have counts : (Wasm.greenCount (utf8Bytes text) key gamma).toNat =
      Rust.greenCount key gamma ((utf8Bytes text).map UInt8.toUInt32)
        Wasm.byteVocabSize := by
    rw [wasm_greenCount]
    refine Nat.mod_eq_of_lt (lt_of_le_of_lt List.countP_le_length ?_)
    simpa using short
  rw [WasmAgrees]
  simp only [Wasm.detectWatermarkPure, fraction, threshold, if_false,
    Rust.detectTokens, List.length_map]
  split_ifs with empty
  · exact ⟨_, rfl, rfl, rfl⟩
  · refine ⟨_, rfl, counts, ?_⟩
    simp [counts]

end

/-- The detectors agree exactly where no count depends on a seed and the roots
do not differ for it, and their confidences agree from 4 on.  On bytes the
third detector agrees with Rust's. -/
theorem detectors_iff {gamma : ℚ} {vocabSize : UInt32} {tokens : List UInt32}
    (positive : 0 < vocabSize) (low : 0 < gamma) (high : gamma < 1)
    (inside : ∀ tok ∈ tokens, tok < vocabSize) :
    ((∀ (_ : Blake3) key, DetectorsAgree key gamma tokens vocabSize) ↔
      Seedless gamma tokens vocabSize ∧
        ¬ RootsDiffer gamma tokens.length
          (greenFrom gamma vocabSize tokens fun _ => 0)) ∧
    (∀ z, Go.confidence z = Rust.confidence z ↔ 4 ≤ z) ∧
    ∀ (_ : Blake3) key text, (utf8Bytes text).length < 2 ^ 32 →
      WasmAgrees key gamma text :=
  ⟨forall_detectorsAgree_iff positive low high inside, confidence_iff,
    fun _ _ _ => wasm_agrees low high⟩

/-! ## Vocabularies of one token, and of two -/

theorem toU32_half : toU32 (1 / 2) = 0 := by
  have half : ⌊(1 / 2 : ℚ)⌋₊ = 0 := by
    rw [Nat.floor_eq_zero]
    norm_num
  rw [toU32, half]
  rfl

/-- In a vocabulary of one token everything is green. -/
theorem single_green (seed : UInt32) : Rust.greenWalk seed 1 1 = [0] := by
  have token (sum : UInt32) : sum % 1 = 0 := by
    apply UInt32.toNat_inj.mp
    rw [UInt32.toNat_mod]
    exact Nat.mod_one _
  simp [Rust.greenWalk, token, max_one]

def markedTokens : List UInt32 :=
  List.replicate 64 0

theorem markedTokens_inside : ∀ tok ∈ markedTokens, tok < 1 := by
  intro tok member
  rw [List.eq_of_mem_replicate member]
  decide

theorem marked_green (tok : UInt32) (member : tok ∈ markedTokens)
    (seed : UInt32) :
    tok ∈ Rust.greenWalk seed 1
      (max (toU32 (1 / 2 * ((1 : UInt32).toNat : ℚ))) 1) := by
  rw [List.eq_of_mem_replicate member, UInt32.toNat_one, Nat.cast_one, mul_one,
    toU32_half]
  show 0 ∈ Rust.greenWalk seed 1 1
  rw [single_green]
  exact List.mem_cons_self

theorem marked_seedless : Seedless (1 / 2) markedTokens 1 :=
  (seedless_iff_of_short markedTokens_inside (by decide)).mpr marked_green

theorem marked_count :
    greenFrom (1 / 2) 1 markedTokens (fun _ => 0) = 64 := by
  have whole : markedTokens.zipIdx.length = 64 := by decide
  rw [greenFrom, countWith, ← whole, List.countP_eq_length]
  intro entry member
  have token := List.fst_mem_of_mem_zipIdx member
  exact List.contains_iff_mem.mpr (marked_green entry.1 token 0)

/-- Newton's method for the root of 16 begins with 8, and 5 is next. -/
theorem go_sqrt_le : Go.sqrt 16 ≤ 5 := by
  have step {z : ℚ} (low : 2 ≤ z) (high : z ≤ 8) :
      2 ≤ (z + 16 / z) / 2 ∧ (z + 16 / z) / 2 ≤ 5 := by
    have positive : 0 < z := by linarith
    have quotient : 16 / z ≤ 10 - z := by
      rw [div_le_iff₀ positive]
      nlinarith
    have least : 2 ≤ 16 / z := by
      rw [le_div_iff₀ positive]
      linarith
    constructor <;> linarith
  have steps : ∀ count, 2 ≤ (fun z : ℚ => (z + 16 / z) / 2)^[count] 8 ∧
      (fun z : ℚ => (z + 16 / z) / 2)^[count] 8 ≤ 8 := by
    intro count
    induction count with
    | zero => norm_num
    | succ count induction =>
        rw [Function.iterate_succ_apply']
        obtain ⟨low, high⟩ := step induction.1 induction.2
        exact ⟨low, high.trans (by norm_num)⟩
  have half : (16 / 2 : ℚ) = 8 := by norm_num
  rw [Go.sqrt, if_neg (by norm_num), half, Function.iterate_succ_apply']
  exact (step (steps 31).1 (steps 31).2).2

theorem marked_roots :
    ¬ RootsDiffer (1 / 2) markedTokens.length
      (greenFrom (1 / 2) 1 markedTokens fun _ => 0) := by
  rw [marked_count]
  rintro ⟨-, newton⟩
  have variance : ((markedTokens.length : ℚ) * (1 / 2) * (1 - 1 / 2)) = 16 := by
    norm_num [markedTokens]
  rw [variance] at newton
  have bound := go_sqrt_le
  norm_num [markedTokens] at newton
  linarith

section

/-- A hash function that gives the two buffers the seeds 0 and 1. -/
@[reducible] def zeroAndOne : Blake3 :=
  twoSeeds (fun _ => 0) fun _ => 1

attribute [local instance] zeroAndOne

def sampleKey : Vector UInt8 32 :=
  Vector.replicate 32 7

/-- 64 green tokens out of 64; their score is 8. -/
theorem marked_agrees :
    DetectorsAgree sampleKey (1 / 2) markedTokens 1 ∧
      Go.confidence 8 = Rust.confidence 8 := by
  have agree := detectors_iff (by decide : (0 : UInt32) < 1)
    (by norm_num : (0 : ℚ) < 1 / 2) (by norm_num) markedTokens_inside
  exact ⟨agree.1.mpr ⟨marked_seedless, marked_roots⟩ _ _,
    (agree.2.1 8).mpr (by norm_num)⟩

/-- The four bytes that are never written turn the seed over. -/
theorem half_not_agrees :
    ¬ ∀ (_ : Blake3) key gamma tokens vocabSize, 0 < vocabSize → 0 < gamma →
      gamma < 1 → (∀ tok ∈ tokens, tok < vocabSize) →
        DetectorsAgree key gamma tokens vocabSize := by
  intro agree
  have inside : ∀ tok ∈ [(0 : UInt32)], tok < 2 :=
    List.forall_mem_singleton.mpr (by decide)
  have agrees := agree zeroAndOne sampleKey (1 / 2) [0] 2 (by decide)
    (by norm_num) (by norm_num) inside
  rw [detectorsAgree_iff_counts (by decide) (by norm_num) (by norm_num) inside,
    rust_seedFor_twoSeeds, go_seedFor_twoSeeds] at agrees
  have size : max (toU32 (1 / 2 * ((2 : UInt32).toNat : ℚ))) 1 = 1 := by
    have one : (1 / 2 * ((2 : UInt32).toNat : ℚ)) = 1 := by
      have two : (2 : UInt32).toNat = 2 := rfl
      rw [two]
      norm_num
    rw [toU32, one, Nat.floor_one]
    rfl
  have counts := agrees.1
  simp only [greenFrom, countWith, isGreen, size] at counts
  revert counts
  decide

end

end TrustLayer.Watermark
