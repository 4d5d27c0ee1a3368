import TrustLayer.Library.Rounding
import TrustLayer.Library.StableSort
import TrustLayer.Library.Words
import Mathlib.Algebra.Order.Round
import Mathlib.Data.List.Sigma

/-!
# The token classifier

A text is cut into chunks of words, and each chunk is reduced to its words with
a force token and the longest of the others.
-/

namespace TrustLayer.ThemisCompressor

open TrustLayer.Library
open TrustLayer.Library.BinaryFormat

/-- A finite `f32`. -/
abbrev Single := binary32.Number

def defaultChunkSizeWords : Nat := 160

def defaultForceTokens : List Char := ['.', '!', '?', ',', '\n']

structure CompressionConfig where
  rate : Single
  forceTokens : List Char
  chunkSizeWords : Nat

def CompressionConfig.withRate (rate : Single) : CompressionConfig :=
  { rate
    forceTokens := defaultForceTokens
    chunkSizeWords := defaultChunkSizeWords }

def chunksWithin {α : Type} (size : Nat) : (fuel : Nat) → List α → List (List α)
  | 0, _ => []
  | fuel + 1, items =>
      items.take size :: chunksWithin size fuel (items.drop size)

/-- `chunks`, for a list that is not empty: as many as there are items to
begin one. -/
def chunks {α : Type} (size : Nat) (items : List α) : List (List α) :=
  chunksWithin size ((items.length + size - 1) / size) items

example : chunks 2 [1, 2, 3, 4, 5] = [[1, 2], [3, 4], [5]] := by
  decide

def chunkByWords (text : Str) (chunkSize : Nat) : List Str :=
  if chunkSize = 0 then [text]
  else if splitWhitespace text = [] then [[]]
  else if (splitWhitespace text).length ≤ chunkSize then [text]
  else (chunks chunkSize (splitWhitespace text)).map joinBlank

def isForceWord (forceTokens : List Char) (word : Str) : Bool :=
  word.any fun char => forceTokens.contains char

/-- How many of the words without a force token are kept. -/
def keepCount (rate : Single) (count : Nat) : Nat :=
  (((Number.ofNat 1).sub rate).mul (Number.ofNat count)).roundUsize

-- 0.49 of 50: the product is rounded up to 25.5
example : keepCount (.ofRat (49 / 100)) 50 = 26 := by
  decide +kernel

/-- Longer words go first, and equal ones by position. -/
def Before (first second : Str × Nat) : Prop :=
  byteLen second.1 < byteLen first.1 ∨
    byteLen first.1 = byteLen second.1 ∧ first.2 ≤ second.2

instance : DecidableRel Before := fun _ _ =>
  inferInstanceAs (Decidable (_ ∨ _))

def selectWordsToKeep (originalWords : List Str) (rate : Single)
    (forceTokens : List Char) : List Str :=
  let rate := rate.clamp (.ofNat 0) (.ofNat 1)
  let entries := originalWords.zipIdx
  let forcePositions :=
    (entries.filter fun entry => isForceWord forceTokens entry.1).map Prod.snd
  let nonForce := entries.filter fun entry => !isForceWord forceTokens entry.1
  let keptNonForce :=
    chosenKeys Before Prod.snd (keepCount rate nonForce.length) nonForce
  (entries.filter fun entry =>
    forcePositions.contains entry.2 || keptNonForce.contains entry.2).map
      Prod.fst

def compressText (text : Str) (config : CompressionConfig) : Str :=
  if text = [] then []
  else
    joinBlank ((chunkByWords text config.chunkSizeWords).map fun chunk =>
      joinBlank (selectWordsToKeep (splitWhitespace chunk) config.rate
        config.forceTokens))

/-! ## Chunks -/

theorem chunksWithin_flatten {α : Type} {size fuel : Nat} {items : List α}
    (enough : items.length ≤ fuel * size) :
    (chunksWithin size fuel items).flatten = items := by
  induction fuel generalizing items with
  | zero =>
      rw [Nat.zero_mul, Nat.le_zero, List.length_eq_zero_iff] at enough
      rw [enough]
      rfl
  | succ fuel induction =>
      have fewer : (items.drop size).length ≤ fuel * size := by
        rw [List.length_drop]
        rw [Nat.succ_mul] at enough
        omega
      rw [chunksWithin, List.flatten_cons, induction fewer,
        List.take_append_drop]

theorem length_chunksWithin {α : Type} (size fuel : Nat) (items : List α) :
    (chunksWithin size fuel items).length = fuel := by
  induction fuel generalizing items with
  | zero => rfl
  | succ fuel induction =>
      rw [chunksWithin, List.length_cons, induction]

theorem chunks_flatten {α : Type} {size : Nat} (positive : 0 < size)
    (items : List α) : (chunks size items).flatten = items := by
  apply chunksWithin_flatten
  have divided := Nat.div_add_mod (items.length + size - 1) size
  have rest := Nat.mod_lt (items.length + size - 1) positive
  rw [Nat.mul_comm]
  omega

theorem length_le_of_mem_chunksWithin {α : Type} {size fuel : Nat}
    {items chunk : List α} (member : chunk ∈ chunksWithin size fuel items) :
    chunk.length ≤ size := by
  induction fuel generalizing items with
  | zero => cases member
  | succ fuel induction =>
      rcases List.mem_cons.mp member with rfl | later
      · exact List.length_take_le _ _
      · exact induction later

/-- What is joined into a chunk is words. -/
theorem isWord_of_mem_chunks {text word : Str} {part : List Str} {size : Nat}
    (positive : 0 < size) (inChunks : part ∈ chunks size (splitWhitespace text))
    (inPart : word ∈ part) : IsWord word := by
  have inText : word ∈ splitWhitespace text := by
    rw [← chunks_flatten positive (splitWhitespace text)]
    exact List.mem_flatten_of_mem inChunks inPart
  exact isWord_of_mem inText

/-- The words of the chunks are those of the text. -/
theorem chunkByWords_words (text : Str) (chunkSize : Nat) :
    (chunkByWords text chunkSize).flatMap splitWhitespace =
      splitWhitespace text := by
  rw [chunkByWords]
  split_ifs with zero empty few
  · simp
  · rw [empty]
    rfl
  · simp
  · have positive := Nat.pos_of_ne_zero zero
    have words : ∀ chunk ∈ chunks chunkSize (splitWhitespace text),
        splitWhitespace (joinBlank chunk) = chunk := by
      intro chunk member
      apply splitWhitespace_joinBlank_words
      intro word inChunk
      exact isWord_of_mem_chunks positive member inChunk
    rw [List.flatMap_map, List.flatMap_congr words]
    simpa using chunks_flatten positive (splitWhitespace text)

/-- No chunk has more words than the size. -/
theorem length_le_of_mem_chunkByWords {text : Str} {words : List Str}
    {chunkSize : Nat} (positive : 0 < chunkSize)
    (member : words ∈ (chunkByWords text chunkSize).map splitWhitespace) :
    words.length ≤ chunkSize := by
  obtain ⟨chunk, inChunks, rfl⟩ := List.mem_map.mp member
  rw [chunkByWords, if_neg positive.ne'] at inChunks
  split_ifs at inChunks with empty few
  · obtain rfl := List.mem_singleton.mp inChunks
    exact Nat.zero_le _
  · obtain rfl := List.mem_singleton.mp inChunks
    exact few
  · obtain ⟨part, inParts, rfl⟩ := List.mem_map.mp inChunks
    have areWords : ∀ word ∈ part, IsWord word := fun word inPart =>
      isWord_of_mem_chunks positive inParts inPart
    rw [splitWhitespace_joinBlank_words areWords]
    exact length_le_of_mem_chunksWithin inParts

/-! ## What a selection keeps -/

variable {force : List Char} {words kept : List Str}

/-- The number of words without a force token. -/
def plainCount (force : List Char) (words : List Str) : Nat :=
  (words.filter fun word => !isForceWord force word).length

def forceCount (force : List Char) (words : List Str) : Nat :=
  (words.filter fun word => isForceWord force word).length

/-- The words that are marked: all with a force token, and a number of others,
the longest ones. -/
structure Selects (force : List Char) (count : Nat)
    (marked : List (Str × Bool)) : Prop where
  forced : ∀ entry ∈ marked, isForceWord force entry.1 = true → entry.2 = true
  count : (marked.filter fun entry =>
    entry.2 && !isForceWord force entry.1).length = count
  longest : ∀ long ∈ marked, ∀ short ∈ marked, long.2 = true →
    short.2 = false → isForceWord force long.1 = false →
    byteLen short.1 ≤ byteLen long.1

/-- What is kept of the words. -/
def Keeps (force : List Char) (count : Nat) (words kept : List Str) : Prop :=
  ∃ marked : List (Str × Bool), marked.map Prod.fst = words ∧
    (marked.filter Prod.snd).map Prod.fst = kept ∧ Selects force count marked

theorem Keeps.sublist {count : Nat} (keeps : Keeps force count words kept) :
    kept.Sublist words := by
  obtain ⟨marked, rfl, rfl, -⟩ := keeps
  exact List.filter_sublist.map Prod.fst

theorem Keeps.length {count : Nat} (keeps : Keeps force count words kept) :
    kept.length = forceCount force words + count := by
  obtain ⟨marked, rfl, rfl, selects⟩ := keeps
  have forced : (marked.filter fun entry => isForceWord force entry.1).length =
      forceCount force (marked.map Prod.fst) := by
    rw [forceCount, List.filter_map, List.length_map]
    rfl
  have both : (marked.filter Prod.snd).length =
      (marked.filter fun entry => isForceWord force entry.1).length +
        (marked.filter fun entry =>
          entry.2 && !isForceWord force entry.1).length := by
    have holds := selects.forced
    clear selects forced
    induction marked with
    | nil => rfl
    | cons entry marked induction =>
        rw [List.forall_mem_cons] at holds
        have tail := induction holds.2
        obtain ⟨word, mark⟩ := entry
        have head : isForceWord force word = true → mark = true := holds.1
        cases isForce : isForceWord force word with
        | true =>
            have marks := head isForce
            subst marks
            simp only [List.filter_cons, isForce] at tail ⊢
            simp
            omega
        | false => cases mark <;> simp [isForce] at tail ⊢ <;> omega
  rw [List.length_map, both, forced, selects.count]

/-- The characters of the force tokens stay. -/
theorem Keeps.filter_flatten {count : Nat} (keeps : Keeps force count words kept) :
    kept.flatten.filter (fun char => force.contains char) =
      words.flatten.filter fun char => force.contains char := by
  obtain ⟨marked, rfl, rfl, selects⟩ := keeps
  have holds := selects.forced
  clear selects
  induction marked with
  | nil => rfl
  | cons entry marked induction =>
      rw [List.forall_mem_cons] at holds
      obtain ⟨word, mark⟩ := entry
      have head : isForceWord force word = true → mark = true := holds.1
      rw [List.map_cons, List.flatten_cons, List.filter_append,
        ← induction holds.2, List.filter_cons]
      cases mark with
      | true =>
          rw [if_pos rfl, List.map_cons, List.flatten_cons, List.filter_append]
      | false =>
          have none : word.filter (fun char => force.contains char) = [] := by
            rw [List.filter_eq_nil_iff]
            intro char member isForce
            have forced : isForceWord force word = true :=
              List.any_eq_true.mpr ⟨char, member, isForce⟩
            cases head forced
          rw [if_neg Bool.false_ne_true, none]
          rfl

/-! ## The selection -/

instance : Std.Total Before where
  total first second := by
    unfold Before
    omega

instance : IsTrans (Str × Nat) Before where
  trans first second third := by
    unfold Before
    omega

section

variable {rate : Single} {count : Nat}

/-- The counts that an `f32` holds. -/
def IsExact (count : Nat) : Prop :=
  count ≤ 2 ^ 24

theorem ofNat_value (few : IsExact count) :
    (Number.ofNat count : Single).value = count :=
  nearest_of_holds (holds_natCast few (by decide))

/-- The fraction to keep, of a count that is exact. -/
theorem keepCount_eq (rate : Single) (few : IsExact count) :
    keepCount rate count =
      (round (binary32.nearest
        (binary32.nearest (1 - rate.value) * count))).toNat := by
  have one : (Number.ofNat 1 : Single).value = 1 := by
    rw [ofNat_value (by norm_num [IsExact]), Nat.cast_one]
  change (round (binary32.nearest (binary32.nearest
    ((Number.ofNat 1 : Single).value - rate.value) *
      (Number.ofNat count : Single).value))).toNat = _
  rw [one, ofNat_value few]

theorem round_mono {left right : ℚ} (le : left ≤ right) :
    round left ≤ round right := by
  rw [round_eq, round_eq]
  exact Int.floor_mono (by linarith)

theorem keepCount_le (nonneg : 0 ≤ rate.value) (small : rate.value ≤ 1)
    (few : IsExact count) : keepCount rate count ≤ count := by
  have positive : (0 : ℚ) ≤ count := Nat.cast_nonneg count
  have rest : 0 ≤ 1 - rate.value := by
    linarith
  have one : binary32.Holds ((1 : Nat) : ℚ) := holds_natCast (by decide) (by decide)
  have share : binary32.nearest (1 - rate.value) ≤ (1 : Nat) :=
    nearest_le one rest (by push_cast; linarith)
  have sharePositive := @nearest_nonneg binary32 _ rest
  push_cast at share
  have product : binary32.nearest (binary32.nearest (1 - rate.value) * count) ≤
      count :=
    nearest_le (holds_natCast few (by decide))
      (mul_nonneg sharePositive positive) (mul_le_of_le_one_left positive share)
  have rounded := round_mono product
  rw [round_natCast] at rounded
  rw [keepCount_eq rate few]
  omega

theorem plainCount_zipIdx (words : List Str) :
    (words.zipIdx.filter fun entry => !isForceWord force entry.1).length =
      plainCount force words := by
  have words' : words = words.zipIdx.map Prod.fst := by simp
  rw [plainCount]
  conv_rhs => rw [words']
  rw [List.filter_map, List.length_map]
  rfl

/-- A position belongs to a force word exactly where one stands. -/
theorem mem_forcePositions {entries : List (Str × Nat)} {entry : Str × Nat}
    (distinct : (entries.map Prod.snd).Nodup) (member : entry ∈ entries) :
    entry.2 ∈ (entries.filter fun entry => isForceWord force entry.1).map
        Prod.snd ↔ isForceWord force entry.1 = true := by
  rw [List.mem_map]
  constructor
  · rintro ⟨other, found, same⟩
    obtain ⟨inEntries, isForce⟩ := List.mem_filter.mp found
    rw [← List.inj_on_of_nodup_map distinct inEntries member same]
    exact isForce
  · intro isForce
    exact ⟨entry, List.mem_filter.mpr ⟨member, isForce⟩, rfl⟩

/-- Marks for the force words and the chosen positions. -/
def marks (force : List Char) (chosen : List Nat) (entries : List (Str × Nat)) :
    List (Str × Bool) :=
  entries.map fun entry =>
    (entry.1, isForceWord force entry.1 || chosen.contains entry.2)

theorem marks_selects {entries : List (Str × Nat)} {count : Nat}
    (distinct : (entries.map Prod.snd).Nodup)
    (enough : count ≤
      (entries.filter fun entry => !isForceWord force entry.1).length) :
    Selects force count (marks force (chosenKeys Before Prod.snd count
      (entries.filter fun entry => !isForceWord force entry.1)) entries) := by
  have plain := distinct.sublist (List.filter_sublist
    (p := fun entry : Str × Nat => !isForceWord force entry.1) |>.map Prod.snd)
  generalize chosenAre : chosenKeys Before Prod.snd count
    (entries.filter fun entry => !isForceWord force entry.1) = chosen
  constructor
  · intro entry member isForce
    obtain ⟨other, -, rfl⟩ := List.mem_map.mp member
    exact Bool.or_eq_true_iff.mpr (.inl isForce)
  · have picked := @length_chosen _ Before _ _ Prod.snd count _ _ plain enough
    rw [chosenAre, List.filter_filter] at picked
    rw [marks, List.filter_map, List.length_map, ← picked]
    congr 1
    apply List.filter_congr
    intro entry _
    cases isForce : isForceWord force entry.1 <;> simp [isForce]
  · intro long inLong short inShort kept dropped isPlain
    obtain ⟨first, inFirst, rfl⟩ := List.mem_map.mp inLong
    obtain ⟨second, inSecond, rfl⟩ := List.mem_map.mp inShort
    obtain ⟨notForce, notChosen⟩ := Bool.or_eq_false_iff.mp dropped
    have chose : first.2 ∈ chosen := by
      have isPlain' : isForceWord force first.1 = false := isPlain
      simpa [isPlain'] using kept
    have left : second.2 ∉ chosen := by
      simpa using notChosen
    rw [← chosenAre] at chose left
    have before := chosen_before plain
      (List.mem_filter.mpr ⟨inFirst, by simpa using isPlain⟩)
      (List.mem_filter.mpr ⟨inSecond, by simpa using notForce⟩) chose left
    rcases before with shorter | ⟨same, -⟩
    · exact Nat.le_of_lt shorter
    · exact Nat.le_of_eq same.symm

/-- The loops of the selection mark its words. -/
theorem selectWordsToKeep_keeps (nonneg : 0 ≤ rate.value) (small : rate.value ≤ 1)
    (few : IsExact (plainCount force words)) :
    Keeps force (keepCount rate (plainCount force words)) words
      (selectWordsToKeep words rate force) := by
  have clamped : rate.clamp (.ofNat 0) (.ofNat 1) = rate := by
    apply Number.clamp_of_between
    · rw [ofNat_value (by norm_num [IsExact])]
      exact_mod_cast nonneg
    · rw [ofNat_value (by norm_num [IsExact])]
      exact_mod_cast small
  have distinct := List.nodup_zipIdx_map_snd words
  have enough : keepCount rate (plainCount force words) ≤
      (words.zipIdx.filter fun entry => !isForceWord force entry.1).length := by
    rw [plainCount_zipIdx]
    exact keepCount_le nonneg small few
  refine ⟨_, ?_, ?_, marks_selects distinct enough⟩
  · rw [marks, List.map_map]
    exact List.zipIdx_map_fst 0 words
  · rw [selectWordsToKeep, marks, List.filter_map, List.map_map]
    simp only [clamped, plainCount_zipIdx]
    change List.map Prod.fst _ = List.map Prod.fst _
    congr 1
    apply List.filter_congr
    intro entry member
    have forced := @mem_forcePositions force words.zipIdx entry distinct member
    simp only [Function.comp_apply, ← List.contains_iff_mem] at forced ⊢
    rw [← Bool.eq_iff_iff.mpr forced]

end

end TrustLayer.ThemisCompressor
