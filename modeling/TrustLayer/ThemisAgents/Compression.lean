import TrustLayer.ThemisAgents.Llm
import TrustLayer.ThemisCompressor.Classifier
import Mathlib.Algebra.Order.BigOperators.Group.List

/-!
# Compressed prompts

A backend that compresses the user prompt of a request.  Its rate is the
fraction of words to keep, and that of the compressor the fraction to drop.
-/

namespace TrustLayer.ThemisAgents

open TrustLayer.Library hiding Json
open TrustLayer.Library.BinaryFormat
open TrustLayer.ThemisCompressor

structure CompressionBackend where
  inner : LlmBackend
  config : CompressionConfig

namespace CompressionBackend

def new (inner : LlmBackend) (rate : Single) : CompressionBackend :=
  { inner, config := .withRate rate }

/-- The request that is passed on. -/
def compressedReq (config : CompressionConfig) (req : LlmRequest) : LlmRequest :=
  let compressedUser := compressText req.userPrompt config
  { req with
    userPrompt :=
      if compressedUser = [] then req.userPrompt else compressedUser }

def complete (backend : CompressionBackend) : LlmBackend := fun req =>
  backend.inner (compressedReq backend.config req)

/-! ## The promise -/

/-- A fraction of the words. -/
structure Rate where
  value : ℚ
  nonneg : 0 ≤ value
  le_one : value ≤ 1

/-- The `f32` that a backend is given for a fraction: the nearest one, and the
fraction itself where it is one. -/
def Rate.single (rate : Rate) : Single :=
  .ofRat rate.value

/-- As many words as a fraction to keep asks for. -/
def wantedCount (rate : ℚ) (count : Nat) : Nat :=
  (round (rate * count)).toNat

/-- The chunks of a prompt, by their words. -/
def promptChunks (prompt : Str) : List (List Str) :=
  (chunkByWords prompt defaultChunkSizeWords).map splitWhitespace

/-- Nothing but the user prompt is changed.  Its words stay in order, all force
tokens stay, and each chunk keeps the fraction of its other words, the longest
ones. -/
structure KeepsPromise (rate : Rate) (req passed : LlmRequest) : Prop where
  others : { passed with userPrompt := req.userPrompt } = req
  words : (splitWhitespace passed.userPrompt).Sublist
    (splitWhitespace req.userPrompt)
  forceTokens :
    passed.userPrompt.filter (fun char => defaultForceTokens.contains char) =
      req.userPrompt.filter fun char => defaultForceTokens.contains char
  chunks : ∃ kepts,
    List.Forall₂ (fun chunk kept => Keeps defaultForceTokens
      (wantedCount rate.value (plainCount defaultForceTokens chunk)) chunk kept)
      (promptChunks req.userPrompt) kepts ∧
    splitWhitespace passed.userPrompt = kepts.flatten

/-- A single chunk without force tokens, of which no word would be left. -/
def NothingLeft (rate : Rate) (prompt : Str) : Prop :=
  (splitWhitespace prompt).length ≤ defaultChunkSizeWords ∧
    (∀ word ∈ splitWhitespace prompt,
      isForceWord defaultForceTokens word = false) ∧
    keepCount rate.single (splitWhitespace prompt).length = 0

/-- All words of the prompt are to be kept. -/
def AllWanted (rate : Rate) (prompt : Str) : Prop :=
  wantedCount rate.value (splitWhitespace prompt).length =
    (splitWhitespace prompt).length

/-- In each chunk the two fractions are the same number of words. -/
def SameCounts (rate : Rate) (prompt : Str) : Prop :=
  ∀ chunk ∈ promptChunks prompt,
    keepCount rate.single (plainCount defaultForceTokens chunk) =
      wantedCount rate.value (plainCount defaultForceTokens chunk)

/-! ## Counts -/

section

variable {rate : Rate} {count : Nat}

theorem holds_half : binary32.Holds (1 / 2) :=
  ⟨1, -1, by decide, by decide, by norm_num⟩

theorem holds_count_half (few : IsExact count) :
    binary32.Holds (1 / 2 * count) := by
  refine ⟨count, -1, ?_, by decide, by norm_num; ring⟩
  rw [Nat.abs_cast]
  exact_mod_cast few

theorem single_nonneg (rate : Rate) : 0 ≤ rate.single.value :=
  nearest_nonneg rate.nonneg

theorem single_le_one (rate : Rate) : rate.single.value ≤ 1 := by
  have one : binary32.Holds ((1 : Nat) : ℚ) := holds_natCast (by decide) (by decide)
  exact_mod_cast nearest_le one rate.nonneg (by exact_mod_cast rate.le_one)

/-- A rate up to one half drops no more than half of the words. -/
theorem wantedCount_le_keepCount (low : rate.value ≤ 1 / 2)
    (few : IsExact count) :
    wantedCount rate.value count ≤ keepCount rate.single count := by
  have positive : (0 : ℚ) ≤ count := Nat.cast_nonneg count
  have single : rate.single.value ≤ 1 / 2 :=
    nearest_le holds_half rate.nonneg low
  have share : 1 / 2 ≤ binary32.nearest (1 - rate.single.value) :=
    le_nearest holds_half (by norm_num) (by linarith)
  have product : 1 / 2 * (count : ℚ) ≤
      binary32.nearest (binary32.nearest (1 - rate.single.value) * count) :=
    le_nearest (holds_count_half few) (by positivity)
      (mul_le_mul_of_nonneg_right share positive)
  rw [keepCount_eq _ few]
  exact Int.toNat_le_toNat (round_mono
    ((mul_le_mul_of_nonneg_right low positive).trans product))

/-- A greater rate keeps no more than half of them. -/
theorem keepCount_le_wantedCount (high : 1 / 2 ≤ rate.value)
    (few : IsExact count) :
    keepCount rate.single count ≤ wantedCount rate.value count := by
  have positive : (0 : ℚ) ≤ count := Nat.cast_nonneg count
  have single : 1 / 2 ≤ rate.single.value :=
    le_nearest holds_half (by norm_num) high
  have rest : 0 ≤ 1 - rate.single.value := by
    linarith [single_le_one rate]
  have share : binary32.nearest (1 - rate.single.value) ≤ 1 / 2 :=
    nearest_le holds_half rest (by linarith)
  have product :
      binary32.nearest (binary32.nearest (1 - rate.single.value) * count) ≤
        1 / 2 * (count : ℚ) :=
    nearest_le (holds_count_half few)
      (mul_nonneg (nearest_nonneg rest) positive)
      (mul_le_mul_of_nonneg_right share positive)
  rw [keepCount_eq _ few]
  exact Int.toNat_le_toNat (round_mono
    (product.trans (mul_le_mul_of_nonneg_right high positive)))

end

/-! ## The chunks of a prompt -/

section

variable {prompt : Str}

theorem promptChunks_of_le
    (few : (splitWhitespace prompt).length ≤ defaultChunkSizeWords) :
    promptChunks prompt = [splitWhitespace prompt] := by
  rw [promptChunks, chunkByWords, if_neg (by decide)]
  split_ifs with empty
  · rw [empty]
    rfl
  · rfl

/-- A longer prompt is more than one chunk. -/
theorem two_le_length_promptChunks
    (many : defaultChunkSizeWords < (splitWhitespace prompt).length) :
    2 ≤ (promptChunks prompt).length := by
  have nonempty : splitWhitespace prompt ≠ [] := by
    intro empty
    rw [empty] at many
    exact Nat.not_lt_zero _ many
  rw [promptChunks, chunkByWords, if_neg (by decide), if_neg nonempty,
    if_neg (Nat.not_le_of_lt many), List.length_map, List.length_map, chunks,
    length_chunksWithin, Nat.le_div_iff_mul_le (by decide)]
  omega

/-- Every chunk has so few words that their number is exact. -/
theorem isExact_plainCount {chunk : List Str}
    (member : chunk ∈ promptChunks prompt) :
    IsExact (plainCount defaultForceTokens chunk) := by
  have short := length_le_of_mem_chunkByWords (by decide) member
  have fewer : plainCount defaultForceTokens chunk ≤ chunk.length :=
    List.length_filter_le _ _
  exact fewer.trans (short.trans (by decide))

theorem isWord_of_mem_promptChunks {chunk : List Str} {word : Str}
    (member : chunk ∈ promptChunks prompt) (inChunk : word ∈ chunk) :
    IsWord word := by
  obtain ⟨text, -, rfl⟩ := List.mem_map.mp member
  exact isWord_of_mem inChunk

theorem promptChunks_flatten (prompt : Str) :
    (promptChunks prompt).flatten = splitWhitespace prompt := by
  rw [promptChunks, ← List.flatMap_def]
  exact chunkByWords_words prompt defaultChunkSizeWords

end

/-! ## The compressed text -/

section

variable {rate : Rate} {prompt : Str}

/-- The words that are kept of each chunk. -/
def keptWords (rate : Rate) (prompt : Str) : List (List Str) :=
  (promptChunks prompt).map fun chunk =>
    selectWordsToKeep chunk rate.single defaultForceTokens

theorem compressText_withRate (rate : Rate) (prompt : Str) :
    compressText prompt (.withRate rate.single) =
      joinBlank ((keptWords rate prompt).map joinBlank) := by
  rw [compressText, keptWords, promptChunks, List.map_map, List.map_map]
  split_ifs with empty
  · rw [empty]
    rfl
  · rfl

/-- What is kept of a chunk, with the number of its words. -/
theorem keptWords_keeps (rate : Rate) (prompt : Str) :
    List.Forall₂ (fun chunk kept => Keeps defaultForceTokens
      (keepCount rate.single (plainCount defaultForceTokens chunk)) chunk kept)
      (promptChunks prompt) (keptWords rate prompt) := by
  rw [keptWords, List.forall₂_map_right_iff, List.forall₂_same]
  intro chunk member
  exact selectWordsToKeep_keeps (single_nonneg rate) (single_le_one rate)
    (isExact_plainCount member)

theorem isWord_of_mem_keptWords {kept : List Str} {word : Str}
    (member : kept ∈ keptWords rate prompt) (inKept : word ∈ kept) :
    IsWord word := by
  obtain ⟨chunk, inChunks, rfl⟩ := List.mem_map.mp member
  have keeps := selectWordsToKeep_keeps (single_nonneg rate) (single_le_one rate)
    (isExact_plainCount inChunks)
  exact isWord_of_mem_promptChunks inChunks (keeps.sublist.subset inKept)

theorem splitWhitespace_compressText (rate : Rate) (prompt : Str) :
    splitWhitespace (compressText prompt (.withRate rate.single)) =
      (keptWords rate prompt).flatten := by
  rw [compressText_withRate, splitWhitespace_joinBlank, List.flatMap_map,
    List.flatten_eq_flatMap]
  apply List.flatMap_congr
  intro kept member
  apply splitWhitespace_joinBlank_words
  intro word inKept
  exact isWord_of_mem_keptWords member inKept

theorem plainCount_of_none {force : List Char} {words : List Str}
    (none : ∀ word ∈ words, isForceWord force word = false) :
    plainCount force words = words.length := by
  rw [plainCount, List.filter_eq_self.mpr]
  intro word member
  rw [none word member]
  rfl

/-- The text is empty only for a single chunk that keeps nothing. -/
theorem compressText_eq_nil_iff :
    compressText prompt (.withRate rate.single) = [] ↔
      NothingLeft rate prompt := by
  rcases Nat.lt_or_ge defaultChunkSizeWords (splitWhitespace prompt).length
    with many | few
  · have two := two_le_length_promptChunks many
    rw [compressText_withRate]
    constructor
    · intro empty
      have length : (keptWords rate prompt).length =
          (promptChunks prompt).length := List.length_map _
      rw [← length] at two
      match chunks : keptWords rate prompt with
      | [] | [_] =>
          simp [chunks] at two
      | first :: second :: rest =>
          rw [chunks] at empty
          simp [joinBlank] at empty
    · rintro ⟨few, -⟩
      omega
  · have single : keptWords rate prompt =
        [selectWordsToKeep (splitWhitespace prompt) rate.single
          defaultForceTokens] := by
      rw [keptWords, promptChunks_of_le few]
      rfl
    have member : splitWhitespace prompt ∈ promptChunks prompt := by
      rw [promptChunks_of_le few]
      exact List.mem_singleton_self _
    have keeps := selectWordsToKeep_keeps (single_nonneg rate)
      (single_le_one rate) (isExact_plainCount member)
    have areWords : ∀ word ∈ selectWordsToKeep (splitWhitespace prompt)
        rate.single defaultForceTokens, IsWord word :=
      fun word member => isWord_of_mem (keeps.sublist.subset member)
    rw [compressText_withRate, single, List.map_singleton,
      joinBlank, List.intercalate_singleton, joinBlank_eq_nil_iff areWords,
      ← List.length_eq_zero_iff, keeps.length, Nat.add_eq_zero_iff]
    constructor
    · rintro ⟨noForce, noOther⟩
      have none : ∀ word ∈ splitWhitespace prompt,
          isForceWord defaultForceTokens word = false := by
        simpa [forceCount, List.filter_eq_nil_iff] using noForce
      rw [plainCount_of_none none] at noOther
      exact ⟨few, none, noOther⟩
    · rintro ⟨-, none, noOther⟩
      rw [plainCount_of_none none]
      refine ⟨?_, noOther⟩
      simpa [forceCount, List.filter_eq_nil_iff] using none

/-- A line end is never in the text: all parts are joined by blanks. -/
theorem newline_not_mem_compressText :
    '\n' ∉ compressText prompt (.withRate rate.single) := by
  rw [compressText_withRate]
  intro member
  obtain blank | ⟨part, inParts, inPart⟩ := mem_intercalate member
  · cases blank
  obtain ⟨kept, inKepts, rfl⟩ := List.mem_map.mp inParts
  obtain blank | ⟨word, inKept, inWord⟩ := mem_intercalate inPart
  · cases blank
  have isWord := isWord_of_mem_keptWords inKepts inKept
  cases isWord.visible '\n' inWord

/-- Without line ends, all force tokens of a text are in its words. -/
theorem filter_force {text : Str} (single : '\n' ∉ text) :
    text.filter (fun char => defaultForceTokens.contains char) =
      (splitWhitespace text).flatten.filter fun char =>
        defaultForceTokens.contains char := by
  rw [flatten_splitWhitespace, List.filter_filter]
  apply List.filter_congr
  intro char member
  cases isForce : defaultForceTokens.contains char with
  | false => rfl
  | true =>
      have visible : isWhitespace char = false := by
        rw [List.contains_iff_mem] at isForce
        simp only [defaultForceTokens, List.mem_cons, List.not_mem_nil] at isForce
        rcases isForce with rfl | rfl | rfl | rfl | rfl | absent
        · decide
        · decide
        · decide
        · decide
        · exact absurd member single
        · exact absent.elim
      rw [visible]
      rfl

/-- Chunks that keep their force tokens, all together. -/
theorem filter_flatten_keeps {count : List Str → Nat} {chunks kepts : List (List Str)}
    (keeps : List.Forall₂ (fun chunk kept =>
      Keeps defaultForceTokens (count chunk) chunk kept) chunks kepts) :
    kepts.flatten.flatten.filter (fun char => defaultForceTokens.contains char) =
      chunks.flatten.flatten.filter fun char =>
        defaultForceTokens.contains char := by
  induction keeps with
  | nil => rfl
  | cons head _ induction =>
      simp only [List.flatten_cons, List.flatten_append, List.filter_append]
      rw [head.filter_flatten, induction]

theorem sublist_flatten_keeps {count : List Str → Nat} {chunks kepts : List (List Str)}
    (keeps : List.Forall₂ (fun chunk kept =>
      Keeps defaultForceTokens (count chunk) chunk kept) chunks kepts) :
    kepts.flatten.Sublist chunks.flatten := by
  induction keeps with
  | nil => exact .slnil
  | cons head _ induction => exact head.sublist.append induction

/-- How many words are kept in all. -/
theorem length_flatten_keeps {count : List Str → Nat} {chunks kepts : List (List Str)}
    (keeps : List.Forall₂ (fun chunk kept =>
      Keeps defaultForceTokens (count chunk) chunk kept) chunks kepts) :
    kepts.flatten.length =
      (chunks.map (forceCount defaultForceTokens)).sum +
        (chunks.map count).sum := by
  induction keeps with
  | nil => rfl
  | cons head _ induction =>
      rw [List.flatten_cons, List.length_append, head.length, induction]
      simp only [List.map_cons, List.sum_cons]
      omega

/-- The force tokens stay exactly where the prompt is a single line. -/
theorem filter_compressText_iff :
    (compressText prompt (.withRate rate.single)).filter
        (fun char => defaultForceTokens.contains char) =
      prompt.filter (fun char => defaultForceTokens.contains char) ↔
        '\n' ∉ prompt := by
  have absent : '\n' ∉ compressText prompt (.withRate rate.single) :=
    newline_not_mem_compressText
  constructor
  · intro same newline
    have kept : '\n' ∈ prompt.filter fun char =>
        defaultForceTokens.contains char :=
      List.mem_filter.mpr ⟨newline, by decide⟩
    rw [← same] at kept
    exact absent (List.mem_filter.mp kept).1
  · intro single
    rw [filter_force absent, filter_force single,
      splitWhitespace_compressText,
      filter_flatten_keeps (keptWords_keeps rate prompt),
      promptChunks_flatten]

/-! ## Which chunks are right -/

/-- Of two counts, one at least the other for every chunk, the sums are equal
only where all counts are. -/
theorem counts_eq_of_sum_eq {α : Type} {first second : α → Nat} {items : List α}
    (le : ∀ item ∈ items, first item ≤ second item)
    (sums : (items.map first).sum = (items.map second).sum) :
    ∀ item ∈ items, first item = second item := by
  induction items with
  | nil =>
      intro item member
      cases member
  | cons item items induction =>
      rw [List.forall_mem_cons] at le ⊢
      have rest : (items.map first).sum ≤ (items.map second).sum :=
        List.sum_le_sum le.2
      have here := le.1
      simp only [List.map_cons, List.sum_cons] at sums
      refine ⟨by omega, induction le.2 ?_⟩
      omega

/-- The kept words are those of both fractions only where these agree. -/
theorem sameCounts_of_length
    (sums : ((promptChunks prompt).map fun chunk =>
        keepCount rate.single (plainCount defaultForceTokens chunk)).sum =
      ((promptChunks prompt).map fun chunk =>
        wantedCount rate.value (plainCount defaultForceTokens chunk)).sum) :
    SameCounts rate prompt := by
  rcases le_total rate.value (1 / 2) with low | high
  · intro chunk member
    apply Eq.symm
    apply counts_eq_of_sum_eq (fun chunk inChunks => ?_) sums.symm chunk member
    exact wantedCount_le_keepCount low (isExact_plainCount inChunks)
  · apply counts_eq_of_sum_eq (fun chunk inChunks => ?_) sums
    exact keepCount_le_wantedCount high (isExact_plainCount inChunks)

theorem chunks_compressText_iff :
    (∃ kepts, List.Forall₂ (fun chunk kept => Keeps defaultForceTokens
        (wantedCount rate.value (plainCount defaultForceTokens chunk)) chunk kept)
        (promptChunks prompt) kepts ∧
      splitWhitespace (compressText prompt (.withRate rate.single)) =
        kepts.flatten) ↔
      SameCounts rate prompt := by
  have keeps := keptWords_keeps rate prompt
  rw [splitWhitespace_compressText]
  constructor
  · rintro ⟨kepts, wanted, same⟩
    apply sameCounts_of_length
    have ours := @length_flatten_keeps
      (fun chunk => keepCount rate.single (plainCount defaultForceTokens chunk))
      _ _ keeps
    have theirs := @length_flatten_keeps
      (fun chunk => wantedCount rate.value (plainCount defaultForceTokens chunk))
      _ _ wanted
    rw [same, theirs] at ours
    omega
  · intro same
    refine ⟨_, ?_, rfl⟩
    rw [List.forall₂_iff_get] at keeps ⊢
    refine ⟨keeps.1, fun index inChunks inKepts => ?_⟩
    rw [← same _ (List.get_mem _ _)]
    exact keeps.2 index inChunks inKepts

end

/-! ## The request that is passed on -/

/-- All words are kept of a chunk without force tokens. -/
theorem keeps_all {words : List Str}
    (none : ∀ word ∈ words, isForceWord defaultForceTokens word = false) :
    Keeps defaultForceTokens words.length words words := by
  refine ⟨words.map fun word => (word, true), ?_, ?_, ?_, ?_, ?_⟩
  · rw [List.map_map]
    exact List.map_id words
  · rw [List.filter_map, List.map_map]
    simp [Function.comp_def]
  · intro entry member _
    obtain ⟨word, -, rfl⟩ := List.mem_map.mp member
    rfl
  · rw [List.filter_map, List.length_map, List.filter_eq_self.mpr]
    intro word member
    simpa using none word member
  · intro long _ short inShort _ dropped
    obtain ⟨word, -, rfl⟩ := List.mem_map.mp inShort
    cases dropped

/-- A prompt that is passed on as it is keeps the promise where all of its words
are to be kept. -/
theorem keepsPromise_self_iff {rate : Rate} {req : LlmRequest}
    (nothing : NothingLeft rate req.userPrompt) :
    KeepsPromise rate req req ↔ AllWanted rate req.userPrompt := by
  obtain ⟨few, none, -⟩ := nothing
  have single := promptChunks_of_le few
  have plain := plainCount_of_none none
  constructor
  · intro promise
    obtain ⟨kepts, wanted, same⟩ := promise.chunks
    have length := @length_flatten_keeps
      (fun chunk => wantedCount rate.value (plainCount defaultForceTokens chunk))
      _ _ wanted
    have noForce : forceCount defaultForceTokens
        (splitWhitespace req.userPrompt) = 0 := by
      simpa [forceCount, List.filter_eq_nil_iff] using none
    rw [← same, single] at length
    simp only [List.map_singleton, List.sum_singleton, plain, noForce,
      Nat.zero_add] at length
    exact length.symm
  · intro all
    refine ⟨rfl, .refl _, rfl, [splitWhitespace req.userPrompt], ?_, by simp⟩
    rw [single, List.forall₂_cons]
    refine ⟨?_, .nil⟩
    rw [plain, all]
    exact keeps_all none

/-- What is passed on is what was promised exactly where nothing was left of the
prompt, which is then passed as it is, and all of it was to be kept, or where the
prompt is a single line and each chunk has as many words to keep as are kept. -/
theorem new_complete_promise_iff (rate : Rate) (req : LlmRequest) :
    ∃ passed,
      (∀ inner, (new inner rate.single).complete req = inner passed) ∧
      (KeepsPromise rate req passed ↔
        NothingLeft rate req.userPrompt ∧ AllWanted rate req.userPrompt ∨
          ¬ NothingLeft rate req.userPrompt ∧ '\n' ∉ req.userPrompt ∧
            SameCounts rate req.userPrompt) := by
  refine ⟨compressedReq (.withRate rate.single) req, fun _ => rfl, ?_⟩
  have empty := @compressText_eq_nil_iff rate req.userPrompt
  by_cases nothing : NothingLeft rate req.userPrompt
  · have passed : compressedReq (.withRate rate.single) req = req := by
      rw [compressedReq, if_pos (empty.mpr nothing)]
    rw [passed, keepsPromise_self_iff nothing]
    simp [nothing]
  · have passed : compressedReq (.withRate rate.single) req =
        { req with userPrompt :=
            compressText req.userPrompt (.withRate rate.single) } := by
      rw [compressedReq, if_neg (fun none => nothing (empty.mp none))]
    have single := @filter_compressText_iff rate req.userPrompt
    have same := @chunks_compressText_iff rate req.userPrompt
    rw [passed, ← single, ← same]
    simp only [nothing, false_and, not_false_eq_true, true_and, false_or]
    constructor
    · intro promise
      exact ⟨promise.forceTokens, promise.chunks⟩
    · rintro ⟨forceTokens, chunks⟩
      refine ⟨rfl, ?_, forceTokens, chunks⟩
      rw [splitWhitespace_compressText, ← promptChunks_flatten]
      exact sublist_flatten_keeps (keptWords_keeps rate _)

def quarter : Rate where
  value := 1 / 4
  nonneg := by norm_num
  le_one := by norm_num

def fourWords : LlmRequest where
  systemPrompt := []
  userPrompt := "a bb ccc dddd".toList
  maxTokens := 0
  temperature := ⟨0⟩
  seed := none
  responseSchema := none
  responseSchemaName := none

/-- A quarter of four words is three of them. -/
theorem quarter_of_fourWords :
    ∃ passed,
      (∀ inner, (new inner quarter.single).complete fourWords = inner passed) ∧
      passed.userPrompt = "bb ccc dddd".toList ∧
      ¬ KeepsPromise quarter fourWords passed := by
  refine ⟨compressedReq (.withRate quarter.single) fourWords, fun _ => rfl,
    by decide +kernel, fun promise => ?_⟩
  have compressed :
      (compressedReq (.withRate quarter.single) fourWords).userPrompt =
        compressText fourWords.userPrompt (.withRate quarter.single) := by
    decide +kernel
  have chunks := promise.chunks
  rw [compressed, chunks_compressText_iff] at chunks
  have few : (splitWhitespace fourWords.userPrompt).length ≤
      defaultChunkSizeWords := by
    decide +kernel
  have counts := chunks (splitWhitespace fourWords.userPrompt)
    (by rw [promptChunks_of_le few]; exact List.mem_singleton_self _)
  revert counts
  decide +kernel

end CompressionBackend

end TrustLayer.ThemisAgents
