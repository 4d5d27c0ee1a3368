import TrustLayer.AgentGuard.Config
import TrustLayer.Library.Glob

/-!
# The patterns of the allow-list

A pattern with a star is meant for the whole text.  The search settles on the
shortest text of the pattern, and looks for the end of the text afterwards.
-/

namespace TrustLayer.AgentGuard

open TrustLayer.Library

/-! ## The search of a pattern -/

theorem globRest_eq (parts : List Str) (text : Str) :
    globRest parts text = search parts text := by
  induction parts generalizing text with
  | nil => rfl
  | cons part parts induction =>
      rw [globRest, search]
      cases splitFirst part text with
      | none => rfl
      | some found => exact induction found.2

theorem splitFirst_front {char : Char} {piece behind : Str} :
    splitFirst (char :: piece) (char :: piece ++ behind) =
      some ([], behind) := by
  have starts : (char :: piece).isPrefixOf (char :: piece ++ behind) = true :=
    List.isPrefixOf_iff_prefix.mpr (List.prefix_append _ _)
  rw [List.cons_append] at starts ⊢
  rw [splitFirst, if_pos starts, ← List.cons_append, List.drop_left]

/-- What the parts and the start anchor leave of the text. -/
def globLeft (pattern text : Str) : Option Str :=
  searchFront (pattern.splitOn '*') text

/-- The first piece is empty exactly behind a leading star. -/
theorem splitOn_eq_cons {pattern piece : Str} {pieces : List Str}
    (starred : '*' ∈ pattern) (split : pattern.splitOn '*' = piece :: pieces) :
    pattern.head? = some '*' ↔ piece = [] := by
  cases pattern with
  | nil => cases starred
  | cons char pattern =>
      rw [List.splitOn_cons_eq_if_modifyHead] at split
      rw [List.head?_cons, Option.some.injEq]
      by_cases isStar : char = '*'
      · rw [if_pos (by simpa using isStar)] at split
        exact iff_of_true isStar (List.cons.inj split).1.symm
      · rw [if_neg (by simpa using isStar)] at split
        refine iff_of_false isStar ?_
        cases later : pattern.splitOn '*' with
        | nil => exact absurd later (List.splitOn_ne_nil '*' pattern)
        | cons first rest =>
            rw [later, List.modifyHead_cons] at split
            rw [← (List.cons.inj split).1]
            exact List.cons_ne_nil char first

/-- A pattern of stars only ends in one. -/
theorem getLast?_of_pieces_nil {pattern : Str} (nonempty : pattern ≠ [])
    (empty : ∀ piece ∈ pattern.splitOn '*', piece = []) :
    pattern.getLast? = some '*' := by
  have stars := forall_splitOn_eq_nil_iff.mp empty
  rw [List.getLast?_eq_some_getLast nonempty,
    stars _ (List.getLast_mem nonempty)]

/-- Behind a leading star the pieces are searched for from the start. -/
theorem globMatch_of_star {pattern : Str} {pieces : List Str}
    (starred : '*' ∈ pattern) (split : pattern.splitOn '*' = [] :: pieces)
    (text : Str) :
    globMatch pattern text = true ↔
      ∃ rest, search pieces text = some rest ∧
        (pattern.getLast? = some '*' ∨ rest = []) := by
  have start := (splitOn_eq_cons starred split).mpr rfl
  have skipped : (([] : Str) :: pieces).filter (fun part => !part.isEmpty) =
      pieces.filter fun part => !part.isEmpty :=
    List.filter_cons_of_neg (by simp)
  rw [globMatch, if_neg (not_not.mpr starred)]
  simp only [splitChar, split]
  rw [skipped, ← @search_filter pieces text]
  cases filtered : pieces.filter fun part => !part.isEmpty with
  | nil =>
      have empty : ∀ piece ∈ pattern.splitOn '*', piece = [] := by
        rw [split]
        intro piece member
        rcases List.mem_cons.mp member with rfl | later
        · rfl
        · simpa using List.filter_eq_nil_iff.mp filtered piece later
      have ends := getLast?_of_pieces_nil (List.ne_nil_of_mem starred) empty
      exact iff_of_true rfl ⟨text, rfl, .inl ends⟩
  | cons part parts =>
      simp only [start, search, globRest_eq]
      cases splitFirst part text with
      | none => simp only [reduceCtorEq, false_and, exists_false]
      | some found =>
          rcases found with ⟨before, behind⟩
          simp only
          cases search parts behind <;> simp

/-- A first piece has to stand in front of the text. -/
theorem globMatch_of_piece {pattern piece : Str} {pieces : List Str}
    (starred : '*' ∈ pattern) (nonempty : piece ≠ [])
    (split : pattern.splitOn '*' = piece :: pieces) (text : Str) :
    globMatch pattern text = true ↔
      ∃ rest, searchFront (piece :: pieces) text = some rest ∧
        (pattern.getLast? = some '*' ∨ rest = []) := by
  have start : pattern.head? ≠ some '*' :=
    mt (splitOn_eq_cons starred split).mp nonempty
  rw [globMatch, if_neg (not_not.mpr starred)]
  simp only [splitChar, split]
  rw [List.filter_cons_of_pos (by simpa using nonempty), searchFront]
  simp only [globRest_eq, search_filter]
  cases stripped : stripPrefix piece text with
  | none =>
      cases found : splitFirst piece text with
      | none => simp
      | some pair =>
          obtain ⟨before, behind⟩ := pair
          have away : before ≠ [] := by
            intro none
            have front : text = before ++ piece ++ behind :=
              splitFirst_sound found
            rw [none, List.nil_append] at front
            rw [stripPrefix_eq_some_iff.mpr front] at stripped
            cases stripped
          simp [start, away]
  | some behind =>
      have front := stripPrefix_eq_some_iff.mp stripped
      obtain ⟨char, piece, rfl⟩ := List.exists_cons_of_ne_nil nonempty
      rw [front, splitFirst_front]
      simp only [ne_eq, not_true_eq_false, and_false, if_false]
      cases search pieces behind <;> simp

/-- The matcher is the front search, with an end anchor unless the pattern
ends in a star. -/
theorem globMatch_eq {pattern : Str} (starred : '*' ∈ pattern) (text : Str) :
    globMatch pattern text = true ↔
      ∃ rest, globLeft pattern text = some rest ∧
        (pattern.getLast? = some '*' ∨ rest = []) := by
  rw [globLeft]
  cases split : pattern.splitOn '*' with
  | nil => exact absurd split (List.splitOn_ne_nil '*' pattern)
  | cons piece pieces =>
      by_cases none : piece = []
      · subst none
        have whole : stripPrefix [] text = some text :=
          stripPrefix_eq_some_iff.mpr rfl
        rw [searchFront, whole]
        exact globMatch_of_star starred split text
      · exact globMatch_of_piece starred none split text

/-! ## The whole text -/

/-- What stands behind the last star. -/
def lastPiece (pattern : Str) : Str :=
  pattern.rtakeWhile fun char => char != '*'

theorem exists_lastPiece {pattern : Str} (starred : '*' ∈ pattern) :
    ∃ front, pattern = front ++ '*' :: lastPiece pattern ∧
      '*' ∉ lastPiece pattern := by
  have parts := @List.rdropWhile_append_rtakeWhile _
    (fun char => char != '*') pattern
  have free : '*' ∉ lastPiece pattern := by
    intro member
    have other := List.mem_rtakeWhile_imp member
    simp at other
  have nonempty : pattern.rdropWhile (fun char => char != '*') ≠ [] := by
    intro empty
    rw [empty, List.nil_append] at parts
    apply free
    rw [lastPiece, parts]
    exact starred
  have last := List.rdropWhile_last_not (fun char => char != '*') pattern
    nonempty
  refine ⟨(pattern.rdropWhile fun char => char != '*').dropLast, ?_, free⟩
  have isStar : (pattern.rdropWhile fun char => char != '*').getLast nonempty =
      '*' := by
    simpa using last
  have split := List.dropLast_append_getLast nonempty
  rw [isStar] at split
  calc
    pattern = pattern.rdropWhile (fun char => char != '*') ++
        lastPiece pattern := parts.symm
    _ = (pattern.rdropWhile fun char => char != '*').dropLast ++ ['*'] ++
        lastPiece pattern := by rw [split]
    _ = _ := List.append_assoc _ _ _

/-- A pattern that ends in a star needs no end of the text. -/
theorem globMatch_of_lastPiece_nil {pattern : Str} (starred : '*' ∈ pattern)
    (unanchored : lastPiece pattern = []) (text : Str) :
    globMatch pattern text = true ↔ Expands '*' pattern text := by
  obtain ⟨front, same, -⟩ := exists_lastPiece starred
  rw [unanchored] at same
  have ends : pattern.getLast? = some '*' := by
    rw [same, List.getLast?_append]
    rfl
  rw [globMatch_eq starred]
  simp only [ends, true_or, and_true]
  rw [same, expands_iff_exists_leads, ← isSome_searchFront_iff,
    Option.isSome_iff_exists, globLeft]

/-- With a last piece, the matcher accepts the text that is the shortest of
its prefixes. -/
theorem globMatch_of_lastPiece {pattern : Str} (starred : '*' ∈ pattern)
    (anchored : lastPiece pattern ≠ []) (text : Str) :
    globMatch pattern text = true ↔
      Expands '*' pattern text ∧ ∀ shorter, shorter <+: text →
        Expands '*' pattern shorter → shorter = text := by
  have ends : pattern.getLast? ≠ some '*' := by
    intro isStar
    apply anchored
    rw [lastPiece, List.rtakeWhile_eq_nil_iff]
    intro nonempty
    rw [List.getLast?_eq_some_getLast nonempty] at isStar
    simp [Option.some.inj isStar]
  rw [globMatch_eq starred]
  simp only [ends, false_or, exists_eq_right, globLeft,
    searchFront_splitOn_eq_some_iff]
  constructor
  · rintro ⟨⟨whole, rfl, expands⟩, longest⟩
    rw [List.append_nil] at longest ⊢
    refine ⟨expands, ?_⟩
    rintro shorter ⟨rest, rfl⟩ expandsShorter
    have none := longest rest ⟨shorter, rfl, expandsShorter⟩
    rw [List.suffix_nil.mp none, List.append_nil]
  · rintro ⟨expands, only⟩
    refine ⟨⟨text, (List.append_nil text).symm, expands⟩, ?_⟩
    rintro other ⟨shorter, split, expandsShorter⟩
    have isWhole := only shorter ⟨other, split.symm⟩ expandsShorter
    rw [isWhole] at split
    rw [List.self_eq_append_right.mp split]

/-- The matcher decides on the whole text, unless the pattern has a last piece
that ends the text and a shorter prefix of the text is one of the pattern's. -/
theorem globMatch_iff (pattern text : Str) (starred : '*' ∈ pattern) :
    (globMatch pattern text = true ↔ Expands '*' pattern text) ↔
      lastPiece pattern = [] ∨ ¬ lastPiece pattern <:+ text ∨
        ∀ shorter, shorter <+: text → Expands '*' pattern shorter →
          shorter = text := by
  by_cases unanchored : lastPiece pattern = []
  · apply iff_of_true _ (.inl unanchored)
    exact globMatch_of_lastPiece_nil starred unanchored text
  · obtain ⟨front, same, free⟩ := exists_lastPiece starred
    rw [globMatch_of_lastPiece starred unanchored, or_iff_right unanchored]
    constructor
    · intro decides
      by_contra both
      obtain ⟨suffix, several⟩ := not_or.mp both
      apply several
      refine (decides.mpr ?_).2
      push Not at several
      obtain ⟨shorter, ⟨rest, split⟩, expands, -⟩ := several
      rw [same] at expands ⊢
      apply expands_of_leads free ⟨shorter, split.symm, expands⟩
      exact not_not.mp suffix
    · rintro (notEnd | only)
      · constructor
        · exact fun found => found.1
        · intro expands
          rw [same] at expands
          exact absurd (suffix_of_expands free expands) notEnd
      · exact and_iff_left only

theorem globMatch_iff_cargo :
    (globMatch "cargo *".toList "cargo build".toList = true ↔
        Expands '*' "cargo *".toList "cargo build".toList) ↔
      lastPiece "cargo *".toList = [] ∨
        ¬ lastPiece "cargo *".toList <:+ "cargo build".toList ∨
        ∀ shorter, shorter <+: "cargo build".toList →
          Expands '*' "cargo *".toList shorter →
            shorter = "cargo build".toList :=
  globMatch_iff _ _ (by decide)

/-- The last piece is found early, and then does not end the text. -/
theorem early_not_matched :
    globMatch "cargo *test".toList "cargo test --test".toList = false ∧
      Expands '*' "cargo *test".toList "cargo test --test".toList := by
  refine ⟨by decide, ?_⟩
  have split : "cargo *test".toList = "cargo ".toList ++ '*' :: "test".toList :=
    rfl
  rw [split, expands_append_iff]
  refine ⟨"cargo ".toList, "test --test".toList, rfl, ?_, ?_⟩
  · exact (expands_of_star_free (by decide)).mpr rfl
  · apply expands_star_iff.mpr
    refine ⟨"test --".toList, "test".toList, rfl, ?_⟩
    exact (expands_of_star_free (by decide)).mpr rfl

end TrustLayer.AgentGuard
