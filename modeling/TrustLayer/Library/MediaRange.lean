import Mathlib.Algebra.Order.Field.Rat
import Mathlib.Data.List.MinMax
import TrustLayer.Library.Text

/-!
# Content negotiation

The quality of a media type is the weight of the most specific range that
matches it.  A type that no range matches has none.
-/

namespace TrustLayer.Library

/-- A media type in lower case. -/
structure MediaType where
  type : Str
  subtype : Str
  deriving DecidableEq

inductive MediaRange where
  | any
  | anyOf (type : Str)
  | exact (type subtype : Str)
  deriving DecidableEq

namespace MediaRange

/-- Names are compared without case. -/
def matches? (media : MediaType) : MediaRange → Bool
  | .any => true
  | .anyOf type => toAsciiLowercase type = media.type
  | .exact type subtype =>
      toAsciiLowercase type = media.type &&
        toAsciiLowercase subtype = media.subtype

def specificity : MediaRange → Nat
  | .any => 0
  | .anyOf _ => 1
  | .exact _ _ => 2

theorem specificity_le (range : MediaRange) : range.specificity ≤ 2 := by
  cases range <;> simp [specificity]

end MediaRange

section

variable {ε : Type} (range : ε → MediaRange) (weight : ε → ℚ)

/-- The ranges of a specificity that match a type. -/
def matchesAt (specificity : Nat) (elements : List ε) (media : MediaType) :
    List ε :=
  elements.filter fun element => (range element).matches? media ∧
    (range element).specificity = specificity

/-- The ranges that match a type, without those that a more specific one
overrides. -/
def mostSpecific (elements : List ε) (media : MediaType) : List ε :=
  let matching := elements.filter fun element =>
    (range element).matches? media
  matching.filter fun element => matching.all fun other =>
    (range other).specificity ≤ (range element).specificity

/-- The greatest weight among some ranges. -/
def heaviestWeight (elements : List ε) : Option ℚ :=
  (elements.map weight).max?

def quality (elements : List ε) (media : MediaType) : ℚ :=
  (heaviestWeight weight (mostSpecific range elements media)).getD 0

/-- The weight at the greatest specificity, up to a given one, that has
matches. -/
def weightUpTo (elements : List ε) (media : MediaType) : Nat → Option ℚ
  | 0 => heaviestWeight weight (matchesAt range 0 elements media)
  | specificity + 1 =>
      (heaviestWeight weight
        (matchesAt range (specificity + 1) elements media)).or
          (weightUpTo elements media specificity)

variable {range weight} {elements : List ε} {media : MediaType}

theorem mem_matchesAt {specificity : Nat} {element : ε} :
    element ∈ matchesAt range specificity elements media ↔
      element ∈ elements ∧ (range element).matches? media = true ∧
        (range element).specificity = specificity := by
  simp [matchesAt]

theorem mem_mostSpecific {element : ε} :
    element ∈ mostSpecific range elements media ↔
      element ∈ elements ∧ (range element).matches? media = true ∧
        ∀ other ∈ elements, (range other).matches? media = true →
          (range other).specificity ≤ (range element).specificity := by
  simp only [mostSpecific, List.mem_filter, List.all_eq_true,
    decide_eq_true_iff, and_assoc, and_imp]

theorem heaviestWeight_eq_none_iff {elements : List ε} :
    heaviestWeight weight elements = none ↔ elements = [] := by
  simp [heaviestWeight]

theorem heaviestWeight_eq_some_iff {heaviest : ℚ} :
    heaviestWeight weight elements = some heaviest ↔
      (∃ element ∈ elements, weight element = heaviest) ∧
        ∀ element ∈ elements, weight element ≤ heaviest := by
  rw [heaviestWeight, List.max?_eq_some_iff]
  simp

/-- Where there are matches at a specificity and none above it, they are the
most specific ones. -/
theorem mostSpecific_eq_matchesAt {specificity : Nat}
    (present : matchesAt range specificity elements media ≠ [])
    (top : ∀ higher, specificity < higher →
      matchesAt range higher elements media = []) :
    mostSpecific range elements media =
      matchesAt range specificity elements media := by
  obtain ⟨witness, member⟩ := List.exists_mem_of_ne_nil _ present
  obtain ⟨inElements, witnessMatches, witnessLevel⟩ := mem_matchesAt.mp member
  have highest : ∀ element ∈ elements,
      (range element).matches? media = true →
        (range element).specificity ≤ specificity := by
    intro element among isMatch
    by_contra above
    have here : element ∈ matchesAt range (range element).specificity elements
        media :=
      mem_matchesAt.mpr ⟨among, isMatch, rfl⟩
    rw [top _ (not_le.mp above)] at here
    cases here
  rw [mostSpecific, matchesAt, List.filter_filter]
  refine List.filter_congr fun element among => ?_
  rw [Bool.eq_iff_iff]
  simp only [Bool.and_eq_true, List.all_eq_true, List.mem_filter,
    decide_eq_true_iff, and_imp]
  constructor
  · rintro ⟨tops, isMatch⟩
    have reached := tops witness inElements witnessMatches
    exact ⟨isMatch, le_antisymm (highest element among isMatch)
      (witnessLevel ▸ reached)⟩
  · rintro ⟨isMatch, level⟩
    exact ⟨fun other inOthers otherMatches =>
      level ▸ highest other inOthers otherMatches, isMatch⟩

theorem matchesAt_eq_nil {specificity : Nat} (above : 2 < specificity) :
    matchesAt range specificity elements media = [] := by
  refine List.eq_nil_iff_forall_not_mem.mpr fun element member => ?_
  obtain ⟨-, -, level⟩ := mem_matchesAt.mp member
  have := (range element).specificity_le
  omega

theorem mostSpecific_eq_nil (none : ∀ specificity,
    matchesAt range specificity elements media = []) :
    mostSpecific range elements media = [] := by
  refine List.eq_nil_iff_forall_not_mem.mpr fun element member => ?_
  obtain ⟨among, isMatch, -⟩ := mem_mostSpecific.mp member
  have here : element ∈ matchesAt range (range element).specificity elements
      media :=
    mem_matchesAt.mpr ⟨among, isMatch, rfl⟩
  rw [none] at here
  cases here

theorem quality_eq_of_top {specificity : Nat}
    (top : ∀ higher, specificity < higher →
      matchesAt range higher elements media = []) :
    quality range weight elements media =
      (weightUpTo range weight elements media specificity).getD 0 := by
  induction specificity with
  | zero =>
      rw [weightUpTo]
      by_cases absent : matchesAt range 0 elements media = []
      · have none : ∀ specificity,
            matchesAt range specificity elements media = [] := by
          intro specificity
          rcases Nat.eq_zero_or_pos specificity with rfl | above
          · exact absent
          · exact top specificity above
        rw [quality, mostSpecific_eq_nil none, absent]
      · rw [quality, mostSpecific_eq_matchesAt absent top]
  | succ specificity induction =>
      rw [weightUpTo]
      by_cases absent : matchesAt range (specificity + 1) elements media = []
      · rw [heaviestWeight_eq_none_iff.mpr absent, Option.none_or]
        refine induction fun higher above => ?_
        rcases Nat.eq_or_lt_of_le above with rfl | above
        · exact absent
        · exact top higher above
      · obtain ⟨heaviest, weighs⟩ := Option.ne_none_iff_exists'.mp
          (mt heaviestWeight_eq_none_iff.mp absent)
        rw [quality, mostSpecific_eq_matchesAt absent top, weighs]
        rfl

/-- The quality is the weight of the exact ranges, else of the ranges of the
type, else of the ranges of everything. -/
theorem quality_eq : quality range weight elements media =
    (weightUpTo range weight elements media 2).getD 0 :=
  quality_eq_of_top fun _ => matchesAt_eq_nil

variable (range weight elements media) in
/-- A quality other than 0 is the weight of a range that matches. -/
theorem quality_cases : quality range weight elements media = 0 ∨
    ∃ element ∈ elements, (range element).matches? media = true ∧
      quality range weight elements media = weight element := by
  rw [quality]
  cases weighs : heaviestWeight weight (mostSpecific range elements media) with
  | none => exact .inl rfl
  | some heaviest =>
      obtain ⟨⟨element, member, rfl⟩, -⟩ := heaviestWeight_eq_some_iff.mp weighs
      obtain ⟨among, isMatch, -⟩ := mem_mostSpecific.mp member
      exact .inr ⟨element, among, isMatch, rfl⟩

theorem quality_of_unmatched
    (unmatched : ∀ element ∈ elements, (range element).matches? media = false) :
    quality range weight elements media = 0 := by
  rcases quality_cases range weight elements media with
    none | ⟨element, among, isMatch, -⟩
  · exact none
  · rw [unmatched element among] at isMatch
    cases isMatch

/-- The weight of an exact match that none of them exceeds is the quality. -/
theorem quality_of_exact {element : ε} (among : element ∈ elements)
    (isMatch : (range element).matches? media = true)
    (exact : (range element).specificity = 2)
    (heaviest : ∀ other ∈ elements, (range other).matches? media = true →
      weight other ≤ weight element) :
    quality range weight elements media = weight element := by
  have weighs : heaviestWeight weight (matchesAt range 2 elements media) =
      some (weight element) := by
    refine heaviestWeight_eq_some_iff.mpr
      ⟨⟨element, mem_matchesAt.mpr ⟨among, isMatch, exact⟩, rfl⟩, ?_⟩
    intro other member
    obtain ⟨inElements, otherMatches, -⟩ := mem_matchesAt.mp member
    exact heaviest other inElements otherMatches
  rw [quality_eq, weightUpTo, weighs]
  rfl

end

end TrustLayer.Library
