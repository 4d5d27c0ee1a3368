import TrustLayer.Library.Glob

/-!
# The pattern matcher shared by the gate, the hook and the policy engine

A pattern with a star holds of a text that contains one of its texts.
-/

namespace TrustLayer.AgentGuard

open TrustLayer.Library

/-- The parts of a `*` pattern are looked up one after another, each from the
end of the one before. -/
def partsInOrder : List Str → Str → Bool
  | [], _ => true
  | part :: parts, value =>
      match splitFirst part value with
      | none => false
      | some (_, after) => partsInOrder parts after

def patternMatches (pattern value : Str) : Bool :=
  if pattern.isEmpty then false
  else if '*' ∈ pattern then
    let parts := (splitChar '*' pattern).filter fun part => !part.isEmpty
    if parts.isEmpty then !value.isEmpty else partsInOrder parts value
  else contains value pattern

/-! ## Completeness -/

theorem partsInOrder_eq (parts : List Str) (value : Str) :
    partsInOrder parts value = (search parts value).isSome := by
  induction parts generalizing value with
  | nil => rfl
  | cons part parts induction =>
      rw [partsInOrder, search]
      cases splitFirst part value with
      | none => rfl
      | some found => exact induction found.2

/-- With a star, the matcher finds exactly the values that contain a text of
the pattern; only stars alone ask for a character. -/
theorem patternMatches_iff (pattern value : Str) (starred : '*' ∈ pattern) :
    patternMatches pattern value = true ↔
      (∃ inner, inner <:+: value ∧ Expands '*' pattern inner) ∧
        ((∀ char ∈ pattern, char = '*') → value ≠ []) := by
  have nonempty : pattern.isEmpty = false := by
    cases pattern with
    | nil => cases starred
    | cons char pattern => rfl
  have searched := @search_filter (splitChar '*' pattern) value
  rw [← isSome_search_iff, ← forall_splitOn_eq_nil_iff, patternMatches,
    nonempty, if_neg Bool.false_ne_true, if_pos starred]
  simp only
  by_cases onlyStars : ∀ piece ∈ pattern.splitOn '*', piece = []
  · have noParts : (splitChar '*' pattern).filter
        (fun part => !part.isEmpty) = [] := by
      rw [List.filter_eq_nil_iff]
      intro piece member
      simp [onlyStars piece member]
    rw [noParts, search] at searched
    have found : (search (pattern.splitOn '*') value).isSome = true := by
      rw [splitChar] at searched
      rw [← searched]
      rfl
    rw [noParts, if_pos List.isEmpty_nil, found, and_iff_right rfl]
    constructor
    · rintro filled - rfl
      cases filled
    · intro filled
      have := filled onlyStars
      cases value with
      | nil => exact absurd rfl this
      | cons char value => rfl
  · have parts : ((splitChar '*' pattern).filter
        (fun part => !part.isEmpty)).isEmpty = false := by
      rw [List.isEmpty_eq_false_iff, Ne, List.filter_eq_nil_iff]
      intro none
      apply onlyStars
      intro piece member
      simpa using none piece member
    rw [parts, if_neg Bool.false_ne_true, partsInOrder_eq, searched]
    exact (and_iff_left fun all => absurd all onlyStars).symm

theorem patternMatches_iff_spaced :
    patternMatches "rm*-rf".toList "do rm -v -rf".toList = true ↔
      (∃ inner, inner <:+: "do rm -v -rf".toList ∧
        Expands '*' "rm*-rf".toList inner) ∧
        ((∀ char ∈ "rm*-rf".toList, char = '*') →
          "do rm -v -rf".toList ≠ []) :=
  patternMatches_iff _ _ (by decide)

/-- The empty text is one of a star's, and no match. -/
theorem star_not_complete :
    ¬ ∀ pattern value : Str, '*' ∈ pattern →
      (patternMatches pattern value = true ↔
        ∃ inner, inner <:+: value ∧ Expands '*' pattern inner) := by
  intro complete
  have matched := (complete ['*'] [] (by decide)).mpr
    ⟨[], List.infix_rfl, @Expands.star _ '*' [] [] [] .nil⟩
  revert matched
  decide

end TrustLayer.AgentGuard
