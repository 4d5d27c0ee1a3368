import TrustLayer.Library.LeftmostFirst

/-!
# Whether a pattern occurs

A pattern occurs in a text when it matches at some place.  A match is still one
when the text stands between other texts, as long as the pattern cannot tell
what they begin and end with from the ends of the text.
-/

namespace TrustLayer.Library

/-- The tables of Unicode behind `\d` and `\w`, and `char::is_alphanumeric`. -/
class CharTables extends WordClass where
  isDigit : Char → Bool
  isAlphanumeric : Char → Bool
  isWord_ascii : ∀ char, char.toNat < 128 →
    isWord char = (isAsciiAlphanumeric char || char == '_')
  isDigit_ascii : ∀ char, char.toNat < 128 → isDigit char = isAsciiDigit char
  isAlphanumeric_ascii : ∀ char, char.toNat < 128 →
    isAlphanumeric char = isAsciiAlphanumeric char
  isWord_of_isDigit : ∀ char, isDigit char = true → isWord char = true
  /-- The letters outside ASCII that fold into it. -/
  isWord_folded : isWord 'ſ' = true ∧ isWord '\u212A' = true

open Lettered (char)
open WordClass (isWord)

namespace Regex

/-! ## Letters of either case -/

/-- The character that a letter stands for under `(?i)`: two letters outside
ASCII fold to one inside. -/
def foldCase (char : Char) : Char :=
  if char = 'ſ' then 's'
  else if char = '\u212A' then 'k'
  else toAsciiLower char

/-- A literal under `(?i)`; `text` is given in lower case. -/
def caseless (text : String) : Regex :=
  all (text.toList.map fun char => .single fun other => foldCase other == char)

/-! ## Occurrences -/

section

variable {α : Type} [Lettered α] [WordClass]

def occursAt (pattern : Regex) (spot : Spot α) : Bool :=
  !(pattern.ends spot).isEmpty

def occursFrom (pattern : Regex) : (behindWord : Bool) → List α → Bool
  | behindWord, [] => pattern.occursAt (⟨behindWord, []⟩ : Spot α)
  | behindWord, item :: rest =>
      pattern.occursAt ⟨behindWord, item :: rest⟩ ||
        pattern.occursFrom (isWord (char item)) rest

/-- `Regex::is_match`. -/
def occurs (pattern : Regex) (text : List α) : Bool :=
  pattern.occursFrom false text

variable {pattern : Regex} {text behind : List α} {behindWord : Bool}

theorem occursAt_iff {spot : Spot α} :
    pattern.occursAt spot = true ↔ ∃ next, next ∈ pattern.ends spot := by
  rw [occursAt, Bool.not_eq_true', List.isEmpty_eq_false_iff_exists_mem]

theorem occursAt_extend (unseen : Unseen behind pattern) {spot : Spot α}
    (found : pattern.occursAt spot = true) :
    pattern.occursAt (spot.extend behind) = true := by
  rw [occursAt_iff] at found ⊢
  obtain ⟨next, member⟩ := found
  have extended : next.extend behind ∈
      (pattern.ends (spot.extend behind)).filter (·.keeps behind) := by
    rw [filter_ends_extend unseen]
    exact List.mem_map_of_mem member
  exact ⟨_, (List.mem_filter.mp extended).1⟩

theorem occursFrom_of_occursAt
    (found : pattern.occursAt ⟨behindWord, text⟩ = true) :
    pattern.occursFrom behindWord text = true := by
  cases text with
  | nil => exact found
  | cons item rest =>
      rw [occursFrom, found]
      rfl

theorem occursFrom_append (unseen : Unseen behind pattern)
    (found : pattern.occursFrom behindWord text = true) :
    pattern.occursFrom behindWord (text ++ behind) = true := by
  induction text generalizing behindWord with
  | nil =>
      apply occursFrom_of_occursAt
      exact occursAt_extend unseen found
  | cons item rest induction =>
      rw [occursFrom, Bool.or_eq_true] at found
      rw [List.cons_append, occursFrom, Bool.or_eq_true]
      rcases found with here | later
      · exact .inl (occursAt_extend unseen here)
      · exact .inr (induction later)

/-- Behind an item that is part of no word, a text stands as at the front. -/
theorem occursFrom_behind {apart : α} (notWord : isWord (char apart) = false)
    (found : pattern.occurs text = true) (front : List α) :
    pattern.occursFrom behindWord (front ++ apart :: text) = true := by
  induction front generalizing behindWord with
  | nil =>
      rw [List.nil_append, occursFrom, notWord]
      exact Bool.or_eq_true_iff.mpr (.inr found)
  | cons item front induction =>
      rw [List.cons_append, occursFrom]
      exact Bool.or_eq_true_iff.mpr (.inr induction)

/-- A pattern that does not look for the end occurs between items that are part
of no word as it does alone. -/
theorem occurs_between {apart : α} (notWord : isWord (char apart) = false)
    (endless : Endless pattern) (found : pattern.occurs text = true)
    (front behind : List α) :
    pattern.occurs (front ++ apart :: (text ++ apart :: behind)) = true := by
  apply occursFrom_behind notWord
  apply occursFrom_append _ found
  exact endless.mono (fun _ => id) (fun _ => notWord) id

end

/-- Whether a pattern looks for the end of the text. -/
def looksForEnd : Regex → Bool
  | .seq first second | .alt first second =>
      first.looksForEnd || second.looksForEnd
  | .star body => body.looksForEnd
  | .textEnd => true
  | .empty | .single _ | .wordBoundary => false

theorem endless_of_looksForEnd {pattern : Regex}
    (none : pattern.looksForEnd = false) : Endless pattern := by
  induction pattern with
  | empty | single | wordBoundary => trivial
  | seq first second firstEndless secondEndless =>
      rw [looksForEnd, Bool.or_eq_false_iff] at none
      exact ⟨firstEndless none.1, secondEndless none.2⟩
  | alt left right leftEndless rightEndless =>
      rw [looksForEnd, Bool.or_eq_false_iff] at none
      exact ⟨leftEndless none.1, rightEndless none.2⟩
  | star body bodyEndless => exact bodyEndless none
  | textEnd => cases none

end Regex

end TrustLayer.Library
