import TrustLayer.Library.Regex

/-!
# The split into two language models

One model sees user data, the other one sanitised text only.  The detector of
cross-taint asks, pattern by pattern, which of the two texts a redaction pattern
matches in.
-/

namespace TrustLayer.ThemisOrchestrator

open TrustLayer.Library

/-- The regular expressions of a policy, third-party code. -/
class RegexCrate (ρ : Type) where
  /-- `find_iter`, as the texts that are matched. -/
  findIter : ρ → (text : Str) → List Str

inductive DualLlmError where
  | crossTaint
  | redaction (detail : Str)
  deriving DecidableEq

structure RedactionPolicy (ρ : Type) where
  redactPatterns : List ρ

namespace RedactionPolicy

/-! ## The default patterns -/

section

open Regex

def asciiClass (others : String) : Regex :=
  .single fun char =>
    isAsciiAlphanumeric char || others.toList.contains char

def digits (count : Nat) : Regex :=
  all (List.replicate count digit)

/-- `[\s.-]?`. -/
def phoneGap : Regex :=
  optional (.single fun char => isWhitespace char || ".-".toList.contains char)

def email : Regex :=
  let letter := Regex.single isAsciiAlphabetic
  all [plus (asciiClass "._%+-"), .single (· == '@'), plus (asciiClass ".-"),
    .single (· == '.'), letter, plus letter]

def phone : Regex :=
  all [
    optional (all [optional (.single (· == '+')), digit, optional digit,
      optional digit, phoneGap]),
    optional (.single (· == '(')), digits 3, optional (.single (· == ')')),
    phoneGap, digits 3, phoneGap, digits 4]

/-- Thirteen to nineteen digits. -/
def creditCard : Regex :=
  let part := Regex.seq digit (optional (.single " -".toList.contains))
  all [.wordBoundary, all (List.replicate 13 part),
    all (List.replicate 6 (optional part)), .wordBoundary]

def withDefaults : RedactionPolicy Regex :=
  { redactPatterns := [email, phone, creditCard] }

end

end RedactionPolicy

/-! ## The detector -/

/-- The detector calls neither model, and they are left out. -/
structure DualLlm (ρ : Type) where
  redactionPolicy : RedactionPolicy ρ

namespace DualLlm

section

variable {ρ : Type} [RegexCrate ρ]

/-- `Regex::is_match`. -/
def isMatch (pattern : ρ) (text : Str) : Bool :=
  !(RegexCrate.findIter pattern text).isEmpty

/-- The loop over the patterns. -/
def scan (quarantinedPrompt privilegedText : Str) :
    List ρ → Except DualLlmError Unit
  | [] => .ok ()
  | pattern :: patterns =>
      if isMatch pattern quarantinedPrompt &&
          !isMatch pattern privilegedText then
        .error .crossTaint
      else scan quarantinedPrompt privilegedText patterns

/-- `check_cross_taint`. -/
def checkCrossTaint (dual : DualLlm ρ)
    (quarantinedPrompt privilegedText : Str) : Except DualLlmError Unit :=
  scan quarantinedPrompt privilegedText dual.redactionPolicy.redactPatterns

/-- The pattern matches in the prompt, and nowhere in the privileged text. -/
def PromptOnly (quarantinedPrompt privilegedText : Str) (pattern : ρ) : Prop :=
  (∃ datum, datum ∈ RegexCrate.findIter pattern quarantinedPrompt) ∧
    ∀ datum, datum ∉ RegexCrate.findIter pattern privilegedText

/-- The pattern matches one datum in both texts. -/
def Shared (quarantinedPrompt privilegedText : Str) (pattern : ρ)
    (datum : Str) : Prop :=
  datum ≠ [] ∧ datum ∈ RegexCrate.findIter pattern privilegedText ∧
    datum ∈ RegexCrate.findIter pattern quarantinedPrompt

variable {quarantinedPrompt privilegedText : Str} {pattern : ρ}

theorem isMatch_iff {text : Str} :
    isMatch pattern text = true ↔
      ∃ datum, datum ∈ RegexCrate.findIter pattern text := by
  rw [isMatch, Bool.not_eq_true', List.isEmpty_eq_false_iff_exists_mem]

theorem promptOnly_iff :
    (isMatch pattern quarantinedPrompt && !isMatch pattern privilegedText) =
        true ↔
      PromptOnly quarantinedPrompt privilegedText pattern := by
  rw [Bool.and_eq_true, isMatch_iff, Bool.not_eq_true', ← Bool.not_eq_true,
    isMatch_iff, not_exists, PromptOnly]

theorem scan_eq_error_iff {patterns : List ρ} :
    scan quarantinedPrompt privilegedText patterns = .error .crossTaint ↔
      ∃ pattern ∈ patterns,
        PromptOnly quarantinedPrompt privilegedText pattern := by
  induction patterns with
  | nil => simp [scan]
  | cons pattern patterns induction =>
      rw [scan, List.exists_mem_cons_iff]
      by_cases tainted : PromptOnly quarantinedPrompt privilegedText pattern
      · rw [if_pos (promptOnly_iff.mpr tainted)]
        exact iff_of_true rfl (Or.inl tainted)
      · rw [if_neg (mt promptOnly_iff.mp tainted), induction,
          or_iff_right tainted]

/-- A datum in both texts clears its pattern. -/
theorem Shared.not_promptOnly {datum : Str}
    (shared : Shared quarantinedPrompt privilegedText pattern datum) :
    ¬ PromptOnly quarantinedPrompt privilegedText pattern :=
  fun only => only.2 datum shared.2.1

/-- Cross-taint is what the prompt alone matches: a shared datum is reported
through another pattern, if at all. -/
theorem checkCrossTaint_spec (dual : DualLlm ρ)
    (quarantinedPrompt privilegedText : Str) :
    (dual.checkCrossTaint quarantinedPrompt privilegedText =
        .error .crossTaint ↔
      ∃ pattern ∈ dual.redactionPolicy.redactPatterns,
        PromptOnly quarantinedPrompt privilegedText pattern) ∧
    ∀ pattern datum, Shared quarantinedPrompt privilegedText pattern datum →
      dual.checkCrossTaint quarantinedPrompt privilegedText =
        .error .crossTaint →
      ∃ other ∈ dual.redactionPolicy.redactPatterns, other ≠ pattern ∧
        PromptOnly quarantinedPrompt privilegedText other := by
  have detects : dual.checkCrossTaint quarantinedPrompt privilegedText =
      .error .crossTaint ↔ ∃ pattern ∈ dual.redactionPolicy.redactPatterns,
        PromptOnly quarantinedPrompt privilegedText pattern :=
    scan_eq_error_iff
  refine ⟨detects, fun pattern datum shared reported => ?_⟩
  obtain ⟨other, member, only⟩ := detects.mp reported
  refine ⟨other, member, ?_, only⟩
  rintro rfl
  exact shared.not_promptOnly only

/-- Whatever a pattern matches in both texts is detected. -/
def DetectsShared (dual : DualLlm ρ) : Prop :=
  ∀ quarantinedPrompt privilegedText,
    (∃ pattern ∈ dual.redactionPolicy.redactPatterns, ∃ datum,
      Shared quarantinedPrompt privilegedText pattern datum) →
    dual.checkCrossTaint quarantinedPrompt privilegedText =
      .error .crossTaint

end

/-! ### An address in both texts -/

/-- The longest match in front of a text. -/
def longest (pattern : Regex) (previous : Option Char) (text : Str) :
    Option Nat :=
  (List.range (text.length + 1)).reverse.find? fun length =>
    pattern.step previous text fun _ rest =>
      rest.length == text.length - length

/-- The matches from left to right, the first characters being skipped. -/
def matchesFrom (pattern : Regex) : (previous : Option Char) → (skip : Nat) →
    Str → List Str
  | _, _, [] => []
  | _, skip + 1, char :: rest => matchesFrom pattern (some char) skip rest
  | previous, 0, char :: rest =>
      match longest pattern previous (char :: rest) with
      | none | some 0 => matchesFrom pattern (some char) 0 rest
      | some (more + 1) =>
          (char :: rest).take (more + 1) ::
            matchesFrom pattern (some char) more rest

/-- On texts with one way to match. -/
@[reducible] def longestMatches : RegexCrate Regex where
  findIter pattern text := matchesFrom pattern none 0 text

/-- The address of the privileged text is in the prompt, and nothing is
reported. -/
theorem sharedEmail_not_detected :
    ¬ @DetectsShared Regex longestMatches ⟨.withDefaults⟩ := by
  intro detects
  have shared : @Shared Regex longestMatches "a@b.co".toList
      "to a@b.co".toList RedactionPolicy.email "a@b.co".toList := by
    unfold Shared
    decide
  have reported := detects "a@b.co".toList "to a@b.co".toList
    ⟨RedactionPolicy.email, List.mem_cons_self, _, shared⟩
  revert reported
  decide

end DualLlm

end TrustLayer.ThemisOrchestrator
