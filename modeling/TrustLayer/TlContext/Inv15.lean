import Mathlib.Algebra.Order.BigOperators.Group.List
import Mathlib.Algebra.Order.Round
import Mathlib.Data.Rat.Floor
import TrustLayer.Library.LeftmostFirst.Occurs

/-!
# The prompt-injection verifier

A text is scored by the weights of the patterns that occur in it.  What stands
around an injection cannot take a pattern away.
-/

namespace TrustLayer.TlContext

open TrustLayer.Library
open Regex

/-! ## The verifier -/

inductive Verdict where
  | allow
  | warn (reason : Str)
  | block (reason : Str)

/-- The order of the verdicts. -/
def Verdict.severity : Verdict → Nat
  | .allow => 0
  | .warn _ => 1
  | .block _ => 2

structure Thresholds where
  blockScore : ℚ
  warnScore : ℚ

def Thresholds.default : Thresholds where
  blockScore := 8 / 10
  warnScore := 5 / 10

inductive PatternCategory where
  | goalOverride
  | systemOverride
  | roleImpersonation
  | secretExtraction
  | jailbreak

structure Pattern where
  name : Str
  regex : Regex
  weight : ℚ
  category : PatternCategory

structure PatternMatch where
  patternName : Str
  category : PatternCategory
  weight : ℚ

structure Inv15Verifier where
  patterns : List Pattern
  thresholds : Thresholds

/-- `{:.2}` of a score that has no more places. -/
def twoPlaces (score : ℚ) : Str :=
  let hundredths := (round (score * 100)).toNat
  Nat.toDigits 10 (hundredths / 100) ++ ['.'] ++
    Nat.toDigits 10 (hundredths / 10 % 10) ++ Nat.toDigits 10 (hundredths % 10)

def matchNames (found : List PatternMatch) : Str :=
  ", ".toList.intercalate (found.map PatternMatch.patternName)

namespace Inv15Verifier

variable [CharTables]

def patternMatches (verifier : Inv15Verifier) (text : Str) : List PatternMatch :=
  (verifier.patterns.filter fun pattern => pattern.regex.occurs text).map
    fun pattern =>
      { patternName := pattern.name
        category := pattern.category
        weight := pattern.weight }

def score (verifier : Inv15Verifier) (text : Str) : ℚ :=
  ((verifier.patternMatches text).map PatternMatch.weight).sum

def reason (verifier : Inv15Verifier) (text : Str) (name : String)
    (threshold : ℚ) : Str :=
  "INV-15 score ".toList ++ twoPlaces (verifier.score text) ++ " >= ".toList ++
    name.toList ++ [' '] ++ twoPlaces threshold ++ "; matched: ".toList ++
    matchNames (verifier.patternMatches text)

def verify (verifier : Inv15Verifier) (text : Str) : Verdict :=
  if verifier.thresholds.blockScore ≤ verifier.score text then
    .block (verifier.reason text "block_score" verifier.thresholds.blockScore)
  else if verifier.thresholds.warnScore ≤ verifier.score text then
    .warn (verifier.reason text "warn_score" verifier.thresholds.warnScore)
  else .allow

end Inv15Verifier

/-! ## The patterns -/

/-- `(?:first|other|…)`. -/
def oneWord (first : String) (others : List String) : Regex :=
  oneOf (caseless first) (others.map caseless)

/-- A word with `s?` behind it. -/
def plural (text : String) : Regex :=
  all [caseless text, optional (caseless "s")]

def ignorePrevious : Pattern where
  name := "ignore_previous".toList
  regex := all [.wordBoundary, caseless "ignore", plus space,
    optional (oneOf (all [caseless "all", plus space])
      [all [caseless "the", plus space]]),
    oneWord "previous" ["prior", "above", "my"], .star space,
    optional (oneOf (plural "instruction")
      [plural "prompt", plural "rule", caseless "context", caseless "safety",
        plural "filter", plural "safeguard"]),
    .wordBoundary]
  weight := 1
  category := .goalOverride

def disregardPrior : Pattern where
  name := "disregard_prior".toList
  regex := all [.wordBoundary, caseless "disregard", plus space,
    optional (oneOf (all [caseless "all", plus space])
      [all [caseless "your", plus space], all [caseless "the", plus space],
        all [caseless "my", plus space]]),
    oneOf (caseless "prior")
      [caseless "previous", caseless "above", caseless "training",
        caseless "context", plural "rule", plural "instruction",
        plural "prompt"],
    .wordBoundary]
  weight := 1
  category := .goalOverride

def forgetEverything : Pattern where
  name := "forget_everything".toList
  regex := all [.wordBoundary, caseless "forget", plus space,
    oneWord "everything" ["all"], plus space,
    oneWord "above" ["prior", "previous"], .wordBoundary]
  weight := 1
  category := .goalOverride

def systemOverride : Pattern where
  name := "system_override".toList
  regex := all [.wordBoundary, oneWord "system" ["admin", "sudo", "root"],
    .star space,
    oneOf (caseless "override")
      [caseless "mode", caseless "prompt", caseless "command",
        caseless "access", plural "privilege"],
    .wordBoundary]
  weight := 9 / 10
  category := .systemOverride

def youAreNow : Pattern where
  name := "you_are_now".toList
  regex := all [.wordBoundary, caseless "you", plus space, caseless "are",
    plus space, caseless "now", plus space,
    oneWord "a" ["an", "the", "my"], .wordBoundary]
  weight := 7 / 10
  category := .roleImpersonation

def actAs : Pattern where
  name := "act_as".toList
  regex := all [.wordBoundary, oneWord "act" ["behave", "respond"], plus space,
    caseless "as", plus space, oneWord "a" ["an", "the", "if"], .wordBoundary]
  weight := 6 / 10
  category := .roleImpersonation

def pretendToBe : Pattern where
  name := "pretend_to_be".toList
  regex := all [.wordBoundary, caseless "pretend", plus space,
    oneOf (all [caseless "to", plus space, caseless "be"])
      [all [caseless "you",
        oneOf (caseless "'re") [all [plus space, caseless "are"]]]],
    .wordBoundary]
  weight := 85 / 100
  category := .roleImpersonation

def revealSecret : Pattern where
  name := "reveal_secret".toList
  regex := all [.wordBoundary,
    oneWord "reveal" ["show", "print", "leak", "expose", "dump"], plus space,
    optional (oneOf (all [caseless "the", plus space])
      [all [caseless "my", plus space]]),
    oneOf (caseless "secret")
      [caseless "password",
        all [caseless "api",
          optional (.single fun char =>
            char == '_' || isWhitespace char || char == '-'),
          caseless "key"],
        caseless "token", caseless "credential"],
    optional (caseless "s"), .wordBoundary]
  weight := 1
  category := .secretExtraction

def systemPromptExtract : Pattern where
  name := "system_prompt_extract".toList
  regex := all [.wordBoundary,
    oneWord "show" ["reveal", "repeat", "print", "dump", "leak"], plus space,
    optional (all [caseless "me", plus space]), oneWord "the" ["your"],
    plus space,
    oneOf (all [caseless "system", plus space, caseless "prompt"])
      [all [caseless "hidden", plus space, plural "instruction"],
        all [caseless "original", plus space, plural "instruction"]],
    .wordBoundary]
  weight := 9 / 10
  category := .secretExtraction

def danJailbreak : Pattern where
  name := "dan_jailbreak".toList
  regex := all [.wordBoundary,
    oneOf (caseless "dan")
      [all [caseless "do", plus space, caseless "anything", plus space,
          caseless "now"],
        all [caseless "developer", plus space, caseless "mode"],
        all [caseless "god", plus space, caseless "mode"]],
    .wordBoundary]
  weight := 9 / 10
  category := .jailbreak

def bypassRestrictions : Pattern where
  name := "bypass_restrictions".toList
  regex := all [.wordBoundary, caseless "bypass", plus space,
    optional (all [caseless "the", plus space]),
    oneOf (plural "restriction")
      [plural "filter", plural "safeguard", plural "guardrail",
        all [caseless "safety", plus space,
          oneOf (plural "filter") [plural "check"]]],
    .wordBoundary]
  weight := 8 / 10
  category := .jailbreak

def defaultPatterns : List Pattern :=
  [ignorePrevious, disregardPrior, forgetEverything, systemOverride, youAreNow,
    actAs, pretendToBe, revealSecret, systemPromptExtract, danJailbreak,
    bypassRestrictions]

namespace Inv15Verifier

def withPatterns (patterns : List Pattern) (thresholds : Thresholds) :
    Inv15Verifier :=
  { patterns, thresholds }

def new : Inv15Verifier :=
  withPatterns defaultPatterns .default

/-! ## Padding -/

/-- The text between two others, each apart from it by a blank. -/
def padded (before text behind : Str) : Str :=
  before ++ ' ' :: (text ++ ' ' :: behind)

/-- No pattern looks for the end of the text, and no weight is negative. -/
def Additive (verifier : Inv15Verifier) : Prop :=
  ∀ pattern ∈ verifier.patterns,
    pattern.regex.looksForEnd = false ∧ 0 ≤ pattern.weight

instance (verifier : Inv15Verifier) : Decidable verifier.Additive :=
  inferInstanceAs (Decidable (∀ _ ∈ _, _))

theorem additive_new : new.Additive := by
  decide +kernel

section

variable [CharTables] {verifier : Inv15Verifier}

theorem blank_notWord : WordClass.isWord ' ' = false := by
  rw [CharTables.isWord_ascii ' ' (by decide)]
  decide

theorem occurs_padded {pattern : Regex} {text : Str}
    (endless : pattern.looksForEnd = false)
    (found : pattern.occurs text = true) (before behind : Str) :
    pattern.occurs (padded before text behind) = true :=
  occurs_between blank_notWord (endless_of_looksForEnd endless) found before
    behind

/-- A match stays a match. -/
theorem patternMatches_padded (additive : verifier.Additive)
    (before text behind : Str) :
    (verifier.patternMatches text).Sublist
      (verifier.patternMatches (padded before text behind)) := by
  have again : verifier.patterns.filter (fun pattern =>
      pattern.regex.occurs text) =
        (verifier.patterns.filter fun pattern =>
          pattern.regex.occurs (padded before text behind)).filter fun pattern =>
            pattern.regex.occurs text := by
    rw [List.filter_filter]
    apply List.filter_congr
    intro pattern member
    cases found : pattern.regex.occurs text with
    | true =>
        rw [occurs_padded (additive pattern member).1 found]
        rfl
    | false => rfl
  rw [patternMatches, again]
  exact List.filter_sublist.map _

theorem score_padded (additive : verifier.Additive) (before text behind : Str) :
    verifier.score text ≤ verifier.score (padded before text behind) := by
  have sublist := patternMatches_padded additive before text behind
  apply (sublist.map PatternMatch.weight).sum_le_sum
  intro weight member
  obtain ⟨found, inMatches, rfl⟩ := List.mem_map.mp member
  obtain ⟨pattern, inPatterns, rfl⟩ := List.mem_map.mp inMatches
  exact (additive pattern (List.mem_filter.mp inPatterns).1).2

/-- A greater score has no lesser verdict. -/
theorem severity_mono {text other : Str}
    (score : verifier.score text ≤ verifier.score other) :
    (verifier.verify text).severity ≤ (verifier.verify other).severity := by
  rw [verify, verify]
  split_ifs with block block' warn' warn block' warn'
  · exact le_rfl
  · exact absurd (block.trans score) block'
  · exact absurd (block.trans score) block'
  · exact Nat.le_succ _
  · exact le_rfl
  · exact absurd (warn.trans score) warn'
  · exact Nat.zero_le _
  · exact Nat.zero_le _
  · exact le_rfl

end

end Inv15Verifier

end TrustLayer.TlContext
