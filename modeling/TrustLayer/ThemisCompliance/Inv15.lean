import TrustLayer.TlContext.Inv15

/-!
# The prompt-injection verifier of the compliance crate

The code is that of `tl-context`; two patterns are added.
-/

namespace TrustLayer.ThemisCompliance

open TrustLayer.Library
open Regex
open TlContext (Pattern PatternMatch Thresholds Inv15Verifier ignorePrevious
  disregardPrior systemOverride youAreNow actAs pretendToBe revealSecret
  systemPromptExtract danJailbreak bypassRestrictions forgetEverything plural)

def unrestrictedKeyword : Pattern where
  name := "unrestricted_keyword".toList
  regex := all [.wordBoundary,
    oneOf (caseless "unrestricted")
      [all [caseless "no", plus space, plural "filter"],
        all [caseless "no", plus space, plural "restriction"],
        all [caseless "no", plus space, caseless "content", plus space,
          caseless "policy"]],
    .wordBoundary]
  weight := 8 / 10
  category := .jailbreak

def maliciousKeyword : Pattern where
  name := "malicious_keyword".toList
  regex := all [.wordBoundary,
    TlContext.oneWord "malicious" ["evil", "unethical", "harmful", "hacker"],
    .wordBoundary]
  weight := 8 / 10
  category := .jailbreak

def defaultPatterns : List Pattern :=
  [ignorePrevious, disregardPrior, systemOverride, youAreNow, actAs,
    pretendToBe, revealSecret, systemPromptExtract, danJailbreak,
    bypassRestrictions, forgetEverything, unrestrictedKeyword,
    maliciousKeyword]

def Inv15Verifier.new : Inv15Verifier :=
  .withPatterns defaultPatterns .default

theorem additive_new : Inv15Verifier.new.Additive := by
  decide +kernel

/-- What stands around a text lowers no verdict, and hides no match. -/
structure KeptByPadding [CharTables] (verifier : Inv15Verifier)
    (before text behind : Str) : Prop where
  severity : (verifier.verify text).severity ≤
    (verifier.verify (TlContext.Inv15Verifier.padded before text behind)).severity
  sublist : (verifier.patternMatches text).Sublist
    (verifier.patternMatches (TlContext.Inv15Verifier.padded before text behind))

open TlContext.Inv15Verifier in
theorem keptByPadding [CharTables] {verifier : Inv15Verifier}
    (additive : verifier.Additive) (before text behind : Str) :
    KeptByPadding verifier before text behind := by
  constructor
  · apply severity_mono
    exact score_padded additive before text behind
  · exact patternMatches_padded additive before text behind

theorem padding_never_lowers [CharTables] (before text behind : Str) :
    KeptByPadding TlContext.Inv15Verifier.new before text behind ∧
      KeptByPadding Inv15Verifier.new before text behind := by
  constructor
  · apply keptByPadding
    exact TlContext.Inv15Verifier.additive_new
  · apply keptByPadding
    exact additive_new

end TrustLayer.ThemisCompliance
