import TrustLayer.AgentGuard.Config
import TrustLayer.AgentGuard.Gate.Decode
import TrustLayer.AgentGuard.Gate.Resolve
import TrustLayer.AgentGuard.Gate.Taxonomy
import TrustLayer.AgentGuard.Policy.Matcher

/-!
# The command gate

`evaluate` turns a raw command into a verdict: allow-list, normalization,
pre-split analyses, split, assignment resolution, per-leg scan, `IFS`
re-split, and the map of the worst hit to a tier.
-/

namespace TrustLayer.AgentGuard.Gate

open TrustLayer.Library

/-- Cap on the recursion into live substitution bodies. -/
def maxSubstDepth : Nat := 4

/-- A severity hit with the leg that triggered it and a label. -/
structure Hit where
  severity : Nat
  leg : Str
  label : Str
  deriving DecidableEq

/-- Keep the higher-severity hit, the earlier one on a tie. -/
def consider (best : Option Hit) (candidate : Hit) : Option Hit :=
  match best with
  | some existing =>
      if existing.severity ≥ candidate.severity then some existing
      else some candidate
  | none => some candidate

/-! ## Hits that need no recursion -/

/-- `format!("{prefix} [{id}]")`. -/
def labelled (front id : Str) : Str :=
  front ++ " [".toList ++ id ++ "]".toList

def customBlockMatches (block : CustomBlock) (leg : Str) : Bool :=
  patternMatches block.pattern leg

/-- The rules in force: the taxonomy and the enabled packs. -/
def activeRules (config : Config) : List DestructiveRule :=
  rules ++ Packs.enabledRules config.packs

def ruleHit (leg : Str) (rule : DestructiveRule) : Hit :=
  { severity := rule.severity, leg, label := labelled rule.category rule.id }

def ruleHits (config : Config) (leg : Str) : List Hit :=
  ((activeRules config).filter fun rule =>
    rule.matcher (effectiveMatchText leg)).map (ruleHit leg)

def customHits (config : Config) (leg : Str) : List Hit :=
  (config.customBlocks.filter fun block => customBlockMatches block leg).map
    fun block =>
      { severity := block.severity, leg
        label := labelled "custom-block".toList block.category }

def decodeCapHit (config : Config) (leg : Str) : Hit :=
  { severity := config.thresholds.warnAt, leg
    label := "base64-decode-cap".toList }

/-- The hits of `fetch_pipe_to_shell` and `fork_bomb_presplit`. -/
def presplitHits (command : Str) : List Hit :=
  (fetchPipeToShell command).toList.map (fun found =>
    { severity := found.2.1, leg := command
      label := labelled "fetch-piped-to-shell".toList found.1 }) ++
  (forkBombPresplit command).toList.map fun found =>
    { severity := found.2.1, leg := command
      label := labelled "dos".toList found.1 }

def considerAll (best : Option Hit) (hits : List Hit) : Option Hit :=
  hits.foldl consider best

/-! ## The recursive scan -/

section

variable [Base64Engine]

mutual

/-- Scan one leg: rules, live substitution bodies, custom blocks, and the
bounded decode-and-rescan. -/
def scanLegWithin : (limit : Nat) → (leg : Str) → (depth : Nat) → Config →
    Option Hit → Option Hit
  | 0, _, _, _, best => best
  | limit + 1, leg, depth, config, best =>
      let best := considerAll best (ruleHits config leg)
      let best :=
        if depth < maxSubstDepth then
          (liveSubstitutionBodies leg).foldl
            (fun best body =>
              scanSubstitutionBodyWithin limit body (depth + 1) config best)
            best
        else best
      let best := considerAll best (customHits config leg)
      match decodeAndExpand leg depth with
      | some decoded =>
          (splitCompound decoded).foldl
            (fun best inner => scanLegWithin limit inner (depth + 1) config best)
            best
      | none =>
          if depth + 1 ≥ maxDecodeDepth ∧ hasUnresolvedDecode leg = true then
            consider best (decodeCapHit config leg)
          else best

/-- Scan the body of a live substitution as a command; a leg that only prints
is searched for further substitutions but not matched. -/
def scanSubstitutionBodyWithin : (limit : Nat) → (body : Str) → (depth : Nat) →
    Config → Option Hit → Option Hit
  | 0, _, _, _, best => best
  | limit + 1, body, depth, config, best =>
      let best := considerAll best (presplitHits body)
      let best :=
        if depth < maxDecodeDepth then
          match decodeAndExpand body depth with
          | some decoded =>
              (splitCompound decoded).foldl
                (fun best inner =>
                  scanLegWithin limit inner (depth + 1) config best)
                best
          | none => best
        else best
      (splitCompound body).foldl
        (fun best leg =>
          if isNonExecutingVerb leg then
            if depth < maxSubstDepth then
              (liveSubstitutionBodies leg).foldl
                (fun best inner =>
                  scanSubstitutionBodyWithin limit inner (depth + 1) config best)
                best
            else best
          else scanLegWithin limit leg depth config best)
        best

end

/-- Calls that the depth caps let a leg nest: a body calls a leg at its own
depth, and everything else goes one level deeper. -/
def scanLimit (depth : Nat) : Nat :=
  2 * (maxSubstDepth - depth) + 1

def scanLeg (leg : Str) (depth : Nat) (config : Config) (best : Option Hit) :
    Option Hit :=
  scanLegWithin (scanLimit depth) leg depth config best

def scanSubstitutionBody (body : Str) (depth : Nat) (config : Config)
    (best : Option Hit) : Option Hit :=
  scanSubstitutionBodyWithin (scanLimit depth + 1) body depth config best

def scanLegs (legs : List Str) (depth : Nat) (config : Config)
    (best : Option Hit) : Option Hit :=
  legs.foldl (fun best leg => scanLeg leg depth config best) best

/-! ## The `IFS` re-split -/

/-- Rewrite the separators to blanks in the legs after an `IFS=` leg. -/
def rebuildLegs (extraSeps : List Char) : (seenIfs : Bool) → List Str → List Str
  | _, [] => []
  | seenIfs, leg :: legs =>
      let rebuilt :=
        if seenIfs then
          extraSeps.foldl (fun leg separator => blankOut separator leg) leg
        else leg
      rebuilt ::
        rebuildLegs extraSeps
          (seenIfs || "IFS=".toList.isPrefixOf (trimStart leg)) legs

def ifsResplitBlock (command : Str) (extraSeps : List Char) (config : Config) :
    Option Hit :=
  let resolved :=
    resolveAssignments (rebuildLegs extraSeps false (splitCompound command))
  match scanLegs resolved 0 config none with
  | some hit =>
      if severityToTier hit.severity config.thresholds = .block then some hit
      else none
  | none => none

/-! ## Verdicts -/

def truncate (text : Str) (limit : Nat) : Str :=
  if byteLen text ≤ limit then text
  else prefixWithin limit text ++ "…".toList

def buildVerdict (tier : Tier) (hit : Hit) : Verdict :=
  let leg := truncate hit.leg 200
  let reason (how : String) : Str :=
    how.toList ++ " dangerous leg `".toList ++ leg ++ "` (".toList ++ hit.label ++
      ")".toList
  match tier with
  | .block =>
      (Verdict.block (reason "blocked")).withFeedback
        ("This command was blocked because the leg `".toList ++ leg ++
          "` matches ".toList ++ hit.label ++
          (". If this is intentional, add it to the " ++
            "apohara-agentguard allow-list.").toList)
  | .warn =>
      (Verdict.warn (reason "flagged")).withFeedback
        ("Caution: the leg `".toList ++ leg ++ "` matches ".toList ++ hit.label ++
          ". Proceed only if you understand the impact.".toList)
  | .allow => .allow
  | .ask => .allow

/-! ## The pipeline -/

/-- The command to scan and the `IFS` separators. -/
def scanInput (command : Str) (config : Config) : Normalized :=
  if config.normalize then normalizeCommand command
  else { command, extraSeparators := [] }

/-- The worst hit of a command that no short-circuit let through. -/
def worstHit (input : Normalized) (config : Config) : Option Hit :=
  let command := input.command
  let best := considerAll none (presplitHits command)
  let best :=
    match decodeAndExpand command 0 with
    | some decoded => scanLegs (splitCompound decoded) 1 config best
    | none => best
  let best :=
    scanLegs (resolveAssignments (splitCompound command)) 0 config best
  if input.extraSeparators.isEmpty then best
  else
    match ifsResplitBlock command input.extraSeparators config with
    | some hit => consider best hit
    | none => best

def evaluate (command : Str) (config : Config) : Verdict :=
  if config.disable then .allow
  else if config.isAllowed command then .allow
  else
    match worstHit (scanInput command config) config with
    | none => .allow
    | some hit => buildVerdict (severityToTier hit.severity config.thresholds) hit

end

end TrustLayer.AgentGuard.Gate
