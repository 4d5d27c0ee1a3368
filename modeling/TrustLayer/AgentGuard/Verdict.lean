import TrustLayer.Library.Text

/-!
# Verdicts

The decision shape shared by the gate, the hook and the policy engine, and the
map from a numeric severity to a tier.
-/

namespace TrustLayer.AgentGuard

open TrustLayer.Library

inductive Tier where
  | allow
  | warn
  | ask
  | block
  deriving DecidableEq, Repr

/-- Precedence for `max_verdict`: `Block > Ask > Warn > Allow`. -/
def Tier.rank : Tier → Nat
  | .allow => 0
  | .warn => 1
  | .ask => 2
  | .block => 3

theorem Tier.rank_injective {first second : Tier}
    (same : first.rank = second.rank) : first = second := by
  cases first <;> cases second <;> first | rfl | cases same

structure Verdict where
  tier : Tier
  reason : Str
  feedback : Option Str
  ruleId : Option Str
  category : Option Str
  deriving DecidableEq

namespace Verdict

def allow : Verdict :=
  { tier := .allow, reason := [], feedback := none, ruleId := none,
    category := none }

def warn (reason : Str) : Verdict :=
  { tier := .warn, reason, feedback := none, ruleId := none,
    category := none }

def block (reason : Str) : Verdict :=
  { tier := .block, reason, feedback := none, ruleId := none,
    category := none }

def ask (reason : Str) : Verdict :=
  { tier := .ask, reason, feedback := none, ruleId := none,
    category := none }

def withFeedback (verdict : Verdict) (feedback : Str) : Verdict :=
  { verdict with feedback := some feedback }

@[simp] theorem allow_tier : allow.tier = .allow := rfl

@[simp] theorem warn_tier (reason : Str) : (warn reason).tier = .warn := rfl

@[simp] theorem block_tier (reason : Str) : (block reason).tier = .block := rfl

@[simp] theorem ask_tier (reason : Str) : (ask reason).tier = .ask := rfl

@[simp] theorem withFeedback_tier (verdict : Verdict) (feedback : Str) :
    (verdict.withFeedback feedback).tier = verdict.tier := rfl

end Verdict

/-- Severity cutoffs: `severity ≥ blockAt` blocks, `severity ≥ warnAt` warns. -/
structure Thresholds where
  blockAt : Nat
  warnAt : Nat
  deriving DecidableEq

/-- The built-in cutoffs. -/
def Thresholds.default : Thresholds :=
  { blockAt := 8, warnAt := 5 }

def severityToTier (severity : Nat) (thresholds : Thresholds) : Tier :=
  if severity ≥ thresholds.blockAt then .block
  else if severity ≥ thresholds.warnAt then .warn
  else .allow

theorem severityToTier_ne_ask (severity : Nat) (thresholds : Thresholds) :
    severityToTier severity thresholds ≠ .ask := by
  unfold severityToTier
  split
  · decide
  · split <;> decide

theorem severityToTier_block_iff {severity : Nat} {thresholds : Thresholds} :
    severityToTier severity thresholds = .block ↔
      thresholds.blockAt ≤ severity := by
  unfold severityToTier
  split_ifs <;> simp_all

/-- A higher severity never lowers the tier. -/
theorem severityToTier_mono (thresholds : Thresholds) {lower higher : Nat}
    (le : lower ≤ higher) :
    (severityToTier lower thresholds).rank ≤
      (severityToTier higher thresholds).rank := by
  unfold severityToTier
  split_ifs <;> simp [Tier.rank] <;> omega

/-- `max_verdict`: the more severe verdict, the first one on a tie. -/
def maxVerdict (first second : Verdict) : Verdict :=
  if second.tier.rank > first.tier.rank then second else first

theorem maxVerdict_rank (first second : Verdict) :
    (maxVerdict first second).tier.rank =
      max first.tier.rank second.tier.rank := by
  unfold maxVerdict
  split <;> omega

theorem maxVerdict_block_iff {first second : Verdict} :
    (maxVerdict first second).tier = .block ↔
      first.tier = .block ∨ second.tier = .block := by
  have highest : ∀ tier : Tier, tier.rank ≤ 3 ∧ (tier.rank = 3 ↔ tier = .block) := by
    intro tier
    cases tier <;> simp [Tier.rank]
  obtain ⟨firstBound, firstBlock⟩ := highest first.tier
  obtain ⟨secondBound, secondBlock⟩ := highest second.tier
  rw [← (highest _).2, maxVerdict_rank, ← firstBlock, ← secondBlock]
  omega

end TrustLayer.AgentGuard
