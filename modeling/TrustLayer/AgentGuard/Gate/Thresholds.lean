import TrustLayer.AgentGuard.Gate.Hits
import Mathlib.Order.Bounds.Basic

/-!
# The thresholds the gate decides with

`effective_thresholds` resolves the level preset; the gate reads the raw field
in the final mapping, in the `IFS` re-split and in the decode-cap hit.
-/

namespace TrustLayer.AgentGuard.Gate

open TrustLayer.Library

/-- The configuration with the level preset resolved into its thresholds. -/
def withEffectiveThresholds (config : Config) : Config :=
  { config with thresholds := config.effectiveThresholds }

@[simp] theorem scanInput_withEffectiveThresholds (command : Str)
    (config : Config) :
    scanInput command (withEffectiveThresholds config) =
      scanInput command config :=
  rfl

section

variable [Base64Engine]

/-- The severities of the hits of a command, the thresholds being the
effective ones wherever the gate reads them. -/
def effectiveSeverities (config : Config) (command : Str) : Set Nat :=
  { severity | ∃ hit,
    GateHit (withEffectiveThresholds config) (scanInput command config) hit ∧
      hit.severity = severity }

/-- The gate's tier is that of the maximal severity under the effective
thresholds, and Allow when there is no hit. -/
def DecidesEffectively (config : Config) (command : Str) : Prop :=
  (∀ severity, IsGreatest (effectiveSeverities config command) severity →
    (evaluate command config).tier =
      severityToTier severity config.effectiveThresholds) ∧
  (effectiveSeverities config command = ∅ →
    (evaluate command config).tier = .allow)

/-- The configured cutoffs and the effective ones are reached alike: that of
Block, and that of Warn in a command that reaches no Block. -/
def CutoffsReachedAlike (config : Config) (command : Str) : Prop :=
  (Reaches config command config.thresholds.blockAt ↔
    Reaches (withEffectiveThresholds config) command
      config.effectiveThresholds.blockAt) ∧
  (Reaches config command config.thresholds.blockAt ∨
    (Reaches config command config.thresholds.warnAt ↔
      Reaches (withEffectiveThresholds config) command
        config.effectiveThresholds.warnAt))

omit [Base64Engine] in
private theorem gradedTier_eq_iff {block warn other otherWarn : Prop}
    [Decidable block] [Decidable warn] [Decidable other] [Decidable otherWarn] :
    (if block then Tier.block else if warn then .warn else .allow) =
        (if other then Tier.block else if otherWarn then .warn else .allow) ↔
      (block ↔ other) ∧ (block ∨ (warn ↔ otherWarn)) := by
  by_cases block <;> by_cases warn <;> by_cases other <;> by_cases otherWarn <;>
    simp [*]

omit [Base64Engine] in
private theorem worstTier_eq_iff {configured preset : Thresholds}
    {worst other : Option Hit} :
    worstTier configured worst = worstTier preset other ↔
      ((∃ hit, worst = some hit ∧ configured.blockAt ≤ hit.severity) ↔
        ∃ hit, other = some hit ∧ preset.blockAt ≤ hit.severity) ∧
      ((∃ hit, worst = some hit ∧ configured.blockAt ≤ hit.severity) ∨
        ((∃ hit, worst = some hit ∧ configured.warnAt ≤ hit.severity) ↔
          ∃ hit, other = some hit ∧ preset.warnAt ≤ hit.severity)) := by
  classical
  rw [worstTier_graded, worstTier_graded, gradedTier_eq_iff]

private theorem decidesEffectively_iff {config : Config} {command : Str} :
    DecidesEffectively config command ↔
      (evaluate command config).tier =
        worstTier config.effectiveThresholds
          (worstHit (scanInput command config)
            (withEffectiveThresholds config)) := by
  have isWorst :=
    worstHit_worst (scanInput command config) (withEffectiveThresholds config)
  cases result : worstHit (scanInput command config)
      (withEffectiveThresholds config) with
  | none =>
      rw [result] at isWorst
      have noHits : effectiveSeverities config command = ∅ :=
        Set.eq_empty_of_forall_notMem fun _ ⟨hit, gateHit, _⟩ =>
          isWorst hit gateHit
      simp only [DecidesEffectively, noHits, worstTier]
      constructor
      · exact fun decides => decides.2 trivial
      · intro allowed
        exact ⟨fun severity greatest => absurd greatest.1 (by simp),
          fun _ => allowed⟩
  | some worst =>
      rw [result] at isWorst
      obtain ⟨gateHit, above⟩ := isWorst
      have greatest :
          IsGreatest (effectiveSeverities config command) worst.severity :=
        ⟨⟨worst, gateHit, rfl⟩, fun _ ⟨hit, found, same⟩ => same ▸ above hit found⟩
      have nonempty : effectiveSeverities config command ≠ ∅ :=
        Set.Nonempty.ne_empty ⟨_, greatest.1⟩
      constructor
      · exact fun decides => decides.1 _ greatest
      · intro decided
        refine ⟨fun severity other => ?_, fun none => absurd none nonempty⟩
        rw [decided, worstTier, greatest.unique other]

/-- The gate decides with the effective thresholds exactly on the commands
whose hits do not tell the configured cutoffs from them. -/
theorem evaluate_decidesEffectively_iff (config : Config) (command : Str)
    (enabled : config.disable = false)
    (listed : config.isAllowed command = false) :
    DecidesEffectively config command ↔ CutoffsReachedAlike config command := by
  rw [decidesEffectively_iff, evaluate_tier enabled listed, worstTier_eq_iff]
  simp only [CutoffsReachedAlike, worst_reaches_iff,
    scanInput_withEffectiveThresholds]


end

/-- The built-in cutoffs under the preset `critical`, which blocks from 5. -/
def criticalConfig : Config :=
  { Config.default with level := some "critical".toList }

theorem evaluate_decidesEffectively_iff_chmod :
    @DecidesEffectively .standard criticalConfig "chmod 777 a".toList ↔
      @CutoffsReachedAlike .standard criticalConfig "chmod 777 a".toList :=
  @evaluate_decidesEffectively_iff .standard criticalConfig
    "chmod 777 a".toList rfl rfl

theorem chmod_not_decidesEffectively :
    ¬ @DecidesEffectively .standard criticalConfig "chmod 777 a".toList := by
  rw [@decidesEffectively_iff .standard]
  decide

end TrustLayer.AgentGuard.Gate
