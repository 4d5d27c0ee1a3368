import TrustLayer.AgentGuard.Policy.Engine

/-!
# Default-deny

The rules are evaluated before the default action, so a rule that only warns
answers in place of the refusal.
-/

namespace TrustLayer.AgentGuard.Policy

open TrustLayer.Library

/-- The rule matches the input at this tier. -/
def RuleGrades (input : HookInput) (thresholds : Thresholds) (tier : Tier)
    (rule : ToolRule) : Prop :=
  patternMatches rule.pattern (resolveArg input rule.arg) = true ∧
    severityToTier rule.severity thresholds = tier

/-- The rules of every entry of a tool, in file order. -/
def toolRules (file : PolicyFile) (tool : Str) : List ToolRule :=
  (file.tools.filter fun spec => spec.name = tool).flatMap ToolSpec.rules

/-- Some rule of the tool matches the input at this tier. -/
def SomeRuleGrades (file : PolicyFile) (tool : Str) (input : HookInput)
    (thresholds : Thresholds) (tier : Tier) : Prop :=
  ∃ rule ∈ toolRules file tool, RuleGrades input thresholds tier rule

section

variable {input : HookInput} {thresholds : Thresholds}

/-- A rule that grades the input puts its verdict beside the best one so far;
any other rule leaves that alone. -/
private theorem ruleStep_spec (best : Option Verdict) (rule : ToolRule) :
    (¬ RuleGrades input thresholds .warn rule ∧
        ¬ RuleGrades input thresholds .block rule ∧
          ruleStep input thresholds best rule = best) ∨
      ∃ verdict : Verdict, (verdict.tier = .warn ∨ verdict.tier = .block) ∧
        (∀ tier, RuleGrades input thresholds tier rule ↔ verdict.tier = tier) ∧
          ruleStep input thresholds best rule =
            some (best.elim verdict fun previous =>
              maxVerdict previous verdict) := by
  unfold ruleStep RuleGrades
  by_cases matched :
      patternMatches rule.pattern (resolveArg input rule.arg) = true
  · simp only [matched, if_true, true_and]
    cases graded : severityToTier rule.severity thresholds with
    | ask => exact absurd graded (severityToTier_ne_ask _ _)
    | allow => simp
    | warn =>
        right
        refine ⟨.warn rule.reason, .inl rfl, fun tier => Iff.rfl, ?_⟩
        cases best <;> rfl
    | block =>
        right
        refine ⟨.block rule.reason, .inr rfl, fun tier => Iff.rfl, ?_⟩
        cases best <;> rfl
  · simp [matched]

private theorem ruleStep_block_iff {best : Option Verdict} {rule : ToolRule} :
    (∃ verdict, ruleStep input thresholds best rule = some verdict ∧
        verdict.tier = .block) ↔
      (∃ verdict, best = some verdict ∧ verdict.tier = .block) ∨
        RuleGrades input thresholds .block rule := by
  rcases @ruleStep_spec input thresholds best rule with
    ⟨-, noBlock, kept⟩ | ⟨verdict, -, grades, beside⟩
  · rw [kept, or_iff_left noBlock]
  · rw [beside, grades]
    cases best <;> simp [maxVerdict_block_iff]

private theorem ruleStep_none_iff {best : Option Verdict} {rule : ToolRule} :
    ruleStep input thresholds best rule = none ↔
      best = none ∧ ¬ RuleGrades input thresholds .warn rule ∧
        ¬ RuleGrades input thresholds .block rule := by
  rcases @ruleStep_spec input thresholds best rule with
    ⟨noWarn, noBlock, kept⟩ | ⟨verdict, tier, grades, beside⟩
  · rw [kept]
    exact (and_iff_left ⟨noWarn, noBlock⟩).symm
  · rw [beside, grades, grades]
    rcases tier with warns | blocks
    · simp [warns]
    · simp [blocks]

private theorem rules_block_iff {rules : List ToolRule} {best : Option Verdict} :
    (∃ verdict, rules.foldl (ruleStep input thresholds) best = some verdict ∧
        verdict.tier = .block) ↔
      (∃ verdict, best = some verdict ∧ verdict.tier = .block) ∨
        ∃ rule ∈ rules, RuleGrades input thresholds .block rule := by
  induction rules generalizing best with
  | nil => simp
  | cons rule rules induction =>
      rw [List.foldl_cons, induction, ruleStep_block_iff, or_assoc,
        List.exists_mem_cons_iff]

private theorem rules_none_iff {rules : List ToolRule} {best : Option Verdict} :
    rules.foldl (ruleStep input thresholds) best = none ↔
      best = none ∧ ∀ rule ∈ rules, ¬ RuleGrades input thresholds .warn rule ∧
        ¬ RuleGrades input thresholds .block rule := by
  induction rules generalizing best with
  | nil => simp
  | cons rule rules induction =>
      rw [List.foldl_cons, induction, ruleStep_none_iff, and_assoc,
        List.forall_mem_cons]

variable {file : PolicyFile} {tool : Str}

theorem evaluateRules_eq_foldl :
    evaluateRules file tool input thresholds =
      (toolRules file tool).foldl (ruleStep input thresholds) none := by
  have folded : ∀ (specs : List ToolSpec) (best : Option Verdict),
      specs.foldl
          (fun best spec =>
            if spec.name = tool then
              spec.rules.foldl (ruleStep input thresholds) best
            else best) best =
        ((specs.filter fun spec => spec.name = tool).flatMap
          ToolSpec.rules).foldl (ruleStep input thresholds) best := by
    intro specs
    induction specs with
    | nil => simp
    | cons spec specs induction =>
        intro best
        by_cases named : spec.name = tool
        · simp [named, induction, List.foldl_append]
        · simp [named, induction]
  exact folded file.tools none

theorem evaluateRules_block_iff :
    (∃ verdict, evaluateRules file tool input thresholds = some verdict ∧
        verdict.tier = .block) ↔
      SomeRuleGrades file tool input thresholds .block := by
  rw [evaluateRules_eq_foldl, rules_block_iff]
  simp [SomeRuleGrades]

theorem evaluateRules_none_iff :
    evaluateRules file tool input thresholds = none ↔
      ¬ SomeRuleGrades file tool input thresholds .warn ∧
        ¬ SomeRuleGrades file tool input thresholds .block := by
  rw [evaluateRules_eq_foldl, rules_none_iff]
  simp only [SomeRuleGrades, true_and, not_exists, not_and, ← forall_and]

end

/-! ## The law -/

/-- The policy denies by default and no entry of the tool allows anything. -/
structure DeniesByDefault (file : PolicyFile) (tool : Str) : Prop where
  action : file.defaultAction = .deny
  unlisted : ∀ spec ∈ file.tools, spec.name = tool → spec.allow = []

theorem DeniesByDefault.hasExplicitAllow {file : PolicyFile} {tool : Str}
    (denies : DeniesByDefault file tool) : hasExplicitAllow file tool = false := by
  simp only [Policy.hasExplicitAllow, List.any_eq_false, Bool.and_eq_true,
    beq_iff_eq, Bool.not_eq_true', not_and, Bool.not_eq_false,
    List.isEmpty_iff]
  exact denies.unlisted

/-- Under default-deny the engine blocks, unless a matching rule warns and no
matching rule blocks. -/
theorem evaluate_block_iff_of_deniesByDefault (set : PolicySet)
    (input : HookInput) (config : Config)
    (denies : DeniesByDefault set.file input.tool) :
    (evaluate set input config).1.tier = .block ↔
      ¬ (SomeRuleGrades set.file input.tool input config.effectiveThresholds
            .warn ∧
          ¬ SomeRuleGrades set.file input.tool input config.effectiveThresholds
            .block) := by
  rw [← evaluateRules_block_iff]
  cases result : evaluateRules set.file input.tool input
      config.effectiveThresholds with
  | none =>
      obtain ⟨noWarn, -⟩ := evaluateRules_none_iff.mp result
      simp [evaluate, result, denies.action, denies.hasExplicitAllow, noWarn]
  | some verdict =>
      have graded : SomeRuleGrades set.file input.tool input
            config.effectiveThresholds .warn ∨
          SomeRuleGrades set.file input.tool input config.effectiveThresholds
            .block := by
        by_contra neither
        rw [not_or, ← evaluateRules_none_iff, result] at neither
        exact absurd neither (by simp)
      rw [← evaluateRules_block_iff, result] at graded
      simp only [evaluate, result, Option.some.injEq, exists_eq_left'] at graded ⊢
      simp only [not_and, Decidable.not_not]
      constructor
      · exact fun block _ => block
      · intro warnBlocks
        rcases graded with warn | block
        · exact warnBlocks warn
        · exact block

/-- A default-deny policy whose only rule asks for caution on `curl`. -/
def curlCautionFile : PolicyFile :=
  { schemaVersion := currentSchemaVersion
    defaultAction := .deny
    tools :=
      [{ name := "Bash".toList
         allow := []
         rules :=
           [{ arg := "command".toList, pattern := "*curl*".toList
              severity := 6, reason := "network access".toList }] }]
    budgets :=
      { session := { maxTokens := none, maxToolInvocations := none }
        perTool := [] } }

def curlInput : HookInput :=
  { hookEventName := "PreToolUse".toList
    sessionId := some "s1".toList
    toolName := some "Bash".toList
    toolInput := .object [("command".toList, .string "curl x".toList)]
    prompt := none
    toolResponse := .null }

private theorem curlCautionFile_denies :
    DeniesByDefault curlCautionFile curlInput.tool :=
  ⟨rfl, by decide⟩

theorem evaluate_block_iff_of_deniesByDefault_curl :
    (evaluate (.ofFile curlCautionFile) curlInput .default).1.tier = .block ↔
      ¬ (SomeRuleGrades curlCautionFile curlInput.tool curlInput
            Config.default.effectiveThresholds .warn ∧
          ¬ SomeRuleGrades curlCautionFile curlInput.tool curlInput
            Config.default.effectiveThresholds .block) :=
  evaluate_block_iff_of_deniesByDefault (.ofFile curlCautionFile) curlInput
    .default curlCautionFile_denies

theorem deniesByDefault_softened :
    ¬ ∀ (set : PolicySet) (input : HookInput) (config : Config),
      DeniesByDefault set.file input.tool →
        (evaluate set input config).1.tier = .block := by
  intro law
  have blocked :=
    law (.ofFile curlCautionFile) curlInput .default curlCautionFile_denies
  revert blocked
  decide

end TrustLayer.AgentGuard.Policy
