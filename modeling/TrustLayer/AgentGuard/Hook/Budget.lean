import TrustLayer.AgentGuard.Hook.Dispatch

/-!
# Budgets across hook invocations

The counters of a policy live as long as its `PolicySet`, and the hook loads
one for every invocation it asks the policy about.
-/

namespace TrustLayer.AgentGuard.Policy

open TrustLayer.Library

/-! ## Caps -/

/-- A configured cap lies below what is used. -/
def Exceeds (cap : Option Nat) (used : Nat) : Prop :=
  ∃ limit, cap = some limit ∧ limit < used

/-- The charges of a session, as tool and tokens, exceed a cap that applies to
a tool. -/
def CapExceeded (budgets : Budgets) (charges : List (Str × Nat)) (tool : Str) :
    Prop :=
  let ofTool := charges.filter fun charge => charge.1 = tool
  Exceeds budgets.session.maxTokens (charges.map Prod.snd).sum ∨
  Exceeds budgets.session.maxToolInvocations charges.length ∨
  ∃ budget, budgets.perTool.lookup tool = some budget ∧
    (Exceeds budget.maxTokens (ofTool.map Prod.snd).sum ∨
      Exceeds budget.maxInvocations ofTool.length)

/-- The caps that the counters of a session exceed. -/
def CountersExceed (budgets : Budgets) (entry : SessionCounters) (tool : Str) :
    Prop :=
  Exceeds budgets.session.maxTokens entry.tokens ∨
  Exceeds budgets.session.maxToolInvocations entry.toolInvocations ∨
  ∃ budget, budgets.perTool.lookup tool = some budget ∧
    (Exceeds budget.maxTokens (entry.perToolTokens tool) ∨
      Exceeds budget.maxInvocations (entry.perToolInvocations tool))

theorem askAbove_isSome {cap : Option Nat} {used : Nat} {reason : Nat → Str} :
    (askAbove cap used reason).isSome = true ↔ Exceeds cap used := by
  cases cap with
  | none => simp [askAbove, Exceeds]
  | some cap => by_cases above : cap < used <;> simp [askAbove, Exceeds, above]

theorem askAbove_tier {cap : Option Nat} {used : Nat} {reason : Nat → Str}
    {verdict : Verdict} (result : askAbove cap used reason = some verdict) :
    verdict.tier = .ask := by
  cases cap with
  | none => cases result
  | some cap =>
      simp only [askAbove, Option.ite_none_right_eq_some,
        Option.some.injEq] at result
      exact result.2 ▸ rfl

theorem exceededCap_isSome {budgets : Budgets} {entry : SessionCounters}
    {tool : Str} {tokens : Nat} :
    (exceededCap budgets entry tool tokens).isSome = true ↔
      CountersExceed budgets entry tool := by
  cases lookup : budgets.perTool.lookup tool <;>
    simp only [exceededCap, exceededToolCap, CountersExceed, lookup,
      Option.isSome_or, Bool.or_eq_true, askAbove_isSome, Option.bind_none,
      Option.bind_some, Option.isSome_none, Bool.false_eq_true, reduceCtorEq,
      false_and, exists_false, Option.some.injEq, exists_eq_left', or_assoc]

theorem exceededCap_tier {budgets : Budgets} {entry : SessionCounters}
    {tool : Str} {tokens : Nat} {verdict : Verdict}
    (result : exceededCap budgets entry tool tokens = some verdict) :
    verdict.tier = .ask := by
  simp only [exceededCap, exceededToolCap, Option.or_eq_some_iff,
    Option.bind_eq_some_iff] at result
  rcases result with (session | ⟨-, session⟩) |
    ⟨-, budget, -, perTool | ⟨-, perTool⟩⟩
  · exact askAbove_tier session
  · exact askAbove_tier session
  · exact askAbove_tier perTool
  · exact askAbove_tier perTool

theorem tokensFor_lt (text : Str) : tokensFor text < 2 ^ 63 := by
  have small : text.length % 2 ^ 64 < 2 ^ 64 := Nat.mod_lt _ (by decide)
  simp only [tokensFor]
  omega

/-- A charged event is a Bash call or a prompt. -/
theorem chargeFor_label {input : HookInput} {tool : Str} {tokens : Nat}
    (charged : chargeFor input = some (tool, tokens)) :
    (input.hookEventName = "PreToolUse".toList ∧ tool = "Bash".toList) ∨
      (input.hookEventName ≠ "PreToolUse".toList ∧
        tool = "UserPromptSubmit".toList) := by
  unfold chargeFor at charged
  split_ifs at charged with preToolUse
  · cases charged
    exact .inl ⟨preToolUse, rfl⟩
  · cases charged
    exact .inr ⟨preToolUse, rfl⟩

theorem chargeFor_lt {input : HookInput} {tool : Str} {tokens : Nat}
    (charged : chargeFor input = some (tool, tokens)) : tokens < 2 ^ 63 := by
  unfold chargeFor at charged
  split_ifs at charged <;> cases charged <;> exact tokensFor_lt _

/-- A single charge exceeds a cap exactly when fresh counters do after it. -/
theorem countersExceed_fresh {budgets : Budgets} {tool : Str} {tokens : Nat}
    (small : tokens < 2 ^ 63) :
    CountersExceed budgets (SessionCounters.default.charge tool tokens) tool ↔
      CapExceeded budgets [(tool, tokens)] tool := by
  have saturated : saturatingAdd 0 tokens = tokens := by
    simp only [saturatingAdd, maxU64]
    omega
  have wrapped : wrappingAdd 0 tokens = tokens := by
    simp only [wrappingAdd]
    omega
  have one : saturatingAdd 0 1 = 1 ∧ wrappingAdd 0 1 = 1 := by decide
  simp [CountersExceed, CapExceeded, SessionCounters.charge,
    SessionCounters.default, saturated, wrapped, one]

end TrustLayer.AgentGuard.Policy

namespace TrustLayer.AgentGuard.Hook

open TrustLayer.Library
open TrustLayer.AgentGuard.Policy

/-! ## Charged invocations -/

/-- The policy file the hook is configured with, when it loads. -/
def configuredPolicy (host : Host) (config : Config) : Option PolicyFile :=
  (PolicySet.load host.readPolicy config.policy.file).toOption.map
    PolicySet.file

/-- No rule answers for the input, and the default action lets it through. -/
def ReachesBudget (file : PolicyFile) (config : Config) (input : HookInput) :
    Prop :=
  evaluateRules file input.tool input config.effectiveThresholds = none ∧
    ¬ (file.defaultAction = .deny ∧ hasExplicitAllow file input.tool = false)

instance (file : PolicyFile) (config : Config) (input : HookInput) :
    Decidable (ReachesBudget file config input) :=
  inferInstanceAs (Decidable (_ ∧ ¬ (_ ∧ _)))

/-- The tool and the tokens the policy charges to a session for an
invocation. -/
def chargeOf (host : Host) (config : Config) (file : PolicyFile)
    (session : Option Str) (stdinJson : Str) : Option (Str × Nat) :=
  (received host config stdinJson).bind fun input =>
    if input.sessionId = session ∧ ReachesBudget file config input then
      chargeFor input
    else none

/-- The invocation is charged to the session after earlier ones exceeded a cap
that applies to its tool. -/
structure ChargedOverCap (host : Host) (config : Config) (session : Option Str)
    (past : List Str) (event : Str) (file : PolicyFile) (tool : Str)
    (tokens : Nat) : Prop where
  loaded : configuredPolicy host config = some file
  charged : chargeOf host config file session event = some (tool, tokens)
  exceeded :
    CapExceeded file.budgets
      (past.filterMap (chargeOf host config file session)) tool

/-- The policy's verdict on the invocation is at least Ask. -/
def PolicyAsks (host : Host) (config : Config) (event : Str) : Prop :=
  ∃ verdict, policyVerdict host config event = some verdict ∧
    Tier.ask.rank ≤ verdict.tier.rank

/-- Once a cap is exceeded, the policy asks at every later charged
invocation of the session. -/
def BudgetEnforced (host : Host) (config : Config) (session : Option Str)
    (invocations : List Str) : Prop :=
  ∀ past event later, invocations = past ++ event :: later →
    ∀ file tool tokens,
      ChargedOverCap host config session past event file tool tokens →
        PolicyAsks host config event

/-- Every invocation charged over a cap is a Bash call whose own charge
exceeds one. -/
def OverCapAlone (host : Host) (config : Config) (session : Option Str)
    (invocations : List Str) : Prop :=
  ∀ past event later, invocations = past ++ event :: later →
    ∀ file tool tokens,
      ChargedOverCap host config session past event file tool tokens →
        tool = "Bash".toList ∧
          CapExceeded file.budgets [(tool, tokens)] tool

theorem load_eq_ofFile {host : Host} {config : Config} {file : PolicyFile}
    (loaded : configuredPolicy host config = some file) :
    PolicySet.load host.readPolicy config.policy.file = .ok (.ofFile file) := by
  unfold configuredPolicy PolicySet.load at *
  cases path : config.policy.file with
  | none =>
      simp only [path, Except.toOption, Option.map_some, Option.some.injEq] at loaded
      rw [← loaded]
      rfl
  | some path' =>
      simp only [path] at loaded ⊢
      cases read : host.readPolicy path' with
      | error error =>
          simp [read, bind, Except.bind, Except.toOption] at loaded
      | ok parsed =>
          simp only [read, bind, Except.bind] at loaded ⊢
          split_ifs at loaded ⊢ with unsupported
          · simp [Except.toOption] at loaded
          · simp only [Except.toOption, Option.map_some,
              Option.some.injEq] at loaded
            rw [← loaded]
            rfl

/-- An event that reaches the budget is answered by the caps. -/
theorem evaluate_of_reachesBudget {set : PolicySet} {config : Config}
    {input : HookInput} {tool : Str} {tokens : Nat}
    (reaches : ReachesBudget set.file config input)
    (charge : chargeFor input = some (tool, tokens)) :
    (Policy.evaluate set input config).1 =
      (exceededCap set.file.budgets
        ((set.counters input.sessionId).charge tool tokens) tool tokens).getD
          .allow := by
  obtain ⟨unanswered, permitted⟩ := reaches
  simp only [Policy.evaluate, unanswered]
  rw [if_neg permitted]
  simp only [budgetCheck, charge]
  cases exceededCap set.file.budgets
    ((set.counters input.sessionId).charge tool tokens) tool tokens <;> rfl

/-- The verdict of one charged invocation depends on its own charge alone. -/
theorem policyAsks_iff {host : Host} {config : Config} {session : Option Str}
    {event : Str} {file : PolicyFile} {tool : Str} {tokens : Nat}
    (loaded : configuredPolicy host config = some file)
    (charged : chargeOf host config file session event = some (tool, tokens)) :
    PolicyAsks host config event ↔
      tool = "Bash".toList ∧
        CapExceeded file.budgets [(tool, tokens)] tool := by
  obtain ⟨input, arrived, guarded⟩ := Option.bind_eq_some_iff.mp charged
  obtain ⟨⟨-, reaches⟩, charge⟩ := Option.ite_none_right_eq_some.mp guarded
  have small := chargeFor_lt charge
  have capped := @exceededCap_isSome file.budgets
    (SessionCounters.default.charge tool tokens) tool tokens
  rw [← countersExceed_fresh small, ← capped]
  simp only [PolicyAsks, policyVerdict, arrived, Option.bind_some]
  rcases chargeFor_label charge with ⟨preToolUse, bash⟩ | ⟨otherEvent, prompt⟩
  · have asked : policyEngineEvaluate host input config =
        (exceededCap file.budgets (SessionCounters.default.charge tool tokens)
          tool tokens).getD .allow := by
      rw [policyEngineEvaluate, load_eq_ofFile loaded]
      exact @evaluate_of_reachesBudget (.ofFile file) _ _ _ _ reaches charge
    rw [if_pos preToolUse, asked, and_iff_right bash]
    cases result : exceededCap file.budgets
        (SessionCounters.default.charge tool tokens) tool tokens with
    | none => simp [Tier.rank]
    | some ask => simp [exceededCap_tier result]
  · have notBash : tool ≠ "Bash".toList := by
      rw [prompt]
      decide
    rw [if_neg otherEvent]
    simp only [reduceCtorEq, false_and, exists_false, false_iff, not_and]
    exact fun bash => absurd bash notBash

/-- Over a whole run the budget is enforced exactly when every invocation
charged over a cap exceeds one by itself. -/
theorem budgetEnforced_iff (host : Host) (config : Config)
    (session : Option Str) (invocations : List Str) :
    BudgetEnforced host config session invocations ↔
      OverCapAlone host config session invocations := by
  constructor
  · intro enforced past event later split file tool tokens overCap
    exact (policyAsks_iff overCap.loaded overCap.charged).mp
      (enforced past event later split file tool tokens overCap)
  · intro alone past event later split file tool tokens overCap
    exact (policyAsks_iff overCap.loaded overCap.charged).mpr
      (alone past event later split file tool tokens overCap)

/-- A policy whose only cap is one tool invocation a session. -/
def oneCallFile : PolicyFile :=
  { schemaVersion := currentSchemaVersion
    defaultAction := .allow
    tools := []
    budgets :=
      { session := { maxTokens := none, maxToolInvocations := some 1 }
        perTool := [] } }

def lsCall : Str :=
  ("\x7b\"hook_event_name\":\"PreToolUse\",\"session_id\":\"s1\"," ++
    "\"tool_name\":\"Bash\",\"tool_input\":\x7b\"command\":\"ls\"\x7d\x7d").toList

def lsInput : HookInput :=
  { hookEventName := "PreToolUse".toList
    sessionId := some "s1".toList
    toolName := some "Bash".toList
    toolInput := .object [("command".toList, .string "ls".toList)]
    prompt := none
    toolResponse := .null }

/-- A host that reads one policy file and parses one call. -/
def oneCallHost : Host :=
  { disableVar := none
    parseInput := fun text => if text = lsCall then some lsInput else none
    renderJson := fun _ => []
    readPolicy := fun path =>
      if path = "policy.toml".toList then .ok oneCallFile
      else .error (.load "No such file or directory (os error 2)".toList)
    scanSurface := fun _ _ _ => .allow
    checkPath := fun _ _ _ => .allow
    emitToken := fun _ => []
    readToken := fun _ => none }

def oneCallConfig : Config :=
  { Config.default with policy := { file := some "policy.toml".toList } }

theorem budget_not_enforced_on_repeated_call :
    ¬ BudgetEnforced oneCallHost oneCallConfig (some "s1".toList)
      [lsCall, lsCall, lsCall] := by
  intro enforced
  have overCap : ChargedOverCap oneCallHost oneCallConfig (some "s1".toList)
      [lsCall, lsCall] lsCall oneCallFile "Bash".toList 1 :=
    { loaded := by decide
      charged := by decide
      exceeded := .inr (.inl ⟨1, rfl, by decide⟩) }
  obtain ⟨verdict, answer, asks⟩ :=
    enforced [lsCall, lsCall] lsCall [] rfl _ _ _ overCap
  have allowed : policyVerdict oneCallHost oneCallConfig lsCall = some .allow := by
    decide
  rw [allowed] at answer
  cases answer
  simp [Tier.rank] at asks

end TrustLayer.AgentGuard.Hook
