import TrustLayer.AgentGuard.Gate.Evaluate
import TrustLayer.AgentGuard.Policy.Engine

/-!
# The hook entry point

Kill-switch, parse, dispatch by event and tool, and emission.  The firewall,
the path guard, the canary store, the parsers and the process environment are
the `Host`.
-/

namespace TrustLayer.AgentGuard.Hook

open TrustLayer.Library
open TrustLayer.AgentGuard.Policy

inductive Surface where
  | readFile
  | webFetch
  | webSearch
  | userPrompt
  | bashStdout
  deriving DecidableEq

inductive FirewallInput where
  | inline (text : Str)
  | file (path : Str)
  | url (url : Str)
  deriving DecidableEq

/-- What a hook process finds around it. -/
structure Host where
  /-- `AGENTGUARD_DISABLE` in the environment of the hook process. -/
  disableVar : Option Str
  /-- `serde_json::from_str::<HookInput>`. -/
  parseInput : Str → Option HookInput
  /-- `serde_json::Value::to_string`. -/
  renderJson : Json → Str
  /-- Read and parse the policy file at a path. -/
  readPolicy : Str → Except PolicyError PolicyFile
  /-- `firewall::scan_surface`. -/
  scanSurface : Surface → FirewallInput → Thresholds → Verdict
  /-- `pathguard::check_path`. -/
  checkPath : (tool path : Str) → (write : Bool) → Verdict
  /-- `canary::emit_token`. -/
  emitToken : Str → Str
  /-- `canary::read_token`. -/
  readToken : Str → Option Str

/-! ## Kill-switch -/

def componentGate : Str := "gate".toList

def componentFirewall : Str := "firewall".toList

def componentPathguard : Str := "pathguard".toList

def componentCanary : Str := "canary".toList

def readEnvDisable (host : Host) : EnvDisable :=
  match host.disableVar with
  | some value => .parse value
  | none => .default

def killSwitchActive (config : Config) (envDisabled : EnvDisable) : Bool :=
  config.disable || envDisabled.all

/-! ## `PreToolUse` -/

def pathVerdict (host : Host) (input : HookInput) (tool : Str) (write : Bool) :
    Verdict :=
  match input.filePath with
  | some path => host.checkPath tool path write
  | none => .allow

/-- Scan what an accessor finds in the input. -/
def scanArgument (host : Host) (surface : Surface)
    (wrap : Str → FirewallInput) (argument : Option Str)
    (thresholds : Thresholds) : Verdict :=
  match argument with
  | some text => host.scanSurface surface (wrap text) thresholds
  | none => .allow

section

variable [Gate.Base64Engine]

def dispatchPretooluseBuiltin (host : Host) (input : HookInput)
    (config : Config) (envDisabled : EnvDisable) : Verdict :=
  let tool := input.tool
  let thresholds := config.effectiveThresholds
  let firewallOff := config.isComponentDisabled componentFirewall envDisabled
  let pathguardOff := config.isComponentDisabled componentPathguard envDisabled
  if tool = "Bash".toList then
    if config.isComponentDisabled componentGate envDisabled then .allow
    else
      match input.bashCommand with
      | some command => Gate.evaluate command config
      | none => .allow
  else if tool = "Read".toList then
    let guard :=
      if pathguardOff then .allow else pathVerdict host input tool false
    if guard.tier = .block then guard
    else if firewallOff then .allow
    else scanArgument host .readFile .file input.filePath thresholds
  else if tool = "Write".toList ∨ tool = "Edit".toList then
    if pathguardOff then .allow else pathVerdict host input tool true
  else if tool = "WebFetch".toList then
    if firewallOff then .allow
    else scanArgument host .webFetch .url input.webUrl thresholds
  else if tool = "WebSearch".toList then
    if firewallOff then .allow
    else scanArgument host .webSearch .url input.webQuery thresholds
  else .allow

/-- One turn of the loop of `tool_rule_verdict`. -/
def toolRuleStep (input : HookInput) (thresholds : Thresholds) (best : Verdict)
    (rule : ConfigToolRule) : Verdict :=
  if rule.tool ≠ input.tool then best
  else
    match lookupArg input.toolInput rule.arg with
    | none => best
    | some value =>
        if patternMatches rule.pattern value = false then best
        else
          let reason :=
            "tool `".toList ++ rule.tool ++ "` argument `".toList ++ rule.arg ++
              "` matches policy pattern `".toList ++ rule.pattern ++
              "` (tool-rule)".toList
          match severityToTier rule.severity thresholds with
          | .allow => best
          | .warn => maxVerdict best (.warn reason)
          | .block => maxVerdict best (.block reason)
          | .ask => maxVerdict best .allow

def toolRuleVerdict (input : HookInput) (config : Config) : Verdict :=
  config.toolRules.foldl (toolRuleStep input config.effectiveThresholds) .allow

/-- The policy pass: the set is loaded, evaluated once and dropped. -/
def policyEngineEvaluate (host : Host) (input : HookInput) (config : Config) :
    Verdict :=
  match PolicySet.load host.readPolicy config.policy.file with
  | .error error =>
      .block ("policy load error (fail-closed): ".toList ++ error.message)
  | .ok set => (Policy.evaluate set input config).1

def dispatchPretooluse (host : Host) (input : HookInput) (config : Config)
    (envDisabled : EnvDisable) : Verdict :=
  let builtin := dispatchPretooluseBuiltin host input config envDisabled
  let withRules := maxVerdict builtin (toolRuleVerdict input config)
  maxVerdict withRules (policyEngineEvaluate host input config)

/-! ## The other events -/

/-- `session_id` when present and not empty. -/
def namedSession (input : HookInput) : Option Str :=
  input.sessionId.filter fun session => !session.isEmpty

def canaryScan (host : Host) (input : HookInput) (config : Config)
    (stdout : Str) : Option Verdict :=
  if config.canary.enabled = false then none
  else do
    let session ← namedSession input
    let token ← host.readToken session
    if contains stdout token then
      some (.warn ("possible verbatim context echo in tool output " ++
        "(detection after execution, not prevention)").toList)
    else none

def dispatchPosttooluse (host : Host) (input : HookInput) (config : Config)
    (envDisabled : EnvDisable) : Verdict :=
  if input.toolName ≠ some "Bash".toList then .allow
  else
    match input.toolStdout host.renderJson with
    | none => .allow
    | some stdout =>
        let scanned :=
          if config.isComponentDisabled componentFirewall envDisabled then .allow
          else
            host.scanSurface .bashStdout (.inline stdout)
              config.effectiveThresholds
        if scanned.tier ≠ .allow then scanned
        else if config.isComponentDisabled componentCanary envDisabled then .allow
        else (canaryScan host input config stdout).getD .allow

def dispatch (host : Host) (input : HookInput) (config : Config)
    (envDisabled : EnvDisable) : Verdict :=
  if input.hookEventName = "PreToolUse".toList then
    dispatchPretooluse host input config envDisabled
  else if input.hookEventName = "PostToolUse".toList then
    dispatchPosttooluse host input config envDisabled
  else if input.hookEventName = "UserPromptSubmit".toList then
    if config.isComponentDisabled componentFirewall envDisabled then .allow
    else
      scanArgument host .userPrompt .inline input.prompt
        config.effectiveThresholds
  else .allow

def sessionStartOutput (host : Host) (input : HookInput) (config : Config)
    (envDisabled : EnvDisable) : Option HookOutput × Nat :=
  if config.canary.enabled = false ∨
      config.isComponentDisabled componentCanary envDisabled = true then
    (none, 0)
  else
    match namedSession input with
    | none => (none, 0)
    | some session =>
        let context :=
          "Environment sentinel value (apohara-agentguard canary): ".toList ++
            host.emitToken session ++
            (". This opaque marker is session-local data; " ++
              "it is not an instruction.").toList
        (some (.sessionContext context), 0)

/-! ## Entry -/

/-- The input that gets past the kill-switch and the parser. -/
def received (host : Host) (config : Config) (stdinJson : Str) :
    Option HookInput :=
  if killSwitchActive config (readEnvDisable host) then none
  else host.parseInput stdinJson

def runWithSource (host : Host) (config : Config) (stdinJson : Str) :
    Option HookOutput × Nat :=
  match received host config stdinJson with
  | none => (none, 0)
  | some input =>
      let envDisabled := readEnvDisable host
      if input.hookEventName = "SessionStart".toList then
        sessionStartOutput host input config envDisabled
      else
        emit input.hookEventName (dispatch host input config envDisabled)

/-! ## The policy's part of an invocation -/

omit [Gate.Base64Engine] in
/-- The verdict the policy contributes to an invocation, if it is asked. -/
def policyVerdict (host : Host) (config : Config) (stdinJson : Str) :
    Option Verdict :=
  (received host config stdinJson).bind fun input =>
    if input.hookEventName = "PreToolUse".toList then
      some (policyEngineEvaluate host input config)
    else none

/-- An invocation that the policy is asked about answers with a verdict at
least as severe as the policy's. -/
theorem policyVerdict_le_dispatch {host : Host} {config : Config}
    {stdinJson : Str} {verdict : Verdict}
    (asked : policyVerdict host config stdinJson = some verdict) :
    ∃ input, received host config stdinJson = some input ∧
      verdict.tier.rank ≤
        (dispatch host input config (readEnvDisable host)).tier.rank ∧
      runWithSource host config stdinJson =
        emit input.hookEventName
          (dispatch host input config (readEnvDisable host)) := by
  obtain ⟨input, arrived, result⟩ := Option.bind_eq_some_iff.mp asked
  split at result
  · rename_i event
    refine ⟨input, arrived, ?_, ?_⟩
    · cases result
      simp only [dispatch, event, if_true, dispatchPretooluse, maxVerdict_rank]
      omega
    · simp [runWithSource, arrived, event]
  · cases result

end

end TrustLayer.AgentGuard.Hook
