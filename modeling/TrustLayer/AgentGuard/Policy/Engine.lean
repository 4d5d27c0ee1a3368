import TrustLayer.AgentGuard.Config
import TrustLayer.AgentGuard.Hook.Contract
import TrustLayer.AgentGuard.Policy.Matcher
import Mathlib.Algebra.Order.Ring.Nat

/-!
# The policy engine

Per-tool rules, the default action and the token budgets of a policy file.
The counters live in the `PolicySet` and are passed through every evaluation.
-/

namespace TrustLayer.AgentGuard.Policy

open TrustLayer.Library

/-! ## Schema -/

def currentSchemaVersion : Nat := 1

inductive DefaultAction where
  | allow
  | deny
  deriving DecidableEq

structure ToolRule where
  arg : Str
  pattern : Str
  severity : Nat
  reason : Str
  deriving DecidableEq

structure ToolSpec where
  name : Str
  allow : List Str
  rules : List ToolRule
  deriving DecidableEq

structure ToolBudget where
  maxTokens : Option Nat
  maxInvocations : Option Nat
  deriving DecidableEq

structure SessionBudget where
  maxTokens : Option Nat
  maxToolInvocations : Option Nat
  deriving DecidableEq

structure Budgets where
  session : SessionBudget
  perTool : List (Str × ToolBudget)
  deriving DecidableEq

structure PolicyFile where
  schemaVersion : Nat
  defaultAction : DefaultAction
  tools : List ToolSpec
  budgets : Budgets
  deriving DecidableEq

/-! ## Counters -/

def maxU64 : Nat := 2 ^ 64 - 1

/-- `u64::saturating_add`. -/
def saturatingAdd (left right : Nat) : Nat :=
  min (left + right) maxU64

/-- `+=` on `u64` in a release build. -/
def wrappingAdd (left right : Nat) : Nat :=
  (left + right) % 2 ^ 64

/-- Per-session counters; a tool without an entry counts zero. -/
structure SessionCounters where
  tokens : Nat
  toolInvocations : Nat
  perToolTokens : Str → Nat
  perToolInvocations : Str → Nat

namespace SessionCounters

def default : SessionCounters :=
  { tokens := 0, toolInvocations := 0, perToolTokens := fun _ => 0
    perToolInvocations := fun _ => 0 }

def charge (counters : SessionCounters) (tool : Str) (tokens : Nat) :
    SessionCounters :=
  { tokens := saturatingAdd counters.tokens tokens
    toolInvocations := saturatingAdd counters.toolInvocations 1
    perToolTokens :=
      Function.update counters.perToolTokens tool
        (wrappingAdd (counters.perToolTokens tool) tokens)
    perToolInvocations :=
      Function.update counters.perToolInvocations tool
        (wrappingAdd (counters.perToolInvocations tool) 1) }

end SessionCounters

/-- The loaded policy and the in-memory budget state, by session. -/
structure PolicySet where
  file : PolicyFile
  counters : Option Str → SessionCounters

namespace PolicySet

def ofFile (file : PolicyFile) : PolicySet :=
  { file, counters := fun _ => .default }

@[simp] theorem ofFile_file (file : PolicyFile) : (ofFile file).file = file :=
  rfl

@[simp] theorem ofFile_counters (file : PolicyFile) (session : Option Str) :
    (ofFile file).counters session = .default :=
  rfl

/-- No rules, no budgets. -/
def default : PolicySet :=
  ofFile
    { schemaVersion := currentSchemaVersion
      defaultAction := .allow
      tools := []
      budgets :=
        { session := { maxTokens := none, maxToolInvocations := none }
          perTool := [] } }

end PolicySet

/-! ## Loading -/

inductive PolicyError where
  | load (error : Str)
  | parse (error : Str)
  | schemaVersion (found supported : Nat)
  deriving DecidableEq

def PolicyError.message : PolicyError → Str
  | .load error => "policy load error: ".toList ++ error
  | .parse error => "policy parse error: ".toList ++ error
  | .schemaVersion found supported =>
      "policy schema_version ".toList ++ found.repr.toList ++
        " is not supported (this build supports ".toList ++
        supported.repr.toList ++ ")".toList

/-- `PolicySet::load`; `readFile` reads and parses the file at a path. -/
def PolicySet.load (readFile : Str → Except PolicyError PolicyFile)
    (path : Option Str) : Except PolicyError PolicySet :=
  match path with
  | none => .ok .default
  | some path => do
      let file ← readFile path
      if file.schemaVersion ≠ currentSchemaVersion then
        .error (.schemaVersion file.schemaVersion currentSchemaVersion)
      else .ok (.ofFile file)

/-! ## Rules -/

/-- On a prompt event the prompt is the only argument. -/
def resolveArg (input : HookInput) (arg : Str) : Str :=
  if input.hookEventName = "UserPromptSubmit".toList then
    if arg = "prompt".toList then input.prompt.getD [] else []
  else (lookupArg input.toolInput arg).getD []

/-- One turn of the inner loop of `evaluate_rules`. -/
def ruleStep (input : HookInput) (thresholds : Thresholds)
    (best : Option Verdict) (rule : ToolRule) : Option Verdict :=
  if patternMatches rule.pattern (resolveArg input rule.arg) then
    let keep (candidate : Verdict) : Option Verdict :=
      match best with
      | some previous => some (maxVerdict previous candidate)
      | none => some candidate
    match severityToTier rule.severity thresholds with
    | .allow => best
    | .block => keep (.block rule.reason)
    | .warn => keep (.warn rule.reason)
    | .ask => keep .allow
  else best

def evaluateRules (file : PolicyFile) (tool : Str) (input : HookInput)
    (thresholds : Thresholds) : Option Verdict :=
  file.tools.foldl
    (fun best spec =>
      if spec.name = tool then spec.rules.foldl (ruleStep input thresholds) best
      else best) none

/-! ## Budgets -/

/-- `max(1, chars / 4)`, rounded up. -/
def tokensFor (text : Str) : Nat :=
  let chars := text.length % 2 ^ 64
  max 1 ((chars + 3) / 4)

/-- The tool label and the tokens of a charged event. -/
def chargeFor (input : HookInput) : Option (Str × Nat) :=
  if input.hookEventName = "PreToolUse".toList then
    if input.toolName = some "Bash".toList then
      some ("Bash".toList, tokensFor (input.bashCommand.getD []))
    else none
  else if input.hookEventName = "UserPromptSubmit".toList then
    some ("UserPromptSubmit".toList, tokensFor (input.prompt.getD []))
  else none

/-- Ask when a configured cap lies below what is used. -/
def askAbove (cap : Option Nat) (used : Nat) (reason : Nat → Str) :
    Option Verdict :=
  match cap with
  | some cap => if used > cap then some (.ask (reason cap)) else none
  | none => none

/-- The caps of one tool. -/
def exceededToolCap (budget : ToolBudget) (entry : SessionCounters)
    (tool : Str) : Option Verdict :=
  (askAbove budget.maxTokens (entry.perToolTokens tool) fun cap =>
    "per-tool `".toList ++ tool ++ "` token budget exceeded: ".toList ++
      cap.repr.toList ++ " tokens".toList).or
  (askAbove budget.maxInvocations (entry.perToolInvocations tool) fun cap =>
    "per-tool `".toList ++ tool ++ "` invocation budget exceeded: ".toList ++
      cap.repr.toList ++ " invocations".toList)

/-- The Ask verdict of the first exceeded cap. -/
def exceededCap (budgets : Budgets) (entry : SessionCounters) (tool : Str)
    (tokens : Nat) : Option Verdict :=
  ((askAbove budgets.session.maxTokens entry.tokens fun cap =>
    "session token budget exceeded: ".toList ++ cap.repr.toList ++
      " tokens (charged ".toList ++ tokens.repr.toList ++ " for ".toList ++
      tool ++ ")".toList).or
  (askAbove budgets.session.maxToolInvocations entry.toolInvocations fun cap =>
    "session invocation budget exceeded: ".toList ++ cap.repr.toList ++
      " invocations".toList)).or
  ((budgets.perTool.lookup tool).bind fun budget =>
    exceededToolCap budget entry tool)

/-- Charge the input, then check the caps. -/
def budgetCheck (set : PolicySet) (input : HookInput) :
    Option Verdict × PolicySet :=
  match chargeFor input with
  | none => (none, set)
  | some (tool, tokens) =>
      let entry := (set.counters input.sessionId).charge tool tokens
      (exceededCap set.file.budgets entry tool tokens,
        { set with
          counters := Function.update set.counters input.sessionId entry })

/-! ## Evaluation -/

/-- Some entry of the tool has a non-empty `allow`. -/
def hasExplicitAllow (file : PolicyFile) (tool : Str) : Bool :=
  file.tools.any fun spec => spec.name == tool && !spec.allow.isEmpty

def evaluate (set : PolicySet) (input : HookInput) (config : Config) :
    Verdict × PolicySet :=
  let tool := input.tool
  match evaluateRules set.file tool input config.effectiveThresholds with
  | some verdict => (verdict, set)
  | none =>
      if set.file.defaultAction = .deny ∧ hasExplicitAllow set.file tool = false
      then
        (.block ("policy default-deny: tool `".toList ++ tool ++
          "` is not on the allow list".toList), set)
      else
        match budgetCheck set input with
        | (some ask, set) => (ask, set)
        | (none, set) => (.allow, set)

end TrustLayer.AgentGuard.Policy
