import TrustLayer.AgentGuard.Verdict

/-!
# Configuration

The fields of the configuration file that the gate, the hook and the policy
engine read, with the severity presets and the component kill-switch.
-/

namespace TrustLayer.AgentGuard

open TrustLayer.Library

structure CustomBlock where
  pattern : Str
  severity : Nat
  category : Str
  deriving DecidableEq

/-- A `[[tool_rules]]` entry of the configuration. -/
structure ConfigToolRule where
  tool : Str
  arg : Str
  pattern : Str
  severity : Nat
  deriving DecidableEq

structure CanaryConfig where
  enabled : Bool
  deriving DecidableEq

structure PolicyConfig where
  file : Option Str
  deriving DecidableEq

structure Config where
  allowList : List Str
  customBlocks : List CustomBlock
  thresholds : Thresholds
  disable : Bool
  normalize : Bool
  packs : List Str
  toolRules : List ConfigToolRule
  disabled : List Str
  level : Option Str
  canary : CanaryConfig
  policy : PolicyConfig
  deriving DecidableEq

/-- `Config::default()`. -/
def Config.default : Config :=
  { allowList := []
    customBlocks := []
    thresholds := .default
    disable := false
    normalize := true
    packs := []
    toolRules := []
    disabled := []
    level := none
    canary := { enabled := false }
    policy := { file := none } }

/-- The loop of `glob_match` after the first part: what is left of the text
once every part has been found in order. -/
def globRest : List Str → Str → Option Str
  | [], text => some text
  | part :: parts, text =>
      match splitFirst part text with
      | none => none
      | some (_, after) => globRest parts after

/-- `glob_match`: a leading `*` relaxes the start anchor, a trailing `*` the
end anchor. -/
def globMatch (pattern text : Str) : Bool :=
  if '*' ∉ pattern then contains text pattern
  else
    let anchoredStart := pattern.head? ≠ some '*'
    let anchoredEnd := pattern.getLast? ≠ some '*'
    match (splitChar '*' pattern).filter fun part => !part.isEmpty with
    | [] => true
    | part :: parts =>
        match splitFirst part text with
        | none => false
        | some (before, after) =>
            if anchoredStart ∧ before ≠ [] then false
            else
              match globRest parts after with
              | none => false
              | some rest => !(anchoredEnd ∧ rest ≠ [])

/-- `AGENTGUARD_DISABLE`, parsed. -/
structure EnvDisable where
  all : Bool
  names : List Str
  deriving DecidableEq

namespace EnvDisable

def default : EnvDisable := { all := false, names := [] }

def parse (raw : Str) : EnvDisable :=
  let trimmed := toAsciiLowercase (trim raw)
  if trimmed = "1".toList ∨ trimmed = "true".toList then
    { all := true, names := [] }
  else
    { all := false
      names :=
        ((splitChar ',' trimmed).map trim).filter fun name => !name.isEmpty }

end EnvDisable

/-- `level_preset`. -/
def levelPreset (level : Str) : Option Thresholds :=
  let name := toAsciiLowercase (trim level)
  if name = "strict".toList then some { blockAt := 7, warnAt := 4 }
  else if name = "high".toList then some { blockAt := 6, warnAt := 3 }
  else if name = "critical".toList then some { blockAt := 5, warnAt := 2 }
  else none

namespace Config

def isAllowed (config : Config) (command : Str) : Bool :=
  config.allowList.any fun pattern => globMatch pattern command

def isComponentDisabled (config : Config) (component : Str)
    (envDisabled : EnvDisable) : Bool :=
  if config.disable || envDisabled.all then true
  else
    let want := toAsciiLowercase (trim component)
    config.disabled.any (fun name => toAsciiLowercase (trim name) == want) ||
      envDisabled.names.contains want

/-- The preset named by `level`, else the configured thresholds. -/
def effectiveThresholds (config : Config) : Thresholds :=
  match config.level.map levelPreset with
  | some (some preset) => preset
  | _ => config.thresholds

end Config

end TrustLayer.AgentGuard
