import TrustLayer.AgentGuard.Verdict
import Mathlib.Algebra.Group.Nat.Defs
import Mathlib.Algebra.Group.Int.Defs

/-!
# The hook contract

What a hook invocation reads on its standard input, and what it prints.
-/

namespace TrustLayer.AgentGuard

open TrustLayer.Library

/-- `serde_json::Value`; the keys of an object are distinct. -/
inductive Json where
  | null
  | bool (value : Bool)
  | number (literal : Str)
  | string (text : Str)
  | array (items : List Json)
  | object (fields : List (Str × Json))

namespace Json

def get (key : Str) : Json → Option Json
  | .object fields => fields.lookup key
  | _ => none

def asStr : Json → Option Str
  | .string text => some text
  | _ => none

def asArray : Json → Option (List Json)
  | .array items => some items
  | _ => none

/-- `as_i64`; serde reads `-0` as a float. -/
def asI64 : Json → Option Int
  | .number literal =>
      let digits := if literal.head? = some '-' then literal.tail else literal
      let magnitude : Int :=
        digits.foldl (fun value digit => value * 10 + (digit.toNat - 48)) 0
      let value := if literal.head? = some '-' then -magnitude else magnitude
      let negativeZero := literal.head? = some '-' ∧ magnitude = 0
      if digits = [] ∨ ¬ digits.all Char.isDigit ∨ negativeZero then none
      else if -2 ^ 63 ≤ value ∧ value < 2 ^ 63 then some value
      else none
  | _ => none

end Json

/-! ## Input -/

structure HookInput where
  hookEventName : Str
  sessionId : Option Str
  toolName : Option Str
  toolInput : Json
  prompt : Option Str
  toolResponse : Json

namespace HookInput

def bashCommand (input : HookInput) : Option Str :=
  (input.toolInput.get "command".toList).bind Json.asStr

def filePath (input : HookInput) : Option Str :=
  ((input.toolInput.get "file_path".toList).or
    (input.toolInput.get "path".toList)).bind Json.asStr

def webUrl (input : HookInput) : Option Str :=
  (input.toolInput.get "url".toList).bind Json.asStr

def webQuery (input : HookInput) : Option Str :=
  (input.toolInput.get "query".toList).bind Json.asStr

/-- The text of a tool response; `render` is `Value::to_string`. -/
def toolStdout (render : Json → Str) (input : HookInput) : Option Str :=
  match input.toolResponse with
  | .null => none
  | .string text => some text
  | response =>
      match (response.get "stdout".toList).bind Json.asStr with
      | some text => some text
      | none =>
          match (response.get "stderr".toList).bind Json.asStr with
          | some text => some text
          | none => some (render response)

/-- `tool_name.as_deref().unwrap_or("")`. -/
def tool (input : HookInput) : Str :=
  input.toolName.getD []

end HookInput

/-- Walk a dotted path of object keys to a string. -/
def lookupArg (toolInput : Json) (arg : Str) : Option Str :=
  ((splitChar '.' arg).foldlM (fun node key => Json.get key node)
    toolInput).bind Json.asStr

/-! ## Output -/

/-- The `hookSpecificOutput` object. -/
structure HookOutput where
  hookEventName : Str
  permissionDecision : Option Str
  permissionDecisionReason : Option Str
  additionalContext : Option Str
  deriving DecidableEq

def maxContextBytes : Nat := 4096

def ellipsis : Str := "…".toList

/-- `cap_reason`. -/
def capReason (reason : Str) : Str :=
  if byteLen reason ≤ maxContextBytes then reason
  else prefixWithin (maxContextBytes - byteLen ellipsis) reason ++ ellipsis

namespace HookOutput

def warn (event reason : Str) : HookOutput :=
  { hookEventName := event, permissionDecision := none
    permissionDecisionReason := none
    additionalContext := some (capReason reason) }

def sessionContext (context : Str) : HookOutput :=
  warn "SessionStart".toList context

def permission (decision : String) (event reason : Str) : HookOutput :=
  { hookEventName := event, permissionDecision := some decision.toList
    permissionDecisionReason := some (capReason reason)
    additionalContext := none }

def deny : (event reason : Str) → HookOutput := permission "deny"

def ask : (event reason : Str) → HookOutput := permission "ask"

end HookOutput

def isBlockingEvent (event : Str) : Bool :=
  event == "PreToolUse".toList

/-- The printed object, if any, and the exit code. -/
def emit (event : Str) (verdict : Verdict) : Option HookOutput × Nat :=
  match verdict.tier with
  | .allow => (none, 0)
  | .warn => (some (.warn event verdict.reason), 0)
  | .block =>
      if isBlockingEvent event then (some (.deny event verdict.reason), 2)
      else (some (.warn event verdict.reason), 0)
  | .ask =>
      if isBlockingEvent event then (some (.ask event verdict.reason), 0)
      else (some (.warn event verdict.reason), 0)

end TrustLayer.AgentGuard
