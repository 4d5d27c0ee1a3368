import TrustLayer.Library.Unicode
import TrustLayer.SerdeJson.Derive
import TrustLayer.ThemisAgents.FloatConventions

/-!
# Language models

What a backend is asked, what it answers, and how an agent reads a JSON answer.
-/

namespace TrustLayer.ThemisAgents

open TrustLayer.Library hiding Json
open TrustLayer.AgentGuard (Json)
open TrustLayer.SerdeJson (Parser fromStr)

/-! ## Requests and responses -/

structure LlmRequest where
  systemPrompt : Str
  userPrompt : Str
  maxTokens : UInt32
  temperature : F32
  seed : Option UInt64
  responseSchema : Option Json
  responseSchemaName : Option Str

inductive FinishReason where
  | stop
  | length
  | contentFilter
  | error
  | unknown
  deriving DecidableEq

def parseFinishReason : (raw : Option Str) → FinishReason
  | none => .unknown
  | some raw =>
      if raw = "stop".toList then .stop
      else if raw = "length".toList ∨ raw = "max_tokens".toList then .length
      else if raw = "content_filter".toList ∨ raw = "safety".toList then
        .contentFilter
      else if raw = "error".toList ∨ raw = "stop_error".toList then .error
      else .unknown

/-- A missing field never masquerades as success. -/
theorem parseFinishReason_eq_stop_iff {raw : Option Str} :
    parseFinishReason raw = .stop ↔ raw = some "stop".toList := by
  cases raw with
  | none => simp [parseFinishReason]
  | some raw =>
      rw [parseFinishReason]
      split_ifs <;> simp_all

structure LlmResponse where
  text : Str
  inputTokens : UInt32
  outputTokens : UInt32
  modelId : Str
  finishReason : FinishReason

/-- `complete`. -/
abbrev LlmBackend := LlmRequest → Except AgentError LlmResponse

/-- What ends `process` without a decision. -/
inductive Stop where
  | error (error : AgentError)
  | panic
  deriving DecidableEq

/-- An error and no panic. -/
def IsError {α : Type} (result : Except Stop α) : Prop :=
  ∃ error, result = .error (.error error)

theorem isError_error {α : Type} (error : AgentError) :
    IsError (.error (.error error) : Except Stop α) :=
  ⟨error, rfl⟩

theorem not_isError_ok {α : Type} (value : α) :
    ¬ IsError (.ok value : Except Stop α) := by
  rintro ⟨error, ⟨⟩⟩

theorem isError_map_iff {α β : Type} {result : Except Stop α} {next : α → β} :
    IsError (result.map next) ↔ IsError result := by
  cases result <;> simp [IsError, Except.map]

theorem isError_bind_iff {α β : Type} {result : Except Stop α}
    {next : α → Except Stop β} :
    IsError (result >>= next) ↔
      IsError result ∨ ∃ value, result = .ok value ∧ IsError (next value) := by
  cases result with
  | error stop => simp [IsError, bind, Except.bind]
  | ok value => simp [IsError, bind, Except.bind]

theorem map_eq_ok_iff {α β : Type} {result : Except Stop α} {next : α → β}
    {value : β} :
    result.map next = .ok value ↔ ∃ middle, result = .ok middle ∧
      next middle = value := by
  cases result <;> simp [Except.map]

/-- The texts of `f32`, which the standard library and serde read and write. -/
class F32Texts where
  /-- The literal as an `f32`, unless no `f64` holds it. -/
  read : (literal : Str) → Option F32
  /-- `{}`. -/
  display : F32 → Str
  /-- `{:.2}`. -/
  display2 : F32 → Str

def readF32 [F32Texts] : Json → Option F32
  | .number literal => F32Texts.read literal
  | _ => none

/-! ## Schemas -/

/-- `{"type": ..}` with further fields. -/
def schema (type : String) (more : List (String × Json)) : Json :=
  .object (("type".toList, .string type.toList) ::
    more.map fun field => (field.1.toList, field.2))

def bound (literal : String) : Json :=
  .number literal.toList

/-- All properties are required. -/
def objectSchema (properties : List (String × Json)) : Json :=
  schema "object" [
    ("properties", .object (properties.map fun field =>
      (field.1.toList, field.2))),
    ("required", .array (properties.map fun field =>
      .string field.1.toList))]

def enumSchema (tags : List String) : Json :=
  schema "string" [("enum", .array (tags.map fun tag => .string tag.toList))]

def unitSchema : Json :=
  schema "number" [("minimum", bound "0.0"), ("maximum", bound "1.0")]

/-! ## Reading an answer -/

/-- `strip_suffix`. -/
def stripSuffix (back text : Str) : Option Str :=
  if back.isSuffixOf text then some (text.take (text.length - back.length))
  else none

/-- What stands between two fences. -/
def fenced (opening : String) (text : Str) : Option Str := do
  let rest ← stripPrefix opening.toList text
  let inner ← stripSuffix "```".toList rest
  return trim inner

/-- `strip_code_fences`, the same in every agent. -/
def stripCodeFences (text : Str) : Str :=
  let trimmed := trim text
  ((fenced "```json" trimmed).or (fenced "```" trimmed)).getD trimmed

example : stripCodeFences " ```json\n[1]\n```\n".toList = "[1]".toList := by
  decide

/-- `&text[..text.len().min(limit)]`, unless the cut is inside a character. -/
def front (limit : Nat) (text : Str) : Option Str :=
  let cut := min (byteLen text) limit
  if byteLen (prefixWithin cut text) = cut then some (prefixWithin cut text)
  else none

/-- An error can quote the first bytes. -/
def Quotable (text : Str) : Prop :=
  (front 200 text).isSome = true

section

variable [Parser] {α : Type}

/-- The answer as JSON, or none. -/
def readsAs (read : Json → Option α) (text : Str) : Option α :=
  (Parser.tree (stripCodeFences text)).bind read

/-- The answer, or an error that quotes its first bytes. -/
def parseResponse [UnicodeTables] (agent type : String)
    (read : Json → Option α) (text : Str) : Except Stop α :=
  match fromStr type.toList read (stripCodeFences text) with
  | .ok value => .ok value
  | .error error =>
      match front 200 text with
      | none => .error .panic
      | some raw =>
          .error (.error (.llmMalformedPayload
            (agent.toList ++ ": response is not valid ".toList ++ type.toList ++
              " JSON: ".toList ++ error ++ "; raw=".toList ++ debugStr raw)))

variable [UnicodeTables] {agent type : String} {read : Json → Option α}
  {text : Str} {value : α}

theorem parseResponse_of_read (found : readsAs read text = some value) :
    parseResponse agent type read text = .ok value := by
  rw [parseResponse, SerdeJson.fromStr_eq_ok_iff.mpr found]

theorem parseResponse_of_unread (unread : readsAs read text = none) :
    parseResponse agent type read text =
      match front 200 text with
      | none => .error .panic
      | some raw =>
          .error (.error (.llmMalformedPayload
            (agent.toList ++ ": response is not valid ".toList ++ type.toList ++
              " JSON: ".toList ++
                Parser.textError type.toList (stripCodeFences text) ++
              "; raw=".toList ++ debugStr raw))) := by
  rw [parseResponse, SerdeJson.fromStr_eq_error unread]

theorem parseResponse_eq_ok_iff :
    parseResponse agent type read text = .ok value ↔
      readsAs read text = some value := by
  cases found : readsAs read text with
  | none =>
      rw [parseResponse_of_unread found]
      cases front 200 text <;> simp
  | some answer =>
      rw [parseResponse_of_read found]
      simp

theorem parseResponse_isError_iff :
    IsError (parseResponse agent type read text) ↔
      readsAs read text = none ∧ Quotable text := by
  cases found : readsAs read text with
  | none =>
      rw [parseResponse_of_unread found, Quotable]
      cases front 200 text <;> simp [IsError]
  | some answer =>
      rw [parseResponse_of_read found]
      simp [IsError]

end

end TrustLayer.ThemisAgents
