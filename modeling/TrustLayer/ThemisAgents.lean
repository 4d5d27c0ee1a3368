import TrustLayer.AgentGuard.Hook.Contract
import TrustLayer.Baaar
import TrustLayer.SerdeJson

/-!
# Agents and their decisions

What an agent is given, what it answers, and the assessment that the
orchestrator reads from the payload of a fraud auditor's decision.
-/

namespace TrustLayer.Library

/-- A binary64 number, by its bits. -/
structure F64 where
  bits : UInt64
  deriving DecidableEq

namespace F64

/-- The integer nearest to a quotient by a power of two, with ties to even. -/
def roundShift (value shift : Nat) : Nat :=
  let quotient := value >>> shift
  let rest := value % 2 ^ shift
  if 2 ^ shift < 2 * rest ∨ (2 * rest = 2 ^ shift ∧ quotient % 2 = 1) then
    quotient + 1
  else quotient

/-- The magnitude of `as f32`.  The carry of the rounding moves into the
exponent, and what lies above the largest number is infinite. -/
def magnitudeToF32 (exponent mantissa : Nat) : Nat :=
  if exponent = 2047 then
    if mantissa = 0 then 0x7F800000
    else 0x7FC00000 ||| mantissa >>> 29
  else if 897 ≤ exponent then
    min 0x7F800000
      ((exponent - 897) * 2 ^ 23 + roundShift (2 ^ 52 + mantissa) 29)
  else if exponent = 0 then 0
  else roundShift (2 ^ 52 + mantissa) (29 + (897 - exponent))

/-- `as f32`. -/
def toF32 (number : F64) : F32 :=
  let exponent := (number.bits.toNat >>> 52) % 2048
  let mantissa := number.bits.toNat % 2 ^ 52
  let sign := number.bits.toNat >>> 63
  ⟨UInt32.ofNat (sign * 2 ^ 31 + magnitudeToF32 exponent mantissa)⟩

-- 0.92 and the largest number
example : toF32 ⟨0x3FED70A3D70A3D71⟩ = ⟨0x3F6B851F⟩ ∧
    toF32 ⟨0x7FEFFFFFFFFFFFFF⟩ = ⟨0x7F800000⟩ := by
  decide

end F64

end TrustLayer.Library

namespace TrustLayer.ThemisAgents

open TrustLayer.Library hiding Json
open TrustLayer.AgentGuard (Json)
open TrustLayer.Baaar (BaaarGate.check Finding FindingKind FraudAssessment)

/-! ## Decisions -/

inductive DecisionType where
  | extracted
  | poMatched
  | fraudAssessed
  | gaapClassified
  | provenanceSigned
  | watchdogAlert
  | regressionResult
  | narrated
  deriving DecidableEq

def DecisionType.asStr : DecisionType → Str
  | .extracted => "extracted".toList
  | .poMatched => "po_matched".toList
  | .fraudAssessed => "fraud_assessed".toList
  | .gaapClassified => "gaap_classified".toList
  | .provenanceSigned => "provenance_signed".toList
  | .watchdogAlert => "watchdog_alert".toList
  | .regressionResult => "regression_result".toList
  | .narrated => "narrated".toList

structure AgentDecision where
  agentId : Str
  tenantId : Str
  invoiceId : Str
  decisionType : DecisionType
  confidence : F32
  reasoning : Str
  timestampMs : Int
  payload : Json

inductive AgentError where
  | llmUnavailable (detail : Str)
  | llmMalformedPayload (detail : Str)
  | rateLimited (retryAfterMs : UInt64)
  | authenticationError (provider reason : Str)
  | invalidInput (detail : Str)
  | internal (detail : Str)
  deriving DecidableEq

/-- The text of an error. -/
def AgentError.display : AgentError → Str
  | .llmUnavailable detail => "LLM unavailable: ".toList ++ detail
  | .llmMalformedPayload detail =>
      "LLM returned a malformed payload: ".toList ++ detail
  | .rateLimited retryAfterMs =>
      "rate limited: retry after ".toList ++
        SerdeJson.decimal retryAfterMs.toNat ++ "ms".toList
  | .authenticationError provider reason =>
      provider ++ " authentication failed: ".toList ++ reason
  | .invalidInput detail => "invalid input: ".toList ++ detail
  | .internal detail => "internal error: ".toList ++ detail

/-! ## The context of a call -/

structure AgentContext where
  tenantId : Str
  invoiceId : Str
  rawInvoice : List UInt8
  contentType : Str
  upstreamDecisions : List AgentDecision
  metadata : Str → Option Str

namespace AgentContext

def new (tenantId invoiceId : Str) : AgentContext :=
  { tenantId, invoiceId, rawInvoice := [], contentType := []
    upstreamDecisions := [], metadata := fun _ => none }

def withRawInvoice (ctx : AgentContext) (bytes : List UInt8)
    (contentType : Str) : AgentContext :=
  { ctx with rawInvoice := bytes, contentType }

/-- `with_upstream` for every item of the stream. -/
def withUpstreamStream (ctx : AgentContext) (stream : List AgentDecision) :
    AgentContext :=
  { ctx with upstreamDecisions := ctx.upstreamDecisions ++ stream }

end AgentContext

/-- What `process` answers. -/
abbrev Agent := AgentContext → Except AgentError AgentDecision

/-! ## The assessment in a payload -/

/-- How `serde_json` reads and writes floating-point numbers. -/
class FloatTexts where
  /-- `as_f64` of the number with a literal. -/
  asF64 : (literal : Str) → F64
  ofF32 : F32 → Json
  ofF64 : F64 → Json

/-- `as_u64`. -/
def asU64 : Json → Option UInt64
  | .number literal =>
      let value := literal.foldl
        (fun value digit => value * 10 + (digit.toNat - 48)) 0
      if literal = [] ∨ ¬ literal.all Char.isDigit ∨ 2 ^ 64 ≤ value then none
      else some (UInt64.ofNat value)
  | _ => none

def asBool : Json → Option Bool
  | .bool value => some value
  | _ => none

def findingKind (kind : Str) : FindingKind :=
  if kind = "secret_leak".toList then .secretLeak
  else if kind = "price_anomaly".toList then .priceAnomaly
  else if kind = "phantom_vendor".toList then .phantomVendor
  else if kind = "math_fraud".toList then .mathFraud
  else if kind = "duplicate".toList then .duplicate
  else .other kind

/-- A finding without a kind is left out. -/
def findingOf (item : Json) : Option Finding := do
  let kind ← (← item.get "kind".toList).asStr
  return {
    kind := findingKind kind
    description :=
      ((item.get "description".toList).bind Json.asStr).getD [] }

section

variable [FloatTexts]

def asF64 : Json → Option F64
  | .number literal => some (FloatTexts.asF64 literal)
  | _ => none

/-- The numbers `0.0` and `1.0`. -/
def zeroF64 : F64 := ⟨0⟩

def oneF64 : F64 := ⟨0x3FF0000000000000⟩

/-- `FraudAssessment::from_decision_payload`, nested or flat. -/
def fromDecisionPayload (payload : Json) : FraudAssessment :=
  let inner := (payload.get "assessment".toList).getD payload
  { riskScore :=
      (((inner.get "risk_score".toList).bind asF64).getD zeroF64).toF32
    findings :=
      (((inner.get "findings".toList).bind Json.asArray).map
        fun items => items.filterMap findingOf).getD []
    coherenceScore :=
      (((inner.get "coherence_score".toList).bind asF64).getD oneF64).toF32
    debateRounds :=
      (((inner.get "debate_rounds".toList).bind asU64).getD 0).toUInt32
    explicitHalt :=
      ((inner.get "explicit_halt".toList).bind asBool).getD false }

def assessmentKeys : List Str :=
  ["risk_score".toList, "coherence_score".toList, "debate_rounds".toList,
    "explicit_halt".toList, "findings".toList]

/-- The gate accepts the defaults. -/
theorem check_defaults {payload : Json}
    (flat : payload.get "assessment".toList = none)
    (absent : ∀ key ∈ assessmentKeys, payload.get key = none) :
    BaaarGate.check (fromDecisionPayload payload) = .approve := by
  simp only [assessmentKeys, List.forall_mem_cons, List.not_mem_nil,
    IsEmpty.forall_iff, implies_true, and_true] at absent
  obtain ⟨riskScore, coherenceScore, debateRounds, explicitHalt, findings⟩ :=
    absent
  have defaults : fromDecisionPayload payload =
      { riskScore := zeroF64.toF32, findings := []
        coherenceScore := oneF64.toF32, debateRounds := 0
        explicitHalt := false } := by
    simp only [fromDecisionPayload, flat, Option.getD_none, riskScore,
      coherenceScore, debateRounds, explicitHalt, findings, Option.bind_none,
      Option.map_none]
    rfl
  rw [defaults]
  decide

end

end TrustLayer.ThemisAgents
