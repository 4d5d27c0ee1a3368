import TrustLayer.ThemisAgents.Llm
import TrustLayer.ThemisOrchestrator.Packet

/-!
# The fraud auditor

The model's assessment is judged by the gate, and both go into the payload.
The orchestrator judges what it reads from that payload a second time.
-/

namespace TrustLayer.Baaar

open TrustLayer.Library hiding Json

def FindingKind.asStr : FindingKind → Str
  | .secretLeak => "secret_leak".toList
  | .priceAnomaly => "price_anomaly".toList
  | .phantomVendor => "phantom_vendor".toList
  | .mathFraud => "math_fraud".toList
  | .duplicate => "duplicate".toList
  | .other tag => tag

end TrustLayer.Baaar

namespace TrustLayer.ThemisAgents

open TrustLayer.Library hiding Json
open TrustLayer.AgentGuard (Json)
open TrustLayer.Baaar
open TrustLayer.SerdeJson (Parser integer ordered readBool readU32 readVec
  structFields)
open TrustLayer.ThemisOrchestrator (outcomeValue reasonTag)

/-! ## The assessment as JSON -/

def readFinding (json : Json) : Option Finding := do
  match ← structFields ["kind".toList, "description".toList] json with
  | [some kind, some description] =>
      return {
        kind := findingKind (← kind.asStr)
        description := ← description.asStr }
  | _ => none

/-- The fields that serde derives for `FraudAssessment`. -/
def readAssessment [F32Texts] (json : Json) : Option FraudAssessment := do
  match ← structFields ["risk_score".toList, "findings".toList,
      "coherence_score".toList, "debate_rounds".toList,
      "explicit_halt".toList] json with
  | [some riskScore, some findings, some coherenceScore, some debateRounds,
      some explicitHalt] =>
      return {
        riskScore := ← readF32 riskScore
        findings := ← readVec readFinding findings
        coherenceScore := ← readF32 coherenceScore
        debateRounds := ← readU32 debateRounds
        explicitHalt := ← readBool explicitHalt }
  | _ => none

def findingValue (finding : Finding) : Json :=
  .object [
    ("description".toList, .string finding.description),
    ("kind".toList, .string finding.kind.asStr)]

/-- A `Value` lists its fields by key. -/
def assessmentValue [FloatValues] (assessment : FraudAssessment) : Json :=
  .object [
    ("coherence_score".toList, FloatValues.toValue assessment.coherenceScore),
    ("debate_rounds".toList, integer assessment.debateRounds.toNat),
    ("explicit_halt".toList, .bool assessment.explicitHalt),
    ("findings".toList, .array (assessment.findings.map findingValue)),
    ("risk_score".toList, FloatValues.toValue assessment.riskScore)]

structure FraudAuditorOutput where
  assessment : FraudAssessment
  outcome : Outcome

def FraudAuditorOutput.value [FloatValues] (output : FraudAuditorOutput) : Json :=
  .object [
    ("assessment".toList, assessmentValue output.assessment),
    ("outcome".toList, outcomeValue output.outcome)]

namespace FraudAuditor

/-! ## The agent -/

def systemPrompt : Str :=
  ("You are the Fraud Auditor agent in THEMIS. Given the upstream " ++
  "decisions for an invoice, produce a JSON object matching this schema:\n\n\x7b\n" ++
  "  \"risk_score\": number (0.0..=1.0),\n" ++
  "  \"findings\": [\x7b\"kind\": \"secret_leak|price_anomaly|" ++
  "phantom_vendor|math_fraud|duplicate|other\", \"value\": " ++
  "\"string\", \"description\": \"string\"\x7d],\n" ++
  "  \"coherence_score\": number (0.0..=1.0),\n" ++
  "  \"debate_rounds\": integer (>= 0),\n" ++
  "  \"explicit_halt\": boolean\n\x7d\n\n" ++
  "When you set `kind` to \"other\", the `value` field carries a custom tag.\n\n" ++
  "Respond with ONLY the JSON object. No commentary, no markdown fences.").toList

def fraudAssessmentSchema : Json :=
  ordered (objectSchema [
    ("risk_score", unitSchema),
    ("findings", schema "array" [("items", objectSchema [
      ("kind", enumSchema ["secret_leak", "price_anomaly", "phantom_vendor",
        "math_fraud", "duplicate", "other"]),
      ("value", schema "string" []),
      ("description", schema "string" [])])]),
    ("coherence_score", unitSchema),
    ("debate_rounds", schema "integer" [("minimum", bound "0")]),
    ("explicit_halt", schema "boolean" [])])

def request (ctx : AgentContext) : LlmRequest :=
  { systemPrompt
    userPrompt :=
      "Assess this invoice (tenant=".toList ++ ctx.tenantId ++
        ", invoice_id=".toList ++ ctx.invoiceId ++
        "). Upstream decisions: ".toList ++
        SerdeJson.decimal ctx.upstreamDecisions.length
    maxTokens := 1024
    temperature := ⟨0⟩
    seed := some 42
    responseSchema := some fraudAssessmentSchema
    responseSchemaName := some "FraudAssessment".toList }

/-- `{reason:?}`. -/
def reasonText : BaaarReason → Str
  | .riskScoreExceeded => "RiskScoreExceeded".toList
  | .secretLeakDetected => "SecretLeakDetected".toList
  | .coherenceTooLow => "CoherenceTooLow".toList
  | .maxDebateRoundsReached => "MaxDebateRoundsReached".toList
  | .explicitHaltRequested => "ExplicitHaltRequested".toList

section

variable [F32Texts]

def reasoning (output : FraudAuditorOutput) : Str :=
  match output.outcome with
  | .approve =>
      "Fraud assessment approved: risk_score=".toList ++
        F32Texts.display output.assessment.riskScore
  | .halt reason => "HALTED by BAAAR: ".toList ++ reasonText reason

variable [FloatValues]

/-- The decision on an assessment, whose confidence is `0.85`. -/
def conclude (ctx : AgentContext) (now : Int) (assessment : FraudAssessment) :
    AgentDecision :=
  let output : FraudAuditorOutput :=
    { assessment, outcome := BaaarGate.check assessment }
  { agentId := "fraud_auditor".toList
    tenantId := ctx.tenantId
    invoiceId := ctx.invoiceId
    decisionType := .fraudAssessed
    confidence := ⟨0x3F59999A⟩
    reasoning := reasoning output
    timestampMs := now
    payload := output.value }

variable [Parser] [UnicodeTables]

/-- `process`, at a time. -/
def process (llm : LlmBackend) (now : Int) (ctx : AgentContext) :
    Except Stop AgentDecision :=
  match llm (request ctx) with
  | .error error => .error (.error error)
  | .ok response =>
      (parseResponse "FraudAuditor" "FraudAssessment" readAssessment
        response.text).map (conclude ctx now)

theorem process_of_answer {llm : LlmBackend} {now : Int} {ctx : AgentContext}
    {response : LlmResponse} (answered : llm (request ctx) = .ok response) :
    process llm now ctx =
      (parseResponse "FraudAuditor" "FraudAssessment" readAssessment
        response.text).map (conclude ctx now) := by
  rw [process, answered]

theorem process_of_read {llm : LlmBackend} {now : Int} {ctx : AgentContext}
    {response : LlmResponse} {assessment : FraudAssessment}
    (answered : llm (request ctx) = .ok response)
    (read : readsAs readAssessment response.text = some assessment) :
    process llm now ctx = .ok (conclude ctx now assessment) := by
  rw [process_of_answer answered, parseResponse_of_read read]
  rfl

/-- A decision is the conclusion on some assessment. -/
theorem eq_conclude_of_process {llm : LlmBackend} {now : Int}
    {ctx : AgentContext} {decision : AgentDecision}
    (decided : process llm now ctx = .ok decision) :
    ∃ assessment, decision = conclude ctx now assessment := by
  cases answered : llm (request ctx) with
  | error error =>
      rw [process, answered] at decided
      cases decided
  | ok response =>
      rw [process_of_answer answered] at decided
      obtain ⟨assessment, -, rfl⟩ := map_eq_ok_iff.mp decided
      exact ⟨assessment, rfl⟩

end

end FraudAuditor

/-! ## The payload read back -/

/-- A kind that is not the text of another one. -/
def Plain (finding : Finding) : Prop :=
  findingKind finding.kind.asStr = finding.kind

theorem tag_of_findingKind {kind tag : Str}
    (other : findingKind kind = .other tag) : tag = kind := by
  unfold findingKind at other
  split_ifs at other
  cases other
  rfl

theorem findingKind_asStr {kind : Str} {read : FindingKind}
    (found : findingKind kind = read) : findingKind read.asStr = read := by
  cases read with
  | other tag =>
      obtain rfl := tag_of_findingKind found
      exact found
  | secretLeak => decide
  | priceAnomaly => decide
  | phantomVendor => decide
  | mathFraud => decide
  | duplicate => decide

theorem readFinding_plain {json : Json} {finding : Finding}
    (read : readFinding json = some finding) : Plain finding := by
  unfold readFinding at read
  simp only [Option.bind_eq_bind, Option.bind_eq_some_iff] at read
  obtain ⟨fields, -, matched⟩ := read
  split at matched
  next kind description =>
    simp only [Option.pure_def, Option.some.injEq, Option.bind_eq_some_iff] at matched
    obtain ⟨tag, -, text, -, rfl⟩ := matched
    exact findingKind_asStr rfl
  next => cases matched

theorem readAssessment_plain [F32Texts] {json : Json}
    {assessment : FraudAssessment}
    (read : readAssessment json = some assessment) :
    ∀ finding ∈ assessment.findings, Plain finding := by
  unfold readAssessment at read
  simp only [Option.bind_eq_bind, Option.bind_eq_some_iff] at read
  obtain ⟨fields, -, matched⟩ := read
  split at matched
  next riskScore findings coherenceScore debateRounds explicitHalt =>
    simp only [Option.pure_def, Option.some.injEq, Option.bind_eq_some_iff] at matched
    obtain ⟨-, -, findings, found, -, -, -, -, -, -, rfl⟩ := matched
    exact SerdeJson.forall_of_readVec found fun _ _ => readFinding_plain
  next => cases matched

theorem findingOf_findingValue {finding : Finding} (plain : Plain finding) :
    findingOf (findingValue finding) = some finding := by
  have kind : (findingValue finding).get "kind".toList =
      some (.string finding.kind.asStr) := rfl
  have description : (findingValue finding).get "description".toList =
      some (.string finding.description) := rfl
  simp only [findingOf, kind, description, Option.bind_eq_bind, Option.bind_some,
    Json.asStr, Option.pure_def, Option.getD_some]
  rw [plain]

theorem asU64_integer (value : UInt32) :
    ((asU64 (integer value.toNat)).getD 0).toUInt32 = value := by
  have small := value.toNat_lt
  have digits : ∀ digit ∈ Nat.toDigits 10 value.toNat, digit.isDigit = true :=
    fun digit member => Nat.isDigit_of_mem_toDigits (by omega) (by omega) member
  have number : (Nat.toDigits 10 value.toNat).foldl
      (fun value digit => value * 10 + (digit.toNat - 48)) 0 = value.toNat := by
    have parsed := Nat.ofDigitChars_ten_toDigits (n := value.toNat)
    rw [Nat.ofDigitChars_eq_foldl] at parsed
    simpa only [Nat.mul_comm, Char.reduceToNat] using parsed
  have some : Nat.toDigits 10 value.toNat ≠ [] := Nat.toDigits_ne_nil
  have all : (Nat.toDigits 10 value.toNat).all Char.isDigit = true :=
    List.all_eq_true.mpr digits
  have literal : integer value.toNat = .number (Nat.toDigits 10 value.toNat) := rfl
  rw [literal, asU64]
  simp only [number, some, all, not_true, false_or]
  rw [if_neg (by omega), Option.getD_some]
  apply UInt32.toNat_inj.mp
  rw [UInt64.toNat_toUInt32, UInt64.toNat_ofNat_of_lt' (by unfold UInt64.size; omega)]
  exact Nat.mod_eq_of_lt small

/-- The assessment with a default for each number that is not written. -/
def written (assessment : FraudAssessment) : FraudAssessment :=
  { assessment with
    riskScore :=
      if assessment.riskScore.isFinite then assessment.riskScore
      else zeroF64.toF32
    coherenceScore :=
      if assessment.coherenceScore.isFinite then assessment.coherenceScore
      else oneF64.toF32 }

section

variable [FloatTexts] [FloatValues] {assessment : FraudAssessment}
  {outcome : Outcome}

theorem fromDecisionPayload_assessmentValue (conventions : FloatConventions)
    (plain : ∀ finding ∈ assessment.findings, Plain finding) :
    fromDecisionPayload (FraudAuditorOutput.value ⟨assessment, outcome⟩) =
      written assessment := by
  have nested : (FraudAuditorOutput.value ⟨assessment, outcome⟩).get
      "assessment".toList = some (assessmentValue assessment) := rfl
  have riskScore : (assessmentValue assessment).get "risk_score".toList =
      some (FloatValues.toValue assessment.riskScore) := rfl
  have findings : (assessmentValue assessment).get "findings".toList =
      some (.array (assessment.findings.map findingValue)) := rfl
  have coherence : (assessmentValue assessment).get "coherence_score".toList =
      some (FloatValues.toValue assessment.coherenceScore) := rfl
  have rounds : (assessmentValue assessment).get "debate_rounds".toList =
      some (integer assessment.debateRounds.toNat) := rfl
  have explicit : (assessmentValue assessment).get "explicit_halt".toList =
      some (.bool assessment.explicitHalt) := rfl
  have kept : (assessment.findings.map findingValue).filterMap findingOf =
      assessment.findings := by
    have each : ∀ finding ∈ assessment.findings,
        (findingOf ∘ findingValue) finding = some finding :=
      fun finding member => findingOf_findingValue (plain finding member)
    rw [List.filterMap_map, List.filterMap_congr each, List.filterMap_some]
  simp only [fromDecisionPayload, nested, riskScore, findings, coherence, rounds,
    explicit, Option.getD_some, Option.bind_some, Json.asArray, Option.map_some,
    asBool, conventions.readBack, asU64_integer, kept, written]

end

/-- Its numbers are written, or the verdict does not rest on them. -/
def KeepsVerdict (assessment : FraudAssessment) : Prop :=
  assessment.riskScore ≠ .infinity ∧
    (assessment.coherenceScore = .negInfinity →
      riskScoreHalt.lt assessment.riskScore = true ∨
        leaksSecret assessment.findings = true)

theorem ne_of_isFinite {number other : F32} (finite : number.isFinite = true)
    (notFinite : other.isFinite = false) : number ≠ other := by
  rintro rfl
  rw [finite] at notFinite
  cases notFinite

theorem riskScore_written (assessment : FraudAssessment) :
    riskScoreHalt.lt (written assessment).riskScore = true ↔
      riskScoreHalt.lt assessment.riskScore = true ∧
        assessment.riskScore ≠ .infinity := by
  unfold written
  cases finite : assessment.riskScore.isFinite with
  | true =>
      have number : assessment.riskScore ≠ .infinity :=
        ne_of_isFinite finite (by decide)
      rw [if_pos rfl, and_iff_left number]
  | false =>
      have default : riskScoreHalt.lt zeroF64.toF32 = false := by decide
      rw [if_neg Bool.false_ne_true, default,
        F32.lt_iff_eq_infinity (by decide) finite]
      simp

theorem coherenceScore_written (assessment : FraudAssessment) :
    (written assessment).coherenceScore.lt coherenceFloor = true ↔
      assessment.coherenceScore.lt coherenceFloor = true ∧
        assessment.coherenceScore ≠ .negInfinity := by
  unfold written
  cases finite : assessment.coherenceScore.isFinite with
  | true =>
      have number : assessment.coherenceScore ≠ .negInfinity :=
        ne_of_isFinite finite (by decide)
      rw [if_pos rfl, and_iff_left number]
  | false =>
      have default : oneF64.toF32.lt coherenceFloor = false := by decide
      rw [if_neg Bool.false_ne_true, default,
        F32.lt_iff_eq_negInfinity finite (by decide)]
      simp

theorem check_written_iff (assessment : FraudAssessment) :
    BaaarGate.check (written assessment) = BaaarGate.check assessment ↔
      KeepsVerdict assessment := by
  have risk := riskScore_written assessment
  have coherence := coherenceScore_written assessment
  have findings : (written assessment).findings = assessment.findings := rfl
  have rounds : (written assessment).debateRounds = assessment.debateRounds := rfl
  have explicit : (written assessment).explicitHalt = assessment.explicitHalt := rfl
  have belowHalt : riskScoreHalt.lt assessment.riskScore = false →
      assessment.riskScore ≠ .infinity := by
    intro below infinite
    rw [infinite] at below
    exact absurd below (by decide)
  have aboveFloor : assessment.coherenceScore.lt coherenceFloor = false →
      assessment.coherenceScore ≠ .negInfinity := by
    intro above infinite
    rw [infinite] at above
    exact absurd above (by decide)
  unfold BaaarGate.check KeepsVerdict
  rw [findings, rounds, explicit]
  -- both gates ask in one order, and only a default makes them part
  split_ifs <;> simp_all

/-! ## The two verdicts -/

/-- The gate on the payload gives the outcome that the payload records. -/
def GatesAgree [FloatTexts] (payload : Json) : Prop :=
  payload.get "outcome".toList =
    some (outcomeValue (BaaarGate.check (fromDecisionPayload payload)))

theorem reasonTag_injective : Function.Injective reasonTag := by
  intro left right same
  cases left <;> cases right <;>
    first | rfl | exact absurd same (by decide)

theorem outcomeValue_injective : Function.Injective outcomeValue := by
  intro left right same
  cases left with
  | approve =>
      cases right with
      | approve => rfl
      | halt reason => cases same
  | halt reason =>
      cases right with
      | approve => cases same
      | halt other =>
          simp only [outcomeValue, Json.object.injEq, List.cons.injEq,
            Prod.mk.injEq, Json.string.injEq, true_and, and_true] at same
          rw [reasonTag_injective same]

section

variable [FloatTexts] [FloatValues] {assessment : FraudAssessment}
  {outcome : Outcome}

omit [FloatTexts] in
theorem outcome_of_value :
    (FraudAuditorOutput.value ⟨assessment, outcome⟩).get "outcome".toList =
      some (outcomeValue outcome) := by
  rfl

theorem gatesAgree_value_iff (conventions : FloatConventions)
    (plain : ∀ finding ∈ assessment.findings, Plain finding) :
    GatesAgree (FraudAuditorOutput.value
        ⟨assessment, BaaarGate.check assessment⟩) ↔
      KeepsVerdict assessment := by
  rw [GatesAgree, outcome_of_value,
    fromDecisionPayload_assessmentValue conventions plain, Option.some.injEq,
    outcomeValue_injective.eq_iff, eq_comm, check_written_iff]

variable [F32Texts] [Parser] [UnicodeTables]

/-- Both evaluations agree exactly when no infinity decides the first one. -/
theorem process_gatesAgree_iff (conventions : FloatConventions)
    {llm : LlmBackend} {now : Int} {ctx : AgentContext}
    {response : LlmResponse} {decision : AgentDecision}
    (answered : llm (FraudAuditor.request ctx) = .ok response)
    (decided : FraudAuditor.process llm now ctx = .ok decision) :
    GatesAgree decision.payload ↔
      ∃ assessment, readsAs readAssessment response.text = some assessment ∧
        KeepsVerdict assessment := by
  rw [FraudAuditor.process_of_answer answered] at decided
  obtain ⟨assessment, parsed, rfl⟩ := map_eq_ok_iff.mp decided
  have read := parseResponse_eq_ok_iff.mp parsed
  have plain : ∀ finding ∈ assessment.findings, Plain finding := by
    obtain ⟨json, -, read⟩ := Option.bind_eq_some_iff.mp read
    exact readAssessment_plain read
  have payload : (FraudAuditor.conclude ctx now assessment).payload =
      FraudAuditorOutput.value ⟨assessment, BaaarGate.check assessment⟩ := by
    rfl
  rw [payload, gatesAgree_value_iff conventions plain, read]
  simp

/-- No run of the agent makes the two evaluations part. -/
def AlwaysAgree : Prop :=
  ∀ llm now ctx decision, FraudAuditor.process llm now ctx = .ok decision →
    GatesAgree decision.payload

end

/-! ### A risk that is written as null -/

/-- The literals of some numbers; any other is given the digits of its bits. -/
def literals : List (F64 × Str) := [
  (⟨0x3FE0000000000000⟩, "0.5".toList),
  (⟨0x3FE8000000000000⟩, "0.75".toList),
  (⟨0x3FEC000000000000⟩, "0.875".toList),
  (⟨0x3FEB333340000000⟩, "0.8500000238418579".toList)]

def literalOf (number : F64) : Str :=
  (literals.lookup number).getD (Nat.toDigits 10 number.bits.toNat)

def numberOf (literal : Str) : F64 :=
  ((literals.map Prod.swap).lookup literal).getD
    ⟨UInt64.ofNat (Nat.ofDigitChars 10 literal 0)⟩

@[reducible] def sampleFloats : FloatTexts where
  asF64 := numberOf
  ofF32 number :=
    if number = ⟨0x3F59999A⟩ then .number "0.85".toList else .null
  ofF64 number := .number (literalOf number)

@[reducible] def sampleValues : FloatValues where
  toValue number :=
    if number.isFinite then .number (literalOf number.toF64) else .null

theorem numberOf_literalOf (number : F64) :
    numberOf (literalOf number) = number := by
  unfold literalOf
  cases found : literals.lookup number with
  | some literal =>
      have table : ∀ entry ∈ literals, numberOf entry.2 = entry.1 := by decide
      obtain ⟨early, late, split, -⟩ := List.lookup_eq_some_iff.mp found
      exact table (number, literal) (by simp [split])
  | none =>
      have points : ∀ entry ∈ literals.map Prod.swap, '.' ∈ entry.1 := by
        decide
      have absent : (literals.map Prod.swap).lookup
          (Nat.toDigits 10 number.bits.toNat) = none := by
        refine List.lookup_eq_none_iff.mpr fun entry member => ?_
        have notDigit : '.' ∉ Nat.toDigits 10 number.bits.toNat := fun point =>
          absurd (Nat.isDigit_of_mem_toDigits (by omega) (by omega) point)
            (by decide)
        refine bne_iff_ne.mpr fun same => ?_
        rw [same] at notDigit
        exact notDigit (points entry member)
      rw [Option.getD_none, numberOf, absent, Option.getD_none,
        Nat.ofDigitChars_ten_toDigits, UInt64.ofNat_toNat]

theorem sampleFloats_conventions :
    @FloatConventions sampleFloats sampleValues := by
  refine @FloatConventions.mk sampleFloats sampleValues
    (fun number finite => ?_) fun number notFinite => ?_
  · exact ⟨_, if_pos finite, numberOf_literalOf _⟩
  · refine if_neg ?_
    rw [notFinite]
    exact Bool.false_ne_true

@[reducible] def sampleTexts : F32Texts where
  read literal :=
    [("0.5".toList, (⟨0x3F000000⟩ : F32)), ("0.75".toList, ⟨0x3F400000⟩),
      ("0.875".toList, ⟨0x3F600000⟩), ("1e39".toList, .infinity)].lookup literal
  display number :=
    if number = ⟨0x3F000000⟩ then "0.5".toList else []
  display2 number :=
    if number = ⟨0x3F59999A⟩ then "0.85".toList else []

/-- An answer with a risk. -/
def answerText (riskScore : String) : Str :=
  ("\x7b\"risk_score\":" ++ riskScore ++ ",\"findings\":[],").toList ++
    "\"coherence_score\":0.75,\"debate_rounds\":1,".toList ++
    "\"explicit_halt\":false\x7d".toList

def answerJson (riskScore : String) : Json :=
  .object [
    ("risk_score".toList, .number riskScore.toList),
    ("findings".toList, .array []),
    ("coherence_score".toList, .number "0.75".toList),
    ("debate_rounds".toList, .number ['1']),
    ("explicit_halt".toList, .bool false)]

/-- A parser of three answers. -/
@[reducible] def sampleParser : Parser where
  tree text :=
    if text = answerText "0.5" then some (answerJson "0.5")
    else if text = answerText "0.875" then some (answerJson "0.875")
    else if text = answerText "1e39" then some (answerJson "1e39")
    else none
  textError _ _ := []
  valueError _ _ := []

def sampleAssessment (riskScore : F32) : FraudAssessment :=
  { riskScore, findings := [], coherenceScore := ⟨0x3F400000⟩
    debateRounds := 1, explicitHalt := false }

section

attribute [local instance] sampleFloats sampleValues sampleTexts sampleParser
  plainTables

def sampleBackend (riskScore : String) : LlmBackend :=
  fun _ => .ok {
    text := answerText riskScore, inputTokens := 100, outputTokens := 200
    modelId := "mock".toList, finishReason := .stop }

theorem readsAs_half :
    readsAs readAssessment (answerText "0.5") =
      some (sampleAssessment ⟨0x3F000000⟩) := by
  rfl

theorem readsAs_huge :
    readsAs readAssessment (answerText "1e39") =
      some (sampleAssessment .infinity) := by
  rfl

theorem process_half :
    FraudAuditor.process (sampleBackend "0.5") 0 (.new [] []) =
      .ok (FraudAuditor.conclude (.new [] []) 0
        (sampleAssessment ⟨0x3F000000⟩)) :=
  FraudAuditor.process_of_read rfl readsAs_half

theorem process_gatesAgree_half :
    GatesAgree (FraudAuditor.conclude (.new [] []) 0
      (sampleAssessment ⟨0x3F000000⟩)).payload := by
  have answered : sampleBackend "0.5" (FraudAuditor.request (.new [] [])) =
      .ok ⟨answerText "0.5", 100, 200, "mock".toList, .stop⟩ := by
    rfl
  have kept : KeepsVerdict (sampleAssessment ⟨0x3F000000⟩) := by
    unfold KeepsVerdict
    decide
  exact (process_gatesAgree_iff sampleFloats_conventions answered
    process_half).mpr ⟨_, readsAs_half, kept⟩

/-- The recorded halt is an approval for the orchestrator. -/
theorem hugeRisk_not_agree : FloatConventions ∧ ¬ AlwaysAgree := by
  refine ⟨sampleFloats_conventions, fun agree => ?_⟩
  have decided : FraudAuditor.process (sampleBackend "1e39") 0 (.new [] []) =
      .ok (FraudAuditor.conclude (.new [] []) 0 (sampleAssessment .infinity)) :=
    FraudAuditor.process_of_read rfl readsAs_huge
  have kept := (gatesAgree_value_iff sampleFloats_conventions
    (fun _ member => absurd member List.not_mem_nil)).mp (agree _ _ _ _ decided)
  exact kept.1 rfl

end

end TrustLayer.ThemisAgents
