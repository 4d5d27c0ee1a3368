import TrustLayer.ThemisAgents.FraudAuditor

/-!
# The audit watchdog

The shadow agent watches the chain for a halt of the fraud auditor.  It looks
for the outcome as one text, while the auditor writes a halt as an object that
holds its reason.
-/

namespace TrustLayer.ThemisAgents

open TrustLayer.Library hiding Json
open TrustLayer.AgentGuard (Json)
open TrustLayer.Baaar
open TrustLayer.SerdeJson (Parser)
open TrustLayer.ThemisOrchestrator (outcomeValue)

/-- The arithmetic of `f32`. -/
class F32Arithmetic where
  sum : List F32 → F32
  div : F32 → F32 → F32
  ofUsize : Nat → F32

structure WatchdogAlert where
  coherenceScore : F32
  riskElevated : Bool
  reason : Str

def WatchdogAlert.value [FloatValues] (alert : WatchdogAlert) : Json :=
  .object [
    ("coherence_score".toList, FloatValues.toValue alert.coherenceScore),
    ("reason".toList, .string alert.reason),
    ("risk_elevated".toList, .bool alert.riskElevated)]

namespace AuditWatchdog

/-! ## The agent -/

def haltTexts : List Str :=
  ["halt_risk_score_exceeded".toList, "halt_secret_leak_detected".toList,
    "halt_coherence_too_low".toList, "halt_max_debate_rounds_reached".toList,
    "halt_explicit_halt_requested".toList]

def showsHalt (payload : Json) : Bool :=
  match payload.get "outcome".toList with
  | some (.string text) => haltTexts.contains text
  | _ => false

def riskElevated (upstream : List AgentDecision) : Bool :=
  upstream.any fun decision =>
    decide (decision.decisionType = .fraudAssessed) &&
      showsHalt decision.payload

section

variable [F32Arithmetic]

def meanConfidence (upstream : List AgentDecision) : F32 :=
  F32Arithmetic.div
    (F32Arithmetic.sum (upstream.map AgentDecision.confidence))
    (F32Arithmetic.ofUsize upstream.length)

variable [F32Texts]

/-- The bound on the mean is `0.5`. -/
def reason (upstream : List AgentDecision) : Str :=
  let mean := meanConfidence upstream
  if riskElevated upstream then
    "BAAAR HALT detected in FraudAssessed upstream decision".toList
  else if mean.lt ⟨0x3F000000⟩ then
    "Mean confidence ".toList ++ F32Texts.display2 mean ++
      " below 0.5 — review chain".toList
  else
    "Chain coherent (mean confidence ".toList ++ F32Texts.display2 mean ++
      ")".toList

variable [FloatValues]

/-- `process`, at a time. -/
def process (now : Int) (ctx : AgentContext) :
    Except AgentError AgentDecision :=
  if ctx.upstreamDecisions = [] then
    .error (.invalidInput
      "AuditWatchdog: upstream_decisions is empty".toList)
  else
    let alert : WatchdogAlert :=
      { coherenceScore := meanConfidence ctx.upstreamDecisions
        riskElevated := riskElevated ctx.upstreamDecisions
        reason := reason ctx.upstreamDecisions }
    .ok {
      agentId := "audit_watchdog".toList
      tenantId := ctx.tenantId
      invoiceId := ctx.invoiceId
      decisionType := .watchdogAlert
      confidence := meanConfidence ctx.upstreamDecisions
      reasoning := reason ctx.upstreamDecisions
      timestampMs := now
      payload := alert.value }

end

/-! ## Halts in the chain -/

/-- The payload of some decision of the auditor. -/
def Produced [F32Texts] [FloatValues] [Parser] [UnicodeTables]
    (payload : Json) : Prop :=
  ∃ llm now ctx decision,
    FraudAuditor.process llm now ctx = .ok decision ∧
      decision.payload = payload

def RecordsHalt (payload : Json) : Prop :=
  ∃ reason, payload.get "outcome".toList = some (outcomeValue (.halt reason))

/-- Some entry of the auditor records a halt. -/
def Halted (upstream : List AgentDecision) : Prop :=
  ∃ decision ∈ upstream, decision.decisionType = .fraudAssessed ∧
    RecordsHalt decision.payload

/-- The alert is raised exactly on a halt. -/
def SeesHalts [F32Arithmetic] [F32Texts] [FloatValues] (now : Int)
    (ctx : AgentContext) : Prop :=
  ∃ alert, process now ctx = .ok alert ∧
    (alert.payload.get "risk_elevated".toList = some (.bool true) ↔
      Halted ctx.upstreamDecisions)

theorem showsHalt_of_outcome {payload : Json} {outcome : Outcome}
    (recorded : payload.get "outcome".toList = some (outcomeValue outcome)) :
    showsHalt payload = false := by
  rw [showsHalt, recorded]
  cases outcome with
  | approve => decide
  | halt reason => rfl

theorem risk_elevated_of_process [F32Arithmetic] [F32Texts] [FloatValues]
    {now : Int} {ctx : AgentContext} {alert : AgentDecision}
    (raised : process now ctx = .ok alert) :
    alert.payload.get "risk_elevated".toList =
      some (.bool (riskElevated ctx.upstreamDecisions)) := by
  unfold process at raised
  split at raised
  next => cases raised
  next =>
    cases raised
    rfl

theorem recordsHalt_value_iff [FloatValues] {assessment : FraudAssessment}
    {outcome : Outcome} :
    RecordsHalt (FraudAuditorOutput.value ⟨assessment, outcome⟩) ↔
      outcome.isHalt = true := by
  simp only [RecordsHalt, outcome_of_value, Option.some.injEq,
    outcomeValue_injective.eq_iff]
  cases outcome <;> simp [Outcome.isHalt]

section

variable [F32Texts] [FloatValues] [Parser] [UnicodeTables]

theorem showsHalt_of_produced {payload : Json} (produced : Produced payload) :
    showsHalt payload = false := by
  obtain ⟨llm, now, ctx, decision, decided, rfl⟩ := produced
  obtain ⟨assessment, rfl⟩ := FraudAuditor.eq_conclude_of_process decided
  exact showsHalt_of_outcome outcome_of_value

/-- No payload of the auditor raises the alert. -/
theorem riskElevated_of_produced {upstream : List AgentDecision}
    (produced : ∀ decision ∈ upstream,
      decision.decisionType = .fraudAssessed → Produced decision.payload) :
    riskElevated upstream = false := by
  rw [riskElevated, List.any_eq_false]
  intro decision member shown
  obtain ⟨assessed, halt⟩ := Bool.and_eq_true_iff.mp shown
  have quiet := showsHalt_of_produced
    (produced decision member (of_decide_eq_true assessed))
  rw [quiet] at halt
  cases halt

variable [F32Arithmetic]

/-- The watchdog is right exactly about chains without a halt. -/
theorem process_seesHalts_iff {now : Int} {ctx : AgentContext}
    (some : ctx.upstreamDecisions ≠ [])
    (produced : ∀ decision ∈ ctx.upstreamDecisions,
      decision.decisionType = .fraudAssessed → Produced decision.payload) :
    SeesHalts now ctx ↔ ¬ Halted ctx.upstreamDecisions := by
  have quiet : ∀ alert, process now ctx = .ok alert →
      alert.payload.get "risk_elevated".toList ≠ Option.some (.bool true) := by
    intro alert raised
    rw [risk_elevated_of_process raised, riskElevated_of_produced produced]
    simp
  constructor
  · rintro ⟨alert, raised, sees⟩ halted
    exact quiet alert raised (sees.mpr halted)
  · intro calm
    obtain ⟨alert, raised⟩ : ∃ alert, process now ctx = .ok alert :=
      ⟨_, if_neg some⟩
    exact ⟨alert, raised, iff_of_false (quiet alert raised) calm⟩

/-- Every halt of the auditor is seen. -/
def SeesEveryHalt : Prop :=
  ∀ now ctx, ctx.upstreamDecisions ≠ [] →
    (∀ decision ∈ ctx.upstreamDecisions,
      decision.decisionType = .fraudAssessed → Produced decision.payload) →
    SeesHalts now ctx

end

/-! ### A chain of one decision -/

/-- On the confidence of the auditor. -/
@[reducible] def sampleArithmetic : F32Arithmetic where
  sum numbers := numbers.headD ⟨0x80000000⟩
  div number _ := number
  ofUsize _ := ⟨0x3F800000⟩

section

attribute [local instance] sampleValues sampleTexts sampleParser
  plainTables sampleArithmetic

def chainOf (riskScore : F32) : AgentContext :=
  { AgentContext.new [] [] with
    upstreamDecisions :=
      [FraudAuditor.conclude (.new [] []) 0 (sampleAssessment riskScore)] }

theorem chainOf_produced {riskScore : F32} {literal : String}
    (read : readsAs readAssessment (answerText literal) =
      some (sampleAssessment riskScore)) :
    ∀ decision ∈ (chainOf riskScore).upstreamDecisions,
      decision.decisionType = .fraudAssessed → Produced decision.payload := by
  intro decision member _
  obtain rfl := List.mem_singleton.mp member
  exact ⟨sampleBackend literal, 0, .new [] [], _,
    FraudAuditor.process_of_read rfl read, rfl⟩

theorem halted_chainOf_iff {riskScore : F32} :
    Halted (chainOf riskScore).upstreamDecisions ↔
      (BaaarGate.check (sampleAssessment riskScore)).isHalt = true := by
  rw [← recordsHalt_value_iff]
  constructor
  · rintro ⟨decision, member, -, records⟩
    obtain rfl := List.mem_singleton.mp member
    exact records
  · intro records
    exact ⟨_, List.mem_cons_self, rfl, records⟩

theorem process_seesHalts_half : SeesHalts 0 (chainOf ⟨0x3F000000⟩) :=
  (process_seesHalts_iff (List.cons_ne_nil _ _)
    (chainOf_produced readsAs_half)).mpr (mt halted_chainOf_iff.mp (by decide))

/-- A halt on the risk raises no alert. -/
theorem riskHalt_not_seen : ¬ SeesEveryHalt := by
  intro sees
  have read : readsAs readAssessment (answerText "0.875") =
      some (sampleAssessment ⟨0x3F600000⟩) := by
    rfl
  have produced := chainOf_produced read
  obtain ⟨alert, raised, seen⟩ := sees 0 _ (List.cons_ne_nil _ _) produced
  have elevated := seen.mpr (halted_chainOf_iff.mpr (by decide))
  rw [risk_elevated_of_process raised,
    riskElevated_of_produced produced] at elevated
  simp at elevated

end

end AuditWatchdog

end TrustLayer.ThemisAgents
