import TrustLayer.ThemisAgents.FraudAuditor
import TrustLayer.ThemisAgents.GaapClassifier

/-!
# Truncated answers

Why a model stopped is part of its response, and no agent looks at it.
-/

namespace TrustLayer.ThemisAgents

open TrustLayer.Library hiding Json
open TrustLayer.SerdeJson (Parser)

/-- The agents that read a JSON answer. -/
inductive LlmAgent where
  | extractor
  | fraudAuditor
  | gaapClassifier (taxonomy : UsGaapTaxonomy)

namespace LlmAgent

section

variable [UnicodeTables] [Parser]

/-- The request, unless the context is refused before. -/
def request (ctx : AgentContext) : LlmAgent → Option LlmRequest
  | .extractor =>
      if ctx.rawInvoice = [] then none else some (ExtractorAgent.request ctx)
  | .fraudAuditor => some (FraudAuditor.request ctx)
  | .gaapClassifier taxonomy =>
      match GaapClassifier.upstreamInvoice ctx with
      | .error _ => none
      | .ok invoice => some (GaapClassifier.request taxonomy invoice)

variable [F32Texts] [FloatValues]

def process (llm : LlmBackend) (now : Int) (ctx : AgentContext) :
    LlmAgent → Except Stop AgentDecision
  | .extractor => ExtractorAgent.process llm now ctx
  | .fraudAuditor => FraudAuditor.process llm now ctx
  | .gaapClassifier taxonomy => GaapClassifier.process taxonomy llm now ctx

omit [FloatValues] [UnicodeTables] in
/-- The answers that are refused with an error, for what they say. -/
def Refuses (text : Str) : LlmAgent → Prop
  | .extractor => ExtractorAgent.Refuses text
  | .fraudAuditor => readsAs readAssessment text = none ∧ Quotable text
  | .gaapClassifier _ => GaapClassifier.Refuses text

/-- An answer that did not stop by itself ends in an error. -/
def FailsClosed (agent : LlmAgent) (llm : LlmBackend) (now : Int)
    (ctx : AgentContext) : Prop :=
  ∀ request response, agent.request ctx = some request →
    llm request = .ok response → response.finishReason ≠ .stop →
    IsError (agent.process llm now ctx)

theorem process_isError_iff {agent : LlmAgent} {llm : LlmBackend} {now : Int}
    {ctx : AgentContext} {request : LlmRequest} {response : LlmResponse}
    (asked : agent.request ctx = some request)
    (answered : llm request = .ok response) :
    IsError (agent.process llm now ctx) ↔ agent.Refuses response.text := by
  cases agent with
  | extractor =>
      rw [LlmAgent.request] at asked
      split at asked
      next => cases asked
      next some =>
        rw [← Option.some.inj asked] at answered
        rw [process, ExtractorAgent.process, if_neg some, answered]
        exact ExtractorAgent.judge_isError_iff
  | fraudAuditor =>
      rw [LlmAgent.request] at asked
      rw [← Option.some.inj asked] at answered
      rw [process, FraudAuditor.process_of_answer answered, isError_map_iff]
      exact parseResponse_isError_iff
  | gaapClassifier taxonomy =>
      rw [LlmAgent.request] at asked
      split at asked
      next => cases asked
      next invoice upstream =>
        rw [← Option.some.inj asked] at answered
        rw [process, GaapClassifier.process, upstream]
        simp only [answered]
        exact GaapClassifier.judge_isError_iff

/-- Only the text decides: truncation is an error where the text is one. -/
theorem failsClosed_iff (agent : LlmAgent) (llm : LlmBackend) (now : Int)
    (ctx : AgentContext) :
    agent.FailsClosed llm now ctx ↔
      ∀ request response, agent.request ctx = some request →
        llm request = .ok response →
        response.finishReason = .stop ∨ agent.Refuses response.text := by
  refine forall_congr' fun request => forall_congr' fun response =>
    forall_congr' fun asked => forall_congr' fun answered => ?_
  rw [process_isError_iff asked answered, or_iff_not_imp_left]

end

/-! ### A truncated assessment -/

section

attribute [local instance] sampleValues sampleTexts sampleParser plainTables

/-- The backend hit its limit behind the last brace. -/
def truncatedBackend : LlmBackend :=
  fun _ => .ok {
    text := answerText "0.5", inputTokens := 100, outputTokens := 1024
    modelId := "mock".toList, finishReason := .length }

theorem truncated_not_failsClosed :
    ¬ ∀ agent llm now ctx, FailsClosed agent llm now ctx := by
  intro closed
  have refused : IsError (FraudAuditor.process truncatedBackend 0 (.new [] [])) :=
    closed .fraudAuditor truncatedBackend 0 (.new [] []) _ _ rfl rfl (by decide)
  have decided : FraudAuditor.process truncatedBackend 0 (.new [] []) =
      .ok (FraudAuditor.conclude (.new [] []) 0
        (sampleAssessment ⟨0x3F000000⟩)) :=
    FraudAuditor.process_of_read rfl readsAs_half
  rw [decided] at refused
  exact not_isError_ok _ refused

end

end LlmAgent

end TrustLayer.ThemisAgents
