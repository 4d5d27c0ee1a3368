import TrustLayer.Library.CharBoundary
import TrustLayer.ThemisAgents.Truncation

/-!
# Any answer

An agent that cannot read its answer quotes the first two hundred bytes of it.
-/

namespace TrustLayer.ThemisAgents

open TrustLayer.Library hiding Json
open TrustLayer.AgentGuard (Json)
open TrustLayer.SerdeJson (Parser readVec)

/-- A decision, or an error about the answer or the input. -/
inductive Survives : Except Stop AgentDecision → Prop
  | decided (decision : AgentDecision) : Survives (.ok decision)
  | malformed (detail : Str) :
      Survives (.error (.error (.llmMalformedPayload detail)))
  | invalid (detail : Str) : Survives (.error (.error (.invalidInput detail)))

theorem not_survives_panic : ¬ Survives (.error .panic) := by
  intro survives
  cases survives

theorem quotable_iff {text : Str} :
    Quotable text ↔ CharBoundary text (min (byteLen text) 200) := by
  rw [Quotable, front, ← byteLen_prefixWithin_eq_iff]
  split
  · case isTrue whole => exact iff_of_true rfl whole
  · case isFalse inside => exact iff_of_false Bool.false_ne_true inside

section

variable [UnicodeTables] [Parser] {α : Type} {agent type : String}
  {read : Json → Option α} {text : Str}

/-- Only a text that can be quoted is refused without a panic. -/
theorem parseResponse_survives_iff {decide : α → Except Stop AgentDecision}
    (decides : ∀ value, Survives (decide value)) :
    Survives (parseResponse agent type read text >>= decide) ↔
      (readsAs read text).isSome ∨ Quotable text := by
  cases found : readsAs read text with
  | some value =>
      rw [parseResponse_of_read found]
      exact iff_of_true (decides value) (Or.inl rfl)
  | none =>
      rw [parseResponse_of_unread found, Quotable]
      cases front 200 text with
      | none =>
          refine iff_of_false not_survives_panic ?_
          simp
      | some raw => exact iff_of_true (.malformed _) (Or.inr rfl)

end

namespace ExtractorAgent

theorem validate_survives {ctx : AgentContext} {now : Int}
    (invoice : ExtractedInvoice) :
    Survives (do return conclude ctx now (← validate invoice)) := by
  rw [validate]
  split_ifs
  · exact .malformed _
  · exact .malformed _
  · exact .decided _

theorem judge_survives_iff [UnicodeTables] [Parser] {ctx : AgentContext}
    {now : Int} {text : Str} :
    Survives (judge ctx now text) ↔
      (readsAs readInvoice text).isSome ∨ Quotable text :=
  parseResponse_survives_iff validate_survives

end ExtractorAgent

namespace GaapClassifier

variable [Parser]

theorem upstreamInvoice_survives {ctx : AgentContext} {error : AgentError}
    (refused : upstreamInvoice ctx = .error error) :
    Survives (.error (.error error)) := by
  rw [upstreamInvoice] at refused
  split at refused
  · obtain rfl := Except.error.inj refused
    exact .invalid _
  · case h_2 decision _ =>
      revert refused
      generalize SerdeJson.fromValue _ readInvoice decision.payload = answer
      intro refused
      cases answer with
      | ok invoice => cases refused
      | error text =>
          obtain rfl := Except.error.inj refused
          exact .malformed _

theorem judge_survives_iff [UnicodeTables] [F32Texts] [FloatValues]
    {taxonomy : UsGaapTaxonomy} {ctx : AgentContext} {now : Int} {text : Str} :
    Survives (judge taxonomy ctx now text) ↔
      (classify taxonomy text).isSome ∨ Quotable text := by
  rw [judge]
  cases classify taxonomy text with
  | some classification => exact iff_of_true (.decided _) (Or.inl rfl)
  | none =>
      rw [Quotable]
      cases front 200 text with
      | none =>
          refine iff_of_false not_survives_panic ?_
          simp
      | some raw => exact iff_of_true (.malformed _) (Or.inr rfl)

end GaapClassifier

namespace LlmAgent

section

variable [UnicodeTables] [Parser] [F32Texts] [FloatValues]

omit [UnicodeTables] [FloatValues] in
/-- The answer is the JSON that the agent asked for. -/
def Reads (text : Str) : LlmAgent → Prop
  | .extractor => (readsAs readInvoice text).isSome
  | .fraudAuditor => (readsAs readAssessment text).isSome
  | .gaapClassifier _ =>
      (readsAs readClassification text).isSome ∨
        (readsAs (readVec readItemClassification) text).isSome

theorem process_of_unasked {agent : LlmAgent} {llm : LlmBackend} {now : Int}
    {ctx : AgentContext} (unasked : agent.request ctx = none) :
    Survives (agent.process llm now ctx) := by
  cases agent with
  | extractor =>
      rw [LlmAgent.request] at unasked
      split at unasked
      next empty =>
        rw [process, ExtractorAgent.process, if_pos empty]
        exact .invalid _
      next => cases unasked
  | fraudAuditor => cases unasked
  | gaapClassifier taxonomy =>
      rw [LlmAgent.request] at unasked
      split at unasked
      next error refused =>
        rw [process, GaapClassifier.process, refused]
        exact GaapClassifier.upstreamInvoice_survives refused
      next => cases unasked

theorem process_survives_of_answer {agent : LlmAgent} {llm : LlmBackend}
    {now : Int} {ctx : AgentContext} {request : LlmRequest}
    {response : LlmResponse} (asked : agent.request ctx = some request)
    (answered : llm request = .ok response) :
    Survives (agent.process llm now ctx) ↔
      agent.Reads response.text ∨ Quotable response.text := by
  cases agent with
  | extractor =>
      rw [LlmAgent.request] at asked
      split at asked
      next => cases asked
      next some =>
        rw [← Option.some.inj asked] at answered
        rw [process, ExtractorAgent.process, if_neg some, answered]
        exact ExtractorAgent.judge_survives_iff
  | fraudAuditor =>
      rw [LlmAgent.request] at asked
      rw [← Option.some.inj asked] at answered
      rw [process, FraudAuditor.process_of_answer answered]
      change Survives (FraudAuditor.conclude ctx now <$> _) ↔ _
      rw [map_eq_pure_bind]
      exact parseResponse_survives_iff fun assessment => .decided _
  | gaapClassifier taxonomy =>
      rw [LlmAgent.request] at asked
      split at asked
      next => cases asked
      next invoice upstream =>
        rw [← Option.some.inj asked] at answered
        rw [process, GaapClassifier.process, upstream]
        simp only [answered]
        rw [GaapClassifier.judge_survives_iff, GaapClassifier.classify, Reads,
          Option.isSome_or, Option.isSome_map, Bool.or_eq_true]

/-- The only panic is at an answer that the agent cannot read and whose first
two hundred bytes end inside a character. -/
theorem process_survives_iff {agent : LlmAgent} {llm : LlmBackend} {now : Int}
    {ctx : AgentContext} {response : LlmResponse}
    (answers : ∀ request, agent.request ctx = some request →
      llm request = .ok response) :
    Survives (agent.process llm now ctx) ↔
      agent.request ctx = none ∨ agent.Reads response.text ∨
        CharBoundary response.text (min (byteLen response.text) 200) := by
  cases asked : agent.request ctx with
  | none => exact iff_of_true (process_of_unasked asked) (Or.inl rfl)
  | some request =>
      rw [process_survives_of_answer asked (answers request asked), quotable_iff]
      simp

end

/-! ### A long answer -/

section

attribute [local instance] sampleValues sampleTexts sampleParser plainTables

/-- A text with a character of two bytes behind its first characters. -/
def longText (before : Nat) : Str :=
  List.replicate before 'x' ++ ['é', 'x']

def longResponse (before : Nat) : LlmResponse :=
  { text := longText before, inputTokens := 100, outputTokens := 200
    modelId := "mock".toList, finishReason := .stop }

theorem byteLen_replicate (before : Nat) :
    byteLen (List.replicate before 'x') = before := by
  have ascii : IsAscii (List.replicate before 'x') := by
    intro char member
    rw [List.eq_of_mem_replicate member]
    decide
  rw [byteLen_eq_length_iff.mpr ascii, List.length_replicate]

theorem byteLen_longText (before : Nat) : byteLen (longText before) = before + 3 := by
  rw [longText, byteLen_append, byteLen_replicate]
  rfl

/-- The character begins at the cut. -/
theorem process_survives_longText :
    Survives (process (fun _ => .ok (longResponse 200)) 0 (.new [] [])
      .fraudAuditor) := by
  have boundary : CharBoundary (longText 200)
      (min (byteLen (longText 200)) 200) := by
    have begins := charBoundary_append (List.replicate 200 'x') ['é', 'x']
    rw [byteLen_replicate] at begins
    rw [byteLen_longText]
    exact begins
  have answers : ∀ asked, request (.new [] []) .fraudAuditor = some asked →
      (fun _ => .ok (longResponse 200) : LlmBackend) asked =
        .ok (longResponse 200) :=
    fun _ _ => rfl
  exact (process_survives_iff answers).mpr (.inr (.inr boundary))

/-- The cut is inside the character. -/
theorem longText_panics :
    ¬ ∀ agent llm now ctx response,
      (∀ asked, LlmAgent.request ctx agent = some asked →
        llm asked = .ok response) →
      Survives (process llm now ctx agent) := by
  intro always
  have survives := always .fraudAuditor (fun _ => .ok (longResponse 199)) 0
    (.new [] []) (longResponse 199) fun _ _ => rfl
  have inside : ¬ CharBoundary (longText 199)
      (min (byteLen (longText 199)) 200) := by
    rw [byteLen_longText]
    apply not_charBoundary_inside <;> rw [byteLen_replicate] <;> decide
  have unread : ¬ (readsAs readAssessment (longText 199)).isSome := by
    decide +kernel
  have asked : request (.new [] []) .fraudAuditor =
      some (FraudAuditor.request (.new [] [])) := by
    rfl
  rcases (process_survives_of_answer asked rfl).mp survives with
    read | quotable
  · exact unread read
  · exact inside (quotable_iff.mp quotable)

end

end LlmAgent

end TrustLayer.ThemisAgents
