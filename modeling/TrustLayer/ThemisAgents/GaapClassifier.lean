import TrustLayer.ThemisAgents.Extractor

/-!
# The GAAP classifier

The line items of the extracted invoice are mapped to accounts.  The model may
answer with a whole classification, or with the array of its items only.
-/

namespace TrustLayer.ThemisAgents

open TrustLayer.Library hiding Json
open TrustLayer.AgentGuard (Json)
open TrustLayer.SerdeJson (Parser decimal fromValue ordered readVariant readVec
  structFields)

/-! ## The taxonomy -/

structure GaapAccount where
  code : Str
  name : Str
  description : Str
  parentCode : Option Str

structure UsGaapTaxonomy where
  accounts : List GaapAccount

namespace UsGaapTaxonomy

def account (code name description : String) (parentCode : Option String) :
    GaapAccount :=
  { code := code.toList
    name := name.toList
    description := description.toList
    parentCode := parentCode.map String.toList }

def defaultSubset : UsGaapTaxonomy :=
  { accounts := [
      account "6100" "Operating Expenses"
        "General operating expenses (rent, utilities, supplies)." none,
      account "6200" "Cost of Goods Sold"
        "Direct costs of producing goods sold." none,
      account "6300" "Professional Services"
        "Legal, accounting, consulting fees." (some "6100"),
      account "6400" "Travel and Entertainment"
        "Travel, meals, client entertainment." (some "6100"),
      account "6500" "Marketing and Advertising"
        "Marketing campaigns, advertising spend." (some "6100"),
      account "6600" "Office Supplies"
        "Stationery, software licenses, small equipment." (some "6100")] }

def toPromptString (taxonomy : UsGaapTaxonomy) : Str :=
  "US-GAAP 2026 Account Codes:\n".toList ++
    taxonomy.accounts.flatMap fun account =>
      "- ".toList ++ account.code ++ ": ".toList ++ account.name ++
        " — ".toList ++ account.description ++ ['\n']

end UsGaapTaxonomy

/-! ## Classifications -/

inductive GaapFramework where
  | usGaap
  | ifrs
  deriving DecidableEq

structure LineItemClassification where
  description : Str
  accountCode : Str
  deriving DecidableEq

structure GaapClassification where
  framework : GaapFramework
  accountCode : Str
  accountName : Str
  confidence : F32
  perLineItem : List LineItemClassification

def frameworks : List (Str × GaapFramework) :=
  [("us_gaap".toList, .usGaap), ("ifrs".toList, .ifrs)]

def GaapFramework.tag : GaapFramework → Str
  | .usGaap => "us_gaap".toList
  | .ifrs => "ifrs".toList

def readItemClassification (json : Json) : Option LineItemClassification := do
  match ← structFields ["description".toList, "account_code".toList] json with
  | [some description, some accountCode] =>
      return {
        description := ← description.asStr
        accountCode := ← accountCode.asStr }
  | _ => none

def readClassification [F32Texts] (json : Json) :
    Option GaapClassification := do
  match ← structFields ["framework".toList, "account_code".toList,
      "account_name".toList, "confidence".toList, "per_line_item".toList]
      json with
  | [some framework, some accountCode, some accountName, some confidence,
      some perLineItem] =>
      return {
        framework := ← readVariant frameworks framework
        accountCode := ← accountCode.asStr
        accountName := ← accountName.asStr
        confidence := ← readF32 confidence
        perLineItem := ← readVec readItemClassification perLineItem }
  | _ => none

def LineItemClassification.value (item : LineItemClassification) : Json :=
  .object [
    ("description".toList, .string item.description),
    ("account_code".toList, .string item.accountCode)]

def GaapClassification.value [FloatValues]
    (classification : GaapClassification) : Json :=
  .object [
    ("framework".toList, .string classification.framework.tag),
    ("account_code".toList, .string classification.accountCode),
    ("account_name".toList, .string classification.accountName),
    ("confidence".toList, FloatValues.toValue classification.confidence),
    ("per_line_item".toList,
      .array (classification.perLineItem.map LineItemClassification.value))]

namespace GaapClassifier

/-! ## The agent -/

def systemPrompt : Str :=
  ("You are the GAAP Classifier in THEMIS. Given invoice line items and " ++
  "the US-GAAP 2026 taxonomy subset below, classify each line item to " ++
  "the most appropriate account code. Respond with a single JSON object:\n\n" ++
  "\x7b\n  \"framework\": \"us_gaap\",\n" ++
  "  \"account_code\": \"<one of the codes in the taxonomy>\",\n" ++
  "  \"account_name\": \"<name from the taxonomy>\",\n" ++
  "  \"confidence\": number (0.0..=1.0),\n" ++
  "  \"per_line_item\": [\x7b\"description\": \"<original>\", " ++
  "\"account_code\": \"<code>\"\x7d]\n\x7d\n\n" ++
  "Use ONLY account codes from the taxonomy. The account_code + account_name " ++
  "in the top level should be the dominant classification. Respond with ONLY " ++
  "the JSON object, no commentary, no markdown fences.").toList

def gaapClassificationSchema : Json :=
  ordered (objectSchema [
    ("framework", enumSchema ["us_gaap"]),
    ("account_code", schema "string" []),
    ("account_name", schema "string" []),
    ("confidence", unitSchema),
    ("per_line_item", schema "array" [("items", objectSchema [
      ("description", schema "string" []),
      ("account_code", schema "string" [])])])])

def request (taxonomy : UsGaapTaxonomy) (invoice : ExtractedInvoice) :
    LlmRequest :=
  { systemPrompt := systemPrompt ++ '\n' :: taxonomy.toPromptString
    userPrompt :=
      "Classify these line items for invoice from ".toList ++ invoice.vendor ++
        " (".toList ++ decimal invoice.lineItems.length ++
        " items):\n".toList ++
        SerdeJson.print SerdeJson.pretty 0
          (.array (invoice.lineItems.map LineItem.value))
    maxTokens := 1024
    temperature := ⟨0⟩
    seed := some 42
    responseSchema := some gaapClassificationSchema
    responseSchemaName := some "GaapClassification".toList }

/-- The classification that an array of items stands for; its confidence is
`0.7`. -/
def fallback (taxonomy : UsGaapTaxonomy)
    (items : List LineItemClassification) : GaapClassification :=
  { framework := .usGaap
    accountCode := (items.head?.map LineItemClassification.accountCode).getD []
    accountName :=
      ((items.head?.bind fun item =>
        taxonomy.accounts.find? fun account =>
          decide (account.code = item.accountCode)).map GaapAccount.name).getD []
    confidence := ⟨0x3F333333⟩
    perLineItem := items }

section

variable [Parser]

/-- The invoice of the first extracted decision. -/
def upstreamInvoice (ctx : AgentContext) :
    Except AgentError ExtractedInvoice :=
  match ctx.upstreamDecisions.find? fun decision =>
      decide (decision.decisionType = .extracted) with
  | none =>
      .error (.invalidInput
        ("GAAP Classifier: no Extracted decision in " ++
          "upstream_decisions").toList)
  | some decision =>
      (fromValue "ExtractedInvoice".toList readInvoice
        decision.payload).mapError fun error =>
          .llmMalformedPayload
            (("GAAP Classifier: upstream Extracted payload is not " ++
              "ExtractedInvoice: ").toList ++ error)

variable [F32Texts]

/-- The whole classification first, then the array of items. -/
def classify (taxonomy : UsGaapTaxonomy) (text : Str) :
    Option GaapClassification :=
  (readsAs readClassification text).or
    ((readsAs (readVec readItemClassification) text).map (fallback taxonomy))

variable [FloatValues]

def conclude (ctx : AgentContext) (now : Int)
    (classification : GaapClassification) : AgentDecision :=
  { agentId := "gaap_classifier".toList
    tenantId := ctx.tenantId
    invoiceId := ctx.invoiceId
    decisionType := .gaapClassified
    confidence := classification.confidence
    reasoning :=
      "Classified ".toList ++ decimal classification.perLineItem.length ++
        " line items into US-GAAP account ".toList ++
        classification.accountCode ++ " (".toList ++
        classification.accountName ++ ")".toList
    timestampMs := now
    payload := ordered classification.value }

variable [UnicodeTables]

/-- `process` behind the answer of the model. -/
def judge (taxonomy : UsGaapTaxonomy) (ctx : AgentContext) (now : Int)
    (text : Str) : Except Stop AgentDecision :=
  match classify taxonomy text with
  | some classification => .ok (conclude ctx now classification)
  | none =>
      match front 200 text with
      | none => .error .panic
      | some raw =>
          .error (.error (.llmMalformedPayload
            (("GAAP Classifier: response is not GaapClassification or " ++
              "LineItemClassification array; raw=").toList ++ debugStr raw)))

/-- `process`, at a time. -/
def process (taxonomy : UsGaapTaxonomy) (llm : LlmBackend) (now : Int)
    (ctx : AgentContext) : Except Stop AgentDecision :=
  match upstreamInvoice ctx with
  | .error error => .error (.error error)
  | .ok invoice =>
      match llm (request taxonomy invoice) with
      | .error error => .error (.error error)
      | .ok response => judge taxonomy ctx now response.text

/-- What is neither a classification nor an array of items. -/
def Refuses (text : Str) : Prop :=
  readsAs readClassification text = none ∧
    readsAs (readVec readItemClassification) text = none ∧ Quotable text

omit [FloatValues] [UnicodeTables] in
theorem classify_eq_none_iff {taxonomy : UsGaapTaxonomy} {text : Str} :
    classify taxonomy text = none ↔
      readsAs readClassification text = none ∧
        readsAs (readVec readItemClassification) text = none := by
  rw [classify, Option.or_eq_none_iff, Option.map_eq_none_iff]

theorem judge_isError_iff {taxonomy : UsGaapTaxonomy} {ctx : AgentContext}
    {now : Int} {text : Str} :
    IsError (judge taxonomy ctx now text) ↔ Refuses text := by
  rw [Refuses, ← and_assoc, ← @classify_eq_none_iff _ _ taxonomy, judge]
  cases classify taxonomy text with
  | some classification => simp [IsError]
  | none =>
      rw [Quotable]
      cases front 200 text <;> simp [IsError]

end

end GaapClassifier

end TrustLayer.ThemisAgents
