import TrustLayer.ThemisAgents.Llm

/-!
# The extractor

The first agent: the model is to turn the bytes of an invoice into JSON.
-/

namespace TrustLayer.ThemisAgents

open TrustLayer.Library hiding Json
open TrustLayer.AgentGuard (Json)
open TrustLayer.SerdeJson (Parser decimal integer ordered readVec structFields)

/-! ## Invoices -/

structure LineItem where
  description : Str
  amountCents : Int
  deriving DecidableEq

structure ExtractedInvoice where
  vendor : Str
  amountCents : Int
  lineItems : List LineItem
  dateIso : Str
  poRef : Str
  deriving DecidableEq

def readLineItem (json : Json) : Option LineItem := do
  match ← structFields ["description".toList, "amount_cents".toList] json with
  | [some description, some amountCents] =>
      return {
        description := ← description.asStr
        amountCents := ← amountCents.asI64 }
  | _ => none

def readInvoice (json : Json) : Option ExtractedInvoice := do
  match ← structFields ["vendor".toList, "amount_cents".toList,
      "line_items".toList, "date_iso".toList, "po_ref".toList] json with
  | [some vendor, some amountCents, some lineItems, some dateIso,
      some poRef] =>
      return {
        vendor := ← vendor.asStr
        amountCents := ← amountCents.asI64
        lineItems := ← readVec readLineItem lineItems
        dateIso := ← dateIso.asStr
        poRef := ← poRef.asStr }
  | _ => none

/-- The fields in the order of the structure. -/
def LineItem.value (item : LineItem) : Json :=
  .object [
    ("description".toList, .string item.description),
    ("amount_cents".toList, integer item.amountCents)]

def ExtractedInvoice.value (invoice : ExtractedInvoice) : Json :=
  .object [
    ("vendor".toList, .string invoice.vendor),
    ("amount_cents".toList, integer invoice.amountCents),
    ("line_items".toList, .array (invoice.lineItems.map LineItem.value)),
    ("date_iso".toList, .string invoice.dateIso),
    ("po_ref".toList, .string invoice.poRef)]

namespace ExtractorAgent

/-! ## The agent -/

def systemPrompt : Str :=
  ("You are the Extractor agent in THEMIS, a multi-agent AP invoice fraud " ++
  "detection system. Given a raw invoice (PDF text, image OCR, or JSON), " ++
  "respond with a single JSON object matching this schema exactly:\n\n\x7b\n" ++
  "  \"vendor\": \"string (non-empty)\",\n" ++
  "  \"amount_cents\": integer (positive, total in cents),\n" ++
  "  \"line_items\": [\x7b\"description\": \"string\", " ++
  "\"amount_cents\": integer\x7d],\n" ++
  "  \"date_iso\": \"string (ISO 8601)\",\n" ++
  "  \"po_ref\": \"string (PO reference; empty if none)\"\n\x7d\n\n" ++
  "Respond with ONLY the JSON object. No commentary, no markdown fences.").toList

def amountSchema : Json :=
  schema "integer" [("minimum", bound "0")]

def extractedInvoiceSchema : Json :=
  ordered (objectSchema [
    ("vendor", schema "string" [("minLength", bound "1")]),
    ("amount_cents", amountSchema),
    ("line_items", schema "array" [("items", objectSchema [
      ("description", schema "string" []),
      ("amount_cents", amountSchema)])]),
    ("date_iso", schema "string" []),
    ("po_ref", schema "string" [])])

section

variable [UnicodeTables]

def request (ctx : AgentContext) : LlmRequest :=
  { systemPrompt
    userPrompt :=
      "Parse this ".toList ++ ctx.contentType ++ " invoice (".toList ++
        decimal ctx.rawInvoice.length ++
        " bytes) and respond with the JSON object:\n\n".toList ++
        debugStr (fromUtf8Lossy (ctx.rawInvoice.take 2048))
    maxTokens := 2048
    temperature := ⟨0⟩
    seed := some 42
    responseSchema := some extractedInvoiceSchema
    responseSchemaName := some "ExtractedInvoice".toList }

/-- What the model may leave empty for a field it does not recognise. -/
def validate (invoice : ExtractedInvoice) : Except Stop ExtractedInvoice :=
  if invoice.vendor = [] then
    .error (.error (.llmMalformedPayload
      "Extractor: 'vendor' is empty".toList))
  else if invoice.amountCents ≤ 0 then
    .error (.error (.llmMalformedPayload
      ("Extractor: 'amount_cents' must be positive, got ".toList ++
        decimal invoice.amountCents)))
  else .ok invoice

/-- The decision on an invoice, whose confidence is `0.9`. -/
def conclude (ctx : AgentContext) (now : Int) (invoice : ExtractedInvoice) :
    AgentDecision :=
  { agentId := "extractor".toList
    tenantId := ctx.tenantId
    invoiceId := ctx.invoiceId
    decisionType := .extracted
    confidence := ⟨0x3F666666⟩
    reasoning :=
      "Extracted invoice from ".toList ++ ctx.contentType ++
        " (vendor=".toList ++ invoice.vendor ++ ", amount_cents=".toList ++
        decimal invoice.amountCents ++ ", ".toList ++
        decimal invoice.lineItems.length ++ " line items)".toList
    timestampMs := now
    payload := ordered invoice.value }

variable [Parser]

/-- `process` behind the answer of the model. -/
def judge (ctx : AgentContext) (now : Int) (text : Str) :
    Except Stop AgentDecision := do
  let parsed ← parseResponse "Extractor" "ExtractedInvoice" readInvoice text
  let invoice ← validate parsed
  return conclude ctx now invoice

/-- `process`, at a time. -/
def process (llm : LlmBackend) (now : Int) (ctx : AgentContext) :
    Except Stop AgentDecision :=
  if ctx.rawInvoice = [] then
    .error (.error (.invalidInput "Extractor: raw_invoice is empty".toList))
  else
    match llm (request ctx) with
    | .error error => .error (.error error)
    | .ok response => judge ctx now response.text

/-- What is no invoice, or one that does not validate. -/
def Refuses (text : Str) : Prop :=
  readsAs readInvoice text = none ∧ Quotable text ∨
    ∃ invoice, readsAs readInvoice text = some invoice ∧
      (invoice.vendor = [] ∨ invoice.amountCents ≤ 0)

omit [UnicodeTables] [Parser] in
theorem validate_isError_iff {invoice : ExtractedInvoice} :
    IsError (validate invoice) ↔
      invoice.vendor = [] ∨ invoice.amountCents ≤ 0 := by
  unfold validate
  split_ifs with vendor amount
  · exact iff_of_true (isError_error _) (Or.inl vendor)
  · exact iff_of_true (isError_error _) (Or.inr amount)
  · exact iff_of_false (not_isError_ok _) (not_or.mpr ⟨vendor, amount⟩)

theorem judge_isError_iff {ctx : AgentContext} {now : Int} {text : Str} :
    IsError (judge ctx now text) ↔ Refuses text := by
  have concluded : ∀ invoice : ExtractedInvoice,
      IsError (do return conclude ctx now (← validate invoice)) ↔
        invoice.vendor = [] ∨ invoice.amountCents ≤ 0 := by
    intro invoice
    rw [← validate_isError_iff]
    exact isError_map_iff
  rw [judge, isError_bind_iff, parseResponse_isError_iff]
  simp only [parseResponse_eq_ok_iff, concluded, Refuses]

end

end ExtractorAgent

end TrustLayer.ThemisAgents
