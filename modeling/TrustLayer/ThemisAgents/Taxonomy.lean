import TrustLayer.SerdeJson.Reordering
import TrustLayer.ThemisAgents.Truncation

/-!
# Codes outside the taxonomy

The classifier takes over what the model answers.  It looks into the taxonomy
for a name only, and into the line items of the invoice not at all.
-/

namespace TrustLayer.ThemisAgents

open TrustLayer.Library hiding Json
open TrustLayer.AgentGuard (Json)
open TrustLayer.SerdeJson (Parser fromValue get_ordered ordered orderedElements_eq
  readVec)

namespace GaapClassifier

variable {taxonomy : UsGaapTaxonomy} {invoice : ExtractedInvoice}

/-! ## Payloads -/

/-- An item of a payload classifies a line of the invoice. -/
def ItemInside (taxonomy : UsGaapTaxonomy) (line : LineItem) (item : Json) :
    Prop :=
  item.get "description".toList = some (.string line.description) ∧
    ∃ account ∈ taxonomy.accounts,
      item.get "account_code".toList = some (.string account.code)

/-- A payload has an account of the taxonomy, with its name, and an item for
each line of the invoice. -/
structure Inside (taxonomy : UsGaapTaxonomy) (invoice : ExtractedInvoice)
    (payload : Json) : Prop where
  account : ∃ account ∈ taxonomy.accounts,
    payload.get "account_code".toList = some (.string account.code) ∧
      payload.get "account_name".toList = some (.string account.name)
  items : ∃ items, payload.get "per_line_item".toList = some (.array items) ∧
    List.Forall₂ (ItemInside taxonomy) invoice.lineItems items

/-! ## Answers -/

/-- An item of an answer repeats a line of the invoice, with a code of the
taxonomy. -/
def ItemFits (taxonomy : UsGaapTaxonomy) (line : LineItem)
    (item : LineItemClassification) : Prop :=
  item.description = line.description ∧
    ∃ account ∈ taxonomy.accounts, item.accountCode = account.code

def ItemsFit (taxonomy : UsGaapTaxonomy) (invoice : ExtractedInvoice)
    (items : List LineItemClassification) : Prop :=
  List.Forall₂ (ItemFits taxonomy) invoice.lineItems items

/-- An account stands in the taxonomy under its code. -/
def Listed (taxonomy : UsGaapTaxonomy) (code name : Str) : Prop :=
  ∃ account ∈ taxonomy.accounts, code = account.code ∧ name = account.name

theorem get_item (item : LineItemClassification) :
    (ordered item.value).get "description".toList =
        some (.string item.description) ∧
      (ordered item.value).get "account_code".toList =
        some (.string item.accountCode) := by
  have nodup : ([("description".toList, Json.string item.description),
      ("account_code".toList, .string item.accountCode)].map
        Prod.fst).Nodup := by
    change ["description".toList, "account_code".toList].Nodup
    decide
  rw [LineItemClassification.value, get_ordered nodup, get_ordered nodup]
  exact ⟨rfl, rfl⟩

theorem itemInside_iff {line : LineItem} {item : LineItemClassification} :
    ItemInside taxonomy line (ordered item.value) ↔
      ItemFits taxonomy line item := by
  obtain ⟨description, accountCode⟩ := get_item item
  rw [ItemInside, description, accountCode]
  simp only [Option.some.injEq, Json.string.injEq]
  exact Iff.rfl

section

variable [FloatValues]

theorem get_classification (classification : GaapClassification) :
    (ordered classification.value).get "account_code".toList =
        some (.string classification.accountCode) ∧
      (ordered classification.value).get "account_name".toList =
        some (.string classification.accountName) ∧
      (ordered classification.value).get "per_line_item".toList =
        some (.array (classification.perLineItem.map fun item =>
          ordered item.value)) := by
  have nodup : ([("framework".toList,
        Json.string classification.framework.tag),
      ("account_code".toList, .string classification.accountCode),
      ("account_name".toList, .string classification.accountName),
      ("confidence".toList, FloatValues.toValue classification.confidence),
      ("per_line_item".toList, .array
        (classification.perLineItem.map LineItemClassification.value))].map
        Prod.fst).Nodup := by
    change ["framework".toList, "account_code".toList, "account_name".toList,
      "confidence".toList, "per_line_item".toList].Nodup
    decide
  rw [GaapClassification.value, get_ordered nodup, get_ordered nodup,
    get_ordered nodup]
  refine ⟨rfl, rfl, ?_⟩
  change some (ordered (.array (List.map _ _))) = _
  rw [ordered, orderedElements_eq, List.map_map]
  rfl

theorem inside_iff {classification : GaapClassification} :
    Inside taxonomy invoice (ordered classification.value) ↔
      Listed taxonomy classification.accountCode classification.accountName ∧
        ItemsFit taxonomy invoice classification.perLineItem := by
  obtain ⟨accountCode, accountName, items⟩ := get_classification classification
  have parallel : List.Forall₂ (ItemInside taxonomy) invoice.lineItems
      (classification.perLineItem.map fun item => ordered item.value) ↔
        ItemsFit taxonomy invoice classification.perLineItem := by
    rw [List.forall₂_map_right_iff, ItemsFit]
    simp only [itemInside_iff]
  rw [← parallel]
  constructor
  · intro inside
    obtain ⟨account, member, code, name⟩ := inside.account
    obtain ⟨others, listed, fit⟩ := inside.items
    rw [accountCode, Option.some.injEq, Json.string.injEq] at code
    rw [accountName, Option.some.injEq, Json.string.injEq] at name
    rw [items, Option.some.injEq, Json.array.injEq] at listed
    subst listed
    exact ⟨⟨account, member, code, name⟩, fit⟩
  · rintro ⟨⟨account, member, code, name⟩, fit⟩
    refine ⟨⟨account, member, ?_, ?_⟩, _, items, fit⟩
    · rw [accountCode, code]
    · rw [accountName, name]

end

/-- Items that fit have a code, whose name is looked up.  Without items there
is none. -/
theorem listed_fallback_iff {items : List LineItemClassification}
    (fit : ItemsFit taxonomy invoice items) :
    Listed taxonomy (fallback taxonomy items).accountCode
        (fallback taxonomy items).accountName ↔
      (invoice.lineItems = [] → Listed taxonomy [] []) := by
  cases items with
  | nil =>
      have none : invoice.lineItems = [] := List.forall₂_nil_right_iff.mp fit
      rw [none]
      exact (imp_iff_right rfl).symm
  | cons item items =>
      have some : invoice.lineItems ≠ [] := by
        intro none
        rw [ItemsFit, none] at fit
        cases fit
      apply iff_of_true
      · rw [ItemsFit, List.forall₂_cons_right_iff] at fit
        obtain ⟨line, lines, ⟨-, account, member, code⟩, -⟩ := fit
        have found : (taxonomy.accounts.find? fun account =>
            decide (account.code = item.accountCode)).isSome := by
          rw [List.find?_isSome]
          exact ⟨account, member, decide_eq_true code.symm⟩
        obtain ⟨first, isFirst⟩ := Option.isSome_iff_exists.mp found
        refine ⟨first, List.mem_of_find?_eq_some isFirst, ?_, ?_⟩
        · have same := List.find?_some isFirst
          exact (of_decide_eq_true same).symm
        · change ((taxonomy.accounts.find? _).map GaapAccount.name).getD [] = _
          rw [isFirst]
          rfl
      · intro none
        exact absurd none some

section

variable [Parser] [F32Texts]

/-- The answer itself stays inside the taxonomy.  An array without items stands
for the account with neither code nor name. -/
inductive AnswerFits (taxonomy : UsGaapTaxonomy) (invoice : ExtractedInvoice)
    (text : Str) : Prop
  | whole {answer : GaapClassification}
      (read : readsAs readClassification text = some answer)
      (account : Listed taxonomy answer.accountCode answer.accountName)
      (items : ItemsFit taxonomy invoice answer.perLineItem)
  | items {answer : List LineItemClassification}
      (unread : readsAs readClassification text = none)
      (read : readsAs (readVec readItemClassification) text = some answer)
      (account : invoice.lineItems = [] → Listed taxonomy [] [])
      (items : ItemsFit taxonomy invoice answer)

variable [FloatValues]

theorem classify_inside_iff {text : Str} {classification : GaapClassification}
    (classified : classify taxonomy text = some classification) :
    Inside taxonomy invoice (ordered classification.value) ↔
      AnswerFits taxonomy invoice text := by
  rw [inside_iff]
  rw [classify] at classified
  cases read : readsAs readClassification text with
  | some answer =>
      rw [read] at classified
      obtain rfl := Option.some.inj classified
      constructor
      · rintro ⟨account, items⟩
        exact .whole read account items
      · intro fits
        cases fits with
        | whole again account items =>
            obtain rfl := Option.some.inj (read.symm.trans again)
            exact ⟨account, items⟩
        | items unread =>
            exact absurd (read.symm.trans unread) (Option.some_ne_none _)
  | none =>
      rw [read, Option.none_or] at classified
      obtain ⟨items, readItems, rfl⟩ := Option.map_eq_some_iff.mp classified
      constructor
      · rintro ⟨account, fit⟩
        exact .items read readItems ((listed_fallback_iff fit).mp account) fit
      · intro fits
        cases fits with
        | whole found =>
            exact absurd (found.symm.trans read) (Option.some_ne_none _)
        | items unread again account fit =>
            obtain rfl := Option.some.inj (readItems.symm.trans again)
            exact ⟨(listed_fallback_iff fit).mpr account, fit⟩

variable [UnicodeTables]

/-- A decision stays inside the taxonomy exactly when the answer did. -/
theorem process_inside_iff {llm : LlmBackend} {now : Int} {ctx : AgentContext}
    {response : LlmResponse} {decision : AgentDecision}
    (upstream : upstreamInvoice ctx = .ok invoice)
    (answered : llm (request taxonomy invoice) = .ok response)
    (decided : process taxonomy llm now ctx = .ok decision) :
    Inside taxonomy invoice decision.payload ↔
      AnswerFits taxonomy invoice response.text := by
  rw [process, upstream] at decided
  simp only [answered] at decided
  rw [judge] at decided
  split at decided
  · case h_1 classification classified =>
      obtain rfl := Except.ok.inj decided
      exact classify_inside_iff classified
  · split at decided <;> cases decided

end

/-! ## A code that does not exist -/

def paperInvoice : ExtractedInvoice :=
  { vendor := "Acme".toList, amountCents := 500
    lineItems := [⟨"Paper".toList, 500⟩]
    dateIso := "2026-01-01".toList, poRef := [] }

def paperContext : AgentContext :=
  (AgentContext.new [] []).withUpstreamStream
    [ExtractorAgent.conclude (.new [] []) 0 paperInvoice]

def itemsText (code : String) : Str :=
  ("[\x7b\"description\":\"Paper\",\"account_code\":\"" ++ code ++
    "\"\x7d]").toList

def itemsJson (code : String) : Json :=
  .array [.object [
    ("description".toList, .string "Paper".toList),
    ("account_code".toList, .string code.toList)]]

/-- A parser of two answers. -/
@[reducible] def itemsParser : Parser where
  tree text :=
    if text = itemsText "6600" then some (itemsJson "6600")
    else if text = itemsText "9999" then some (itemsJson "9999")
    else none
  textError _ _ := []
  valueError _ _ := []

def itemsBackend (code : String) : LlmBackend :=
  fun _ => .ok {
    text := itemsText code, inputTokens := 100, outputTokens := 200
    modelId := "mock".toList, finishReason := .stop }

def paperItem (code : String) : LineItemClassification :=
  ⟨"Paper".toList, code.toList⟩

section

attribute [local instance] sampleValues sampleTexts itemsParser plainTables

theorem upstreamInvoice_paper : upstreamInvoice paperContext = .ok paperInvoice := by
  rfl

theorem process_paper :
    process .defaultSubset (itemsBackend "6600") 0 paperContext =
      .ok (conclude paperContext 0
        (fallback .defaultSubset [paperItem "6600"])) := by
  rfl

/-- A code of the taxonomy is taken over with its name. -/
theorem process_inside_paper :
    Inside .defaultSubset paperInvoice (conclude paperContext 0
      (fallback .defaultSubset [paperItem "6600"])).payload := by
  have listed : ∃ account ∈ UsGaapTaxonomy.defaultSubset.accounts,
      "6600".toList = account.code := by
    decide
  have fit : ItemsFit .defaultSubset paperInvoice [paperItem "6600"] :=
    .cons ⟨rfl, listed⟩ .nil
  have unread : readsAs readClassification (itemsText "6600") = none := by
    rfl
  have read : readsAs (readVec readItemClassification) (itemsText "6600") =
      some [paperItem "6600"] := by
    rfl
  apply (process_inside_iff upstreamInvoice_paper rfl process_paper).mpr
  exact .items unread read (fun none => absurd none (List.cons_ne_nil _ _)) fit

/-- An unknown code is taken over as well. -/
theorem process_not_inside :
    ¬ ∀ taxonomy llm now ctx invoice decision,
      upstreamInvoice ctx = .ok invoice →
      process taxonomy llm now ctx = .ok decision →
      Inside taxonomy invoice decision.payload := by
  intro always
  have decided : process .defaultSubset (itemsBackend "9999") 0 paperContext =
      .ok (conclude paperContext 0
        (fallback .defaultSubset [paperItem "9999"])) := by
    rfl
  have inside := always _ _ _ _ _ _ upstreamInvoice_paper decided
  obtain ⟨account, member, code, -⟩ := (inside_iff.mp inside).1
  have unknown : ∀ account ∈ UsGaapTaxonomy.defaultSubset.accounts,
      "9999".toList ≠ account.code := by
    decide
  exact unknown account member code

end

end GaapClassifier

end TrustLayer.ThemisAgents
