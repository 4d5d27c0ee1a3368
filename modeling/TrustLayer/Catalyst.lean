import TrustLayer.Library.HashChain
import TrustLayer.Library.Json

/-!
# Catalyst step receipts

A receipt keeps its link to the step before it inside the payload.  The
manifest looks for the link beside the payload, and reads nothing else of a
receipt than its step, its link and the hash it states.
-/

namespace TrustLayer.Catalyst

open TrustLayer.Library

/-- `hashlib.blake2b` with a digest of 32 bytes. -/
class Blake2b where
  hash : List UInt8 → Vector UInt8 32

def hexdigest [Blake2b] (bytes : List UInt8) : Str :=
  toHex (Blake2b.hash bytes).toList

theorem hexdigest_length [Blake2b] (bytes : List UInt8) :
    (hexdigest bytes).length = 64 := by
  simp [hexdigest, toHex_length]

/-! ## Receipts -/

structure AgentStepReceiptArgs where
  runId : Str
  stepId : Int
  agentId : Str
  toolCalls : List Json
  inputPromptHash : Str
  outputResponseHash : Str
  decision : Dict
  latencyMs : Int
  contextRootHash : Str
  prevStepHash : Option Str
  deriving DecidableEq

/-- `None` or a text. -/
def optionalText : Option Str → Json
  | none => .null
  | some text => .str text

/-- The payload of a step, stamped with the clock. -/
def stepPayload (args : AgentStepReceiptArgs) (now : Int) : Json :=
  .obj [
    ("run_id".toList, .str args.runId),
    ("step_id".toList, .int args.stepId),
    ("agent_id".toList, .str args.agentId),
    ("tool_calls".toList, .arr args.toolCalls),
    ("input_prompt_hash".toList, .str args.inputPromptHash),
    ("output_response_hash".toList, .str args.outputResponseHash),
    ("decision".toList, .obj args.decision),
    ("latency_ms".toList, .int args.latencyMs),
    ("context_root_hash".toList, .str args.contextRootHash),
    ("prev_step_hash".toList, optionalText args.prevStepHash),
    ("timestamp".toList, .int now)]

def receiptDisclaimer : Str :=
  ("W7.2 v3.0: stub receipt. Production signs COSE_Sign1 with Ed25519 + " ++
    "SCITT TS.").toList

def manifestDisclaimer : Str :=
  ("W7.2 v3.0: stub manifest. Production submits to SCITT TS for Merkle " ++
    "inclusion.").toList

section

variable [Blake2b]

/-- The hash of a payload's canonical text. -/
def payloadHash (payload : Json) : Str :=
  hexdigest (utf8Bytes (payload.dumps true))

def agentStepReceipt (args : AgentStepReceiptArgs) (now : Int) : Dict :=
  let payload := stepPayload args now
  let hash := payloadHash payload
  [("step_id".toList, .int args.stepId),
    ("payload".toList, payload),
    ("payload_hash".toList, .str hash),
    ("cose_sign1_b64".toList, .str ("eyJhbGciOiJFZDI1NTE5In0.".toList ++ hash)),
    ("disclaimers".toList, .arr [.str receiptDisclaimer])]

end

/-! ## The manifest -/

inductive ManifestError where
  /-- `ValueError("at least one step receipt required")` -/
  | noReceipts
  /-- `ValueError("step ... chain mismatch: expected ..., got ...")` -/
  | chainMismatch (stepId expected got : Json)
  | keyError (key : Str)
  /-- Only a text has `encode`. -/
  | attributeError (found : Json)
  deriving DecidableEq

structure OrchestrationManifest where
  runId : Str
  stepCount : Nat
  rootHash : Str
  issuedAt : Int
  steps : List Json
  disclaimers : List Str
  deriving DecidableEq

/-- `receipt.get(key)`. -/
def get (receipt : Dict) (key : String) : Json :=
  (receipt.lookup key.toList).getD .null

/-- `receipt[key]`. -/
def getItem (receipt : Dict) (key : String) : Except ManifestError Json :=
  match receipt.lookup key.toList with
  | some value => .ok value
  | none => .error (.keyError key.toList)

/-- `receipt["payload_hash"].encode()`, as the text that is encoded. -/
def hashText (receipt : Dict) : Except ManifestError Str :=
  match getItem receipt "payload_hash" with
  | .ok (.str text) => .ok text
  | .ok other => .error (.attributeError other)
  | .error error => .error error

/-- The chain validation loop.  Numbers are compared by how they are written:
a hash that is no text fails in the next loop whatever it equals. -/
def validateChain : (prevHash : Json) → List Dict → Except ManifestError Unit
  | _, [] => .ok ()
  | prevHash, receipt :: receipts =>
      if get receipt "prev_step_hash" ≠ prevHash then
        match getItem receipt "step_id" with
        | .ok stepId =>
            .error (.chainMismatch stepId prevHash (get receipt "prev_step_hash"))
        | .error error => .error error
      else validateChain (get receipt "payload_hash") receipts

/-- Read one thing of every receipt, in order. -/
def readAll {α : Type} (read : Dict → Except ManifestError α) :
    List Dict → Except ManifestError (List α)
  | [] => .ok []
  | receipt :: receipts =>
      match read receipt with
      | .error error => .error error
      | .ok value =>
          match readAll read receipts with
          | .error error => .error error
          | .ok values => .ok (value :: values)

def orchestrationManifest [Blake2b] (runId : Str) (stepReceipts : List Dict)
    (now : Int) : Except ManifestError OrchestrationManifest :=
  if stepReceipts = [] then .error .noReceipts
  else
    match validateChain .null stepReceipts with
    | .error error => .error error
    | .ok () =>
        match readAll hashText stepReceipts with
        | .error error => .error error
        | .ok hashes =>
            match readAll (getItem · "step_id") stepReceipts with
            | .error error => .error error
            | .ok steps =>
                .ok {
                  runId
                  stepCount := stepReceipts.length
                  rootHash := hexdigest (hashes.flatMap utf8Bytes)
                  issuedAt := now
                  steps
                  disclaimers := [manifestDisclaimer] }

/-! ## What the manifest checks -/

theorem readAll_ok_iff {α : Type} {read : Dict → Except ManifestError α}
    {receipts : List Dict} {values : List α} :
    readAll read receipts = .ok values ↔
      receipts.map read = values.map .ok := by
  induction receipts generalizing values with
  | nil => simp [readAll, eq_comm]
  | cons receipt receipts induction =>
      rw [readAll, List.map_cons]
      cases here : read receipt with
      | error error => cases values <;> simp
      | ok value =>
          cases later : readAll read receipts with
          | error error =>
              simp only [reduceCtorEq, false_iff]
              intro same
              cases values with
              | nil => cases same
              | cons first values =>
                  have rest := induction.mpr (List.cons.inj same).2
                  rw [later] at rest
                  cases rest
          | ok found =>
              have rest := (@induction found).mp later
              cases values with
              | nil => simp
              | cons first values =>
                  have injective : Function.Injective
                      (Except.ok : α → Except ManifestError α) :=
                    fun left right same => Except.ok.inj same
                  simp [rest, injective.list_map.eq_iff]

theorem validateChain_ok_iff {prevHash : Json} {receipts : List Dict} :
    validateChain prevHash receipts = .ok () ↔
      LinkedFrom (get · "prev_step_hash") (get · "payload_hash") prevHash
        receipts := by
  induction receipts generalizing prevHash with
  | nil => simp [validateChain, LinkedFrom]
  | cons receipt receipts induction =>
      rw [validateChain, LinkedFrom]
      by_cases linked : get receipt "prev_step_hash" = prevHash
      · rw [if_neg (not_not.mpr linked), induction, and_iff_right linked]
      · rw [if_pos linked]
        cases getItem receipt "step_id" <;> simp [linked]

theorem getItem_ok_iff {receipt : Dict} {key : String} {value : Json} :
    getItem receipt key = .ok value ↔ receipt.lookup key.toList = some value := by
  unfold getItem
  cases receipt.lookup key.toList <;> simp

theorem hashText_ok_iff {receipt : Dict} {text : Str} :
    hashText receipt = .ok text ↔
      receipt.lookup "payload_hash".toList = some (.str text) := by
  rw [← getItem_ok_iff]
  unfold hashText
  cases getItem receipt "payload_hash" with
  | error error => simp
  | ok value => cases value <;> simp

/-- What is known of a list of receipts that became a manifest. -/
structure Accepted [Blake2b] (runId : Str) (receipts : List Dict) (now : Int)
    (manifest : OrchestrationManifest) (hashes : List Str) : Prop where
  nonempty : receipts ≠ []
  linked : LinkedFrom (get · "prev_step_hash") (get · "payload_hash") .null
    receipts
  hashed : receipts.map hashText = hashes.map .ok
  numbered : receipts.map (getItem · "step_id") = manifest.steps.map .ok
  shape : manifest = {
    runId
    stepCount := receipts.length
    rootHash := hexdigest (hashes.flatMap utf8Bytes)
    issuedAt := now
    steps := manifest.steps
    disclaimers := [manifestDisclaimer] }

theorem orchestrationManifest_ok_iff [Blake2b] {runId : Str}
    {receipts : List Dict} {now : Int} {manifest : OrchestrationManifest} :
    orchestrationManifest runId receipts now = .ok manifest ↔
      ∃ hashes, Accepted runId receipts now manifest hashes := by
  unfold orchestrationManifest
  constructor
  · intro accepted
    by_cases empty : receipts = []
    · rw [if_pos empty] at accepted
      cases accepted
    rw [if_neg empty] at accepted
    cases chain : validateChain .null receipts with
    | error error => simp [chain] at accepted
    | ok _ =>
        cases read : readAll hashText receipts with
        | error error => simp [chain, read] at accepted
        | ok hashes =>
            cases numbers : readAll (getItem · "step_id") receipts with
            | error error => simp [chain, read, numbers] at accepted
            | ok steps =>
                simp only [chain, read, numbers, Except.ok.injEq] at accepted
                subst accepted
                exact ⟨hashes, empty, validateChain_ok_iff.mp chain,
                  readAll_ok_iff.mp read, readAll_ok_iff.mp numbers, rfl⟩
  · rintro ⟨hashes, accepted⟩
    rw [if_neg accepted.nonempty, validateChain_ok_iff.mpr accepted.linked,
      readAll_ok_iff.mpr accepted.hashed]
    simp only [readAll_ok_iff.mpr accepted.numbered]
    exact congrArg Except.ok accepted.shape.symm

/-! ## Round trip -/

/-- A step of a run with the clock that stamps its payload. -/
abbrev Step := AgentStepReceiptArgs × Int

section

variable [Blake2b]

def stepReceipt (step : Step) : Dict :=
  agentStepReceipt step.1 step.2

def stepHash (step : Step) : Str :=
  payloadHash (stepPayload step.1 step.2)

theorem get_stepReceipt_prevStepHash (step : Step) :
    get (stepReceipt step) "prev_step_hash" = .null := rfl

theorem get_stepReceipt_payloadHash (step : Step) :
    get (stepReceipt step) "payload_hash" = .str (stepHash step) := rfl

theorem hashText_stepReceipt (step : Step) :
    hashText (stepReceipt step) = .ok (stepHash step) := rfl

theorem getItem_stepReceipt_stepId (step : Step) :
    getItem (stepReceipt step) "step_id" = .ok (.int step.1.stepId) := rfl

/-- The steps of a run: the first one has no hash before it, and each later one
is given the hash of the receipt before. -/
structure AgentRun where
  steps : List Step
  nonempty : steps ≠ []
  linked : LinkedFrom (fun step : Step => step.1.prevStepHash)
    (fun step => some (stepHash step)) none steps

/-- The receipts of the run become a manifest that reports its steps. -/
def RoundTrips (run : AgentRun) (runId : Str) (now : Int) : Prop :=
  ∃ manifest,
    orchestrationManifest runId (run.steps.map stepReceipt) now = .ok manifest ∧
      manifest.stepCount = run.steps.length ∧
      manifest.steps = run.steps.map fun step => .int step.1.stepId

/-- Receipts as they are returned carry no link beside the payload, so the chain
breaks at the second one. -/
theorem roundTrips_iff (run : AgentRun) (runId : Str) (now : Int) :
    RoundTrips run runId now ↔ run.steps.length = 1 := by
  constructor
  · rintro ⟨manifest, accepted, -, -⟩
    obtain ⟨hashes, accepted⟩ := orchestrationManifest_ok_iff.mp accepted
    have linked := accepted.linked
    cases shape : run.steps with
    | nil => exact absurd shape run.nonempty
    | cons first later =>
        cases later with
        | nil => rfl
        | cons second later =>
            rw [shape] at linked
            have link : get (stepReceipt second) "prev_step_hash" =
                get (stepReceipt first) "payload_hash" := linked.2.1
            rw [get_stepReceipt_prevStepHash, get_stepReceipt_payloadHash] at link
            cases link
  · intro single
    obtain ⟨step, shape⟩ := List.length_eq_one_iff.mp single
    let manifest : OrchestrationManifest :=
      { runId
        stepCount := 1
        rootHash := hexdigest ([stepHash step].flatMap utf8Bytes)
        issuedAt := now
        steps := [.int step.1.stepId]
        disclaimers := [manifestDisclaimer] }
    rw [RoundTrips, shape]
    refine ⟨manifest, orchestrationManifest_ok_iff.mpr ⟨[stepHash step],
      List.cons_ne_nil _ _, ⟨rfl, trivial⟩, ?_, ?_, rfl⟩, rfl, rfl⟩
    · exact congrArg ([·]) (hashText_stepReceipt step)
    · exact congrArg ([·]) (getItem_stepReceipt_stepId step)

end

def firstArgs : AgentStepReceiptArgs :=
  { runId := ['r'], stepId := 0, agentId := ['a'], toolCalls := []
    inputPromptHash := [], outputResponseHash := [], decision := []
    latencyMs := 1, contextRootHash := [], prevStepHash := none }

def firstHash : Str :=
  "6a1154e58bd798d2edbfbabd89854ed80753175789221e8bc31e4b7b9b76d93f".toList

def secondArgs : AgentStepReceiptArgs :=
  { firstArgs with stepId := 1, prevStepHash := some firstHash }

/-- BLAKE2b on the first payload, on the second one, and on the text `x`. -/
@[reducible] def recordedBlake2b : Blake2b where
  hash bytes :=
    if bytes = utf8Bytes ((stepPayload firstArgs 100).dumps true) then
      #v[0x6a, 0x11, 0x54, 0xe5, 0x8b, 0xd7, 0x98, 0xd2,
      0xed, 0xbf, 0xba, 0xbd, 0x89, 0x85, 0x4e, 0xd8,
      0x07, 0x53, 0x17, 0x57, 0x89, 0x22, 0x1e, 0x8b,
      0xc3, 0x1e, 0x4b, 0x7b, 0x9b, 0x76, 0xd9, 0x3f]
    else if bytes = utf8Bytes ['x'] then
      #v[0xd1, 0x61, 0xd7, 0x11, 0x45, 0xab, 0xee, 0xc5,
      0xef, 0x15, 0xab, 0xcf, 0x04, 0x59, 0xce, 0xc6,
      0x0a, 0x27, 0x32, 0x1e, 0x2f, 0x0a, 0xc0, 0xef,
      0x7a, 0xce, 0x52, 0x54, 0xf5, 0x94, 0x44, 0x76]
    else
      #v[0xb3, 0xb0, 0x06, 0xe1, 0x40, 0x88, 0x5c, 0x4b,
      0xdf, 0x76, 0x4e, 0xc5, 0x86, 0x81, 0x46, 0xde,
      0x2c, 0xd8, 0x37, 0x26, 0x43, 0x90, 0x64, 0xdd,
      0x0e, 0x74, 0xb1, 0x43, 0x7b, 0xc6, 0x6f, 0xfd]

theorem firstHash_recorded :
    @stepHash recordedBlake2b (firstArgs, 100) = firstHash := by
  decide +kernel

/-- A run of two steps. -/
def twoSteps : @AgentRun recordedBlake2b :=
  @AgentRun.mk recordedBlake2b [(firstArgs, 100), (secondArgs, 101)]
    (List.cons_ne_nil _ _) ⟨rfl, congrArg some firstHash_recorded.symm, trivial⟩

/-- The second receipt, as it is returned, breaks the chain. -/
theorem twoSteps_not_roundTrips :
    @orchestrationManifest recordedBlake2b ['r']
        ((@AgentRun.steps recordedBlake2b twoSteps).map
          (@stepReceipt recordedBlake2b)) 102 =
      .error (.chainMismatch (.int 1) (.str firstHash) .null) ∧
    ¬ @RoundTrips recordedBlake2b twoSteps ['r'] 102 := by
  have rejected : @orchestrationManifest recordedBlake2b ['r']
      ((@AgentRun.steps recordedBlake2b twoSteps).map
        (@stepReceipt recordedBlake2b)) 102 =
      .error (.chainMismatch (.int 1) (.str firstHash) .null) := by
    rw [← firstHash_recorded]
    rfl
  refine ⟨rejected, ?_⟩
  rintro ⟨manifest, accepted, -, -⟩
  cases rejected.symm.trans accepted

/-! ## What a manifest binds -/

/-- The texts that receipts state as their payload hashes. -/
def StatedHashes (receipts : List Dict) (hashes : List Str) : Prop :=
  receipts.map (·.lookup "payload_hash".toList) =
    hashes.map fun hash => some (.str hash)

theorem statedHashes_iff {receipts : List Dict} {hashes : List Str} :
    receipts.map hashText = hashes.map .ok ↔ StatedHashes receipts hashes := by
  unfold StatedHashes
  induction receipts generalizing hashes with
  | nil => cases hashes <;> simp
  | cons receipt receipts induction =>
      cases hashes with
      | nil => simp
      | cons hash hashes =>
          simp only [List.map_cons, List.cons.injEq]
          rw [hashText_ok_iff, induction]

theorem StatedHashes.get_eq {receipts : List Dict} {hashes : List Str}
    (stated : StatedHashes receipts hashes) :
    receipts.map (get · "payload_hash") = hashes.map .str := by
  have values := congrArg (List.map (Option.getD · Json.null)) stated
  simpa [get, Function.comp_def] using values

/-- Texts of one length can be read back from their concatenation. -/
theorem flatMap_utf8Bytes_inj {size : Nat} {left right : List Str}
    (positive : 0 < size)
    (leftSizes : ∀ text ∈ left, (utf8Bytes text).length = size)
    (rightSizes : ∀ text ∈ right, (utf8Bytes text).length = size)
    (same : left.flatMap utf8Bytes = right.flatMap utf8Bytes) :
    left = right := by
  induction left generalizing right with
  | nil =>
      cases right with
      | nil => rfl
      | cons text right =>
          have bytes := rightSizes text List.mem_cons_self
          have none := congrArg List.length same
          simp only [List.flatMap_nil, List.flatMap_cons, List.length_nil,
            List.length_append] at none
          omega
  | cons text left induction =>
      obtain ⟨headSize, leftSizes⟩ := List.forall_mem_cons.mp leftSizes
      cases right with
      | nil =>
          have none := congrArg List.length same
          simp only [List.flatMap_nil, List.flatMap_cons, List.length_nil,
            List.length_append] at none
          omega
      | cons other right =>
          obtain ⟨otherSize, rightSizes⟩ := List.forall_mem_cons.mp rightSizes
          rw [List.flatMap_cons, List.flatMap_cons] at same
          obtain ⟨head, tail⟩ :=
            List.append_inj same (headSize.trans otherSize.symm)
          rw [utf8Bytes_injective head, induction leftSizes rightSizes tail]

section

variable [Blake2b]

/-- The hash function tells these two inputs apart. -/
def CollisionFreeOn (left right : List UInt8) : Prop :=
  Blake2b.hash left = Blake2b.hash right → left = right

theorem eq_of_hexdigest_eq {left right : List UInt8}
    (free : CollisionFreeOn left right)
    (same : hexdigest left = hexdigest right) : left = right :=
  free (Vector.toList_inj.mp (toHex_injective same))

/-- The receipt states the hash of the payload it carries. -/
def Honest (receipt : Dict) : Prop :=
  get receipt "payload_hash" = .str (payloadHash (get receipt "payload"))

/-- The canonical text of a payload. -/
def payloadBytes (receipt : Dict) : List UInt8 :=
  utf8Bytes ((get receipt "payload").dumps true)

/-- Honest receipts that state the same hashes carry the same payloads. -/
theorem payloadBytes_eq_of_hashes {receipts others : List Dict}
    (honest : ∀ receipt ∈ receipts ++ others, Honest receipt)
    (free : ∀ receipt ∈ receipts, ∀ other ∈ others,
      CollisionFreeOn (payloadBytes receipt) (payloadBytes other))
    (same : receipts.map (get · "payload_hash") =
      others.map (get · "payload_hash")) :
    receipts.map payloadBytes = others.map payloadBytes := by
  induction receipts generalizing others with
  | nil =>
      cases others with
      | nil => rfl
      | cons other others => cases same
  | cons receipt receipts induction =>
      cases others with
      | nil => cases same
      | cons other others =>
          rw [List.map_cons, List.map_cons, List.cons.injEq] at same
          have stated : Honest receipt := honest receipt (by simp)
          have otherStated : Honest other := honest other (by simp)
          have digest : hexdigest (payloadBytes receipt) =
              hexdigest (payloadBytes other) :=
            Json.str.inj (stated.symm.trans (same.1.trans otherStated))
          have head := eq_of_hexdigest_eq
            (free receipt List.mem_cons_self other List.mem_cons_self) digest
          have tail := induction
            (fun found member => honest found (by
              rcases List.mem_append.mp member with left | right
              · simp [left]
              · simp [right]))
            (fun found member another anotherMember =>
              free found (List.mem_cons_of_mem _ member) another
                (List.mem_cons_of_mem _ anotherMember)) same.2
          rw [List.map_cons, List.map_cons, head, tail]

/-- The receipts of a manifest state texts as payload hashes; two manifests with
one root list the same hashes, and receipts that state the hashes of their own
payloads carry the same payloads. -/
theorem manifest_binds_hashes {runId otherRunId : Str}
    {receipts others : List Dict} {now later : Int}
    {manifest other : OrchestrationManifest}
    (accepted : orchestrationManifest runId receipts now = .ok manifest)
    (otherAccepted : orchestrationManifest otherRunId others later = .ok other) :
    ∃ hashes otherHashes, StatedHashes receipts hashes ∧
      StatedHashes others otherHashes ∧
      manifest.rootHash = hexdigest (hashes.flatMap utf8Bytes) ∧
      (manifest.rootHash = other.rootHash →
        CollisionFreeOn (hashes.flatMap utf8Bytes)
          (otherHashes.flatMap utf8Bytes) →
        (∀ hash ∈ hashes ++ otherHashes, (utf8Bytes hash).length = 64) →
        hashes = otherHashes ∧
          ((∀ receipt ∈ receipts ++ others, Honest receipt) →
            (∀ receipt ∈ receipts, ∀ another ∈ others,
              CollisionFreeOn (payloadBytes receipt) (payloadBytes another)) →
            receipts.map payloadBytes = others.map payloadBytes)) := by
  obtain ⟨hashes, accepted⟩ := orchestrationManifest_ok_iff.mp accepted
  obtain ⟨otherHashes, otherAccepted⟩ :=
    orchestrationManifest_ok_iff.mp otherAccepted
  have stated := statedHashes_iff.mp accepted.hashed
  have otherStated := statedHashes_iff.mp otherAccepted.hashed
  have root : manifest.rootHash = hexdigest (hashes.flatMap utf8Bytes) := by
    rw [accepted.shape]
  have otherRoot :
      other.rootHash = hexdigest (otherHashes.flatMap utf8Bytes) := by
    rw [otherAccepted.shape]
  refine ⟨hashes, otherHashes, stated, otherStated, root, ?_⟩
  intro sameRoot free sizes
  rw [root, otherRoot] at sameRoot
  have same : hashes = otherHashes :=
    flatMap_utf8Bytes_inj (by decide : 0 < 64)
      (fun hash member => sizes hash (List.mem_append_left _ member))
      (fun hash member => sizes hash (List.mem_append_right _ member))
      (eq_of_hexdigest_eq free sameRoot)
  refine ⟨same, fun honest payloadsFree => ?_⟩
  apply payloadBytes_eq_of_hashes honest payloadsFree
  rw [stated.get_eq, otherStated.get_eq, same]

end

/-- The receipts of the two steps, each with its link beside the payload. -/
def linkedReceipts : List Dict :=
  [@stepReceipt recordedBlake2b (firstArgs, 100),
    ("prev_step_hash".toList, .str firstHash) ::
      @stepReceipt recordedBlake2b (secondArgs, 101)]

/-- The same receipts with other disclaimers. -/
def annotatedReceipts : List Dict :=
  linkedReceipts.map (("disclaimers".toList, .arr []) :: ·)

def linkedHashes : List Str :=
  [firstHash, @stepHash recordedBlake2b (secondArgs, 101)]

/-- A manifest of the two steps. -/
def linkedManifest (now : Int) : OrchestrationManifest :=
  { runId := ['r']
    stepCount := 2
    rootHash := @hexdigest recordedBlake2b (linkedHashes.flatMap utf8Bytes)
    issuedAt := now
    steps := [.int 0, .int 1]
    disclaimers := [manifestDisclaimer] }

theorem statedHashes_linked :
    StatedHashes linkedReceipts linkedHashes ∧
      StatedHashes annotatedReceipts linkedHashes := by
  unfold StatedHashes linkedHashes
  rw [← firstHash_recorded]
  exact ⟨rfl, rfl⟩

theorem linkedHashes_unique {receipts : List Dict} {hashes : List Str}
    (known : StatedHashes receipts linkedHashes)
    (stated : StatedHashes receipts hashes) : hashes = linkedHashes := by
  have injective : Function.Injective fun hash : Str => some (Json.str hash) :=
    fun left right same => Json.str.inj (Option.some.inj same)
  exact injective.list_map (stated.symm.trans known)

theorem linkedHashes_size : ∀ hash ∈ linkedHashes,
    (utf8Bytes hash).length = 64 := by
  decide +kernel

theorem linkedReceipts_accepted :
    @orchestrationManifest recordedBlake2b ['r'] linkedReceipts 102 =
        .ok (linkedManifest 102) ∧
      @orchestrationManifest recordedBlake2b ['r'] annotatedReceipts 103 =
        .ok (linkedManifest 103) := by
  have link : Json.str firstHash =
      .str (@stepHash recordedBlake2b (firstArgs, 100)) :=
    congrArg Json.str firstHash_recorded.symm
  obtain ⟨stated, otherStated⟩ := statedHashes_linked
  constructor
  · apply (@orchestrationManifest_ok_iff recordedBlake2b _ _ _ _).mpr
    exact ⟨linkedHashes, @Accepted.mk recordedBlake2b _ _ _ _ _
      (List.cons_ne_nil _ _) ⟨rfl, link, trivial⟩
      (statedHashes_iff.mpr stated) rfl rfl⟩
  · apply (@orchestrationManifest_ok_iff recordedBlake2b _ _ _ _).mpr
    exact ⟨linkedHashes, @Accepted.mk recordedBlake2b _ _ _ _ _
      (List.cons_ne_nil _ _) ⟨rfl, link, trivial⟩
      (statedHashes_iff.mpr otherStated) rfl rfl⟩

theorem linkedReceipts_honest :
    ∀ receipt ∈ linkedReceipts ++ annotatedReceipts,
      @Honest recordedBlake2b receipt := by
  intro receipt member
  simp only [linkedReceipts, annotatedReceipts, List.map_cons, List.map_nil,
    List.cons_append, List.nil_append, List.mem_cons, List.not_mem_nil,
    or_false] at member
  rcases member with rfl | rfl | rfl | rfl <;> rfl

/-- The two lists of receipts have one root, and so the same payloads. -/
theorem linkedReceipts_bound :
    linkedReceipts ≠ annotatedReceipts ∧
      (linkedManifest 102).rootHash = (linkedManifest 103).rootHash ∧
      linkedReceipts.map payloadBytes = annotatedReceipts.map payloadBytes := by
  obtain ⟨hashes, otherHashes, stated, otherStated, -, bound⟩ :=
    @manifest_binds_hashes recordedBlake2b _ _ _ _ _ _ _ _
      linkedReceipts_accepted.1 linkedReceipts_accepted.2
  obtain rfl := linkedHashes_unique statedHashes_linked.1 stated
  obtain rfl := linkedHashes_unique statedHashes_linked.2 otherStated
  refine ⟨by decide, rfl,
    (bound rfl (fun _ => rfl) ?_).2 linkedReceipts_honest ?_⟩
  · intro hash member
    exact linkedHashes_size hash (by simpa using member)
  · unfold CollisionFreeOn
    decide +kernel

/-- A receipt that states a hash of its own choice. -/
def forgedReceipt (run : Str) : Dict :=
  [("step_id".toList, .int 0), ("payload_hash".toList, .str ['x']),
    ("payload".toList, .obj [("run_id".toList, .str run)])]

/-- Receipts of other runs, whose payloads are not what they state the hash of,
become manifests with one root. -/
theorem forgedReceipt_accepted :
    (∃ manifest,
      @orchestrationManifest recordedBlake2b ['r'] [forgedReceipt ['s']] 0 =
          .ok manifest ∧
        @orchestrationManifest recordedBlake2b ['r'] [forgedReceipt ['t']] 0 =
          .ok manifest) ∧
    get (forgedReceipt ['s']) "payload" ≠ get (forgedReceipt ['t']) "payload" ∧
    ¬ @Honest recordedBlake2b (forgedReceipt ['s']) := by
  refine ⟨⟨_, rfl, rfl⟩, by decide, ?_⟩
  intro honest
  have stated : ['x'] = @payloadHash recordedBlake2b
      (get (forgedReceipt ['s']) "payload") := Json.str.inj honest
  have digest : (@payloadHash recordedBlake2b
      (get (forgedReceipt ['s']) "payload")).length = 64 :=
    @hexdigest_length recordedBlake2b _
  rw [← stated] at digest
  exact absurd digest (by decide)

end TrustLayer.Catalyst
