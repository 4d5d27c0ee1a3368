import TrustLayer.SerdeJson.Derive
import TrustLayer.ThemisOrchestrator.Outcomes

/-!
# The A2A endpoint

A body is read as an envelope, and its method is called.  Whatever the reader of
the envelope refuses is answered as a parse error.
-/

namespace TrustLayer.ThemisOrchestrator

open TrustLayer.AgentGuard (Json)
open TrustLayer.Baaar (BaaarReason Outcome)
open TrustLayer.Library hiding Json
open TrustLayer.SerdeJson (fieldsFrom ordered readOption)
open TrustLayer.Themis (BandRoom)
open TrustLayer.ThemisAgents (FloatTexts asF64)
open TrustLayer.ThemisEvidence (Signing)
open TrustLayer.TlChain (Blake3)
open TrustLayer.TlVerify (Crates)

/-- The parser of a body, third-party code, with the text of its error.  The
fields of an object are listed as they stand, doubles included, and what stands
in them is a `Value`. -/
class Bodies where
  tree : (body : List UInt8) → Option Json
  parseError : (body : List UInt8) → Str

/-! ## Replies -/

def jsonrpcVersion : Str := "2.0".toList

def errParse : Int := -32700
def errInvalidRequest : Int := -32600
def errMethodNotFound : Int := -32601
def errInvalidParams : Int := -32602
def errInternal : Int := -32603
def errUnauthorized : Int := -32001
def errTaskNotFound : Int := -32004

/-- What a handler answers instead of a result. -/
structure Refusal where
  status : Nat
  code : Int
  message : Str
  deriving DecidableEq

structure Reply where
  status : Nat
  id : Json
  body : Except Refusal Json

def Reply.code (reply : Reply) : Option Int :=
  match reply.body with
  | .ok _ => none
  | .error refusal => some refusal.code

/-- `jsonrpc_error`, without data. -/
def jsonrpcError (id : Json) (refusal : Refusal) : Reply :=
  { status := refusal.status, id, body := .error refusal }

/-- `jsonrpc_success`. -/
def jsonrpcSuccess (id result : Json) : Reply :=
  { status := 200, id, body := .ok result }

def respond (id : Json) : Except Refusal Json → Reply
  | .ok result => jsonrpcSuccess id result
  | .error refusal => jsonrpcError id refusal

def invalidRequest (message : String) : Refusal :=
  { status := 400, code := errInvalidRequest, message := message.toList }

def invalidParams (message : String) : Refusal :=
  { status := 400, code := errInvalidParams, message := message.toList }

/-! ## The bearer -/

/-- The header is absent, or is read where it is visible ASCII. -/
def mockEd25519BearerCheck (authorization : Option Str) : Option Str :=
  let auth := authorization.getD []
  if auth = [] then some "missing Authorization header".toList
  else
    match stripPrefix "Ed25519Bearer ".toList auth with
    | none => some "expected scheme 'Ed25519Bearer'".toList
    | some sig =>
        if sig = [] then some "empty signature".toList
        else if byteLen sig < 16 then
          some "signature too short (need >=16 hex chars)".toList
        else if sig.all isAsciiHexdigit = false then
          some "signature contains non-hex chars".toList
        else none

/-! ## The envelope -/

structure JsonRpcRequest where
  jsonrpc : Option Str
  id : Option Json
  method : Option Str
  params : Json

namespace JsonRpcRequest

def names : List Str :=
  ["jsonrpc".toList, "id".toList, "method".toList, "params".toList]

/-- An array may lack the last field, which has a default. -/
def fields : Json → Option (List (Option Json)) :=
  fieldsFrom 3 names

def read (json : Json) : Option JsonRpcRequest := do
  match ← fields json with
  | [jsonrpc, id, method, params] =>
      return {
        jsonrpc := ← readOption Json.asStr jsonrpc
        id := ← readOption some id
        method := ← readOption Json.asStr method
        params := params.getD .null }
  | _ => none

end JsonRpcRequest

/-! ## The stores -/

abbrev Uuid := Vector UInt8 16

structure A2aTaskRecord where
  runId : Uuid
  tenantId : Str
  invoiceId : Str
  packetId : Uuid
  deriving DecidableEq

/-- The orchestrator behind its lock, and the two maps of the process. -/
structure A2aState (σ : Type) where
  orchestrator : Orchestrator σ
  tasks : Uuid → Option A2aTaskRecord
  peerVerdicts : Uuid → List PeerVerdict

/-- What a request finds around it.  The surroundings are those of a run, and
the card is what the text of the agent card is read as. -/
structure A2aHost where
  surroundings : Invocation
  runId : Uuid
  now : Int
  parseUuid : Str → Option Uuid
  debugError : OrchestratorError → Str
  agentCard : Json

/-! ## The methods -/

def asObject : Json → Option (List (Str × Json))
  | .object fields => some fields
  | _ => none

def required {α : Type} (found : Option α) (message : String) :
    Except Refusal α :=
  match found with
  | some value => .ok value
  | none => .error (invalidParams message)

/-- A string that is not empty. -/
def requiredText (fields : List (Str × Json)) (key message : String) :
    Except Refusal Str := do
  let text ← required ((fields.lookup key.toList).bind Json.asStr) message
  if text = [] then .error (invalidParams message) else .ok text

def taskNotFound (task : Uuid) : Refusal :=
  { status := 404, code := errTaskNotFound
    message := "task ".toList ++ hyphenated task ++ " not found".toList }

def outcomeDebug : Outcome → Str
  | .approve => "Approve".toList
  | .halt .riskScoreExceeded => "Halt(RiskScoreExceeded)".toList
  | .halt .secretLeakDetected => "Halt(SecretLeakDetected)".toList
  | .halt .coherenceTooLow => "Halt(CoherenceTooLow)".toList
  | .halt .maxDebateRoundsReached => "Halt(MaxDebateRoundsReached)".toList
  | .halt .explicitHaltRequested => "Halt(ExplicitHaltRequested)".toList

/-- The task of a record, with one more field in its data. -/
def taskValue (record : A2aTaskRecord) (extra : Str × Json) : Json :=
  let data := Json.object [
    ("tenant_id".toList, .string record.tenantId),
    ("invoice_id".toList, .string record.invoiceId),
    ("run_id".toList, .string (hyphenated record.runId)),
    ("packet_id".toList, .string (hyphenated record.packetId)), extra]
  let part := Json.object [
    ("kind".toList, .string "data".toList), ("data".toList, data)]
  let message := Json.object [
    ("role".toList, .string "agent".toList),
    ("parts".toList, .array [part])]
  let status := Json.object [
    ("state".toList, .string "completed".toList),
    ("message".toList, message)]
  ordered (.object [("task".toList, .object [
    ("id".toList, .string (hyphenated record.packetId)),
    ("context_id".toList, .string (hyphenated record.runId)),
    ("status".toList, status)])])

/-- What `message/send` reads of its parameters. -/
def messageParams [Crates] (params : Json) :
    Except Refusal (Str × Str × List UInt8) := do
  let p ← required (asObject params) "params must be an object"
  let tenantId ← requiredText p "tenant_id"
    "params.tenant_id (string) is required"
  let invoiceId ← requiredText p "invoice_id"
    "params.invoice_id (string) is required"
  let rawB64 := ((p.lookup "raw_b64".toList).bind Json.asStr).getD []
  let raw := (Crates.base64Decode rawB64).getD []
  return (tenantId, invoiceId, raw)

/-- What `peer_verdict/attach` reads in front of the verdict. -/
def attachedPacket (host : A2aHost) (fields : List (Str × Json)) :
    Except Refusal Uuid := do
  let packetId ← requiredText fields "packet_id"
    "params.packet_id (string) is required"
  required (host.parseUuid packetId) "params.packet_id must be a UUID"

def peerVerdict [FloatTexts] (host : A2aHost) (fields : List (Str × Json)) :
    Except Refusal PeerVerdict := do
  let verdict ← required ((fields.lookup "verdict".toList).bind asObject)
    "params.verdict (object) is required"
  let agent ← requiredText verdict "agent" "verdict.agent (string) is required"
  let riskScore ← required ((verdict.lookup "risk_score".toList).bind asF64)
    "verdict.risk_score (number) is required"
  let findings := ((verdict.lookup "findings".toList).bind Json.asArray).getD []
  return {
    agent, riskScore
    findings := findings.filterMap Json.asStr
    recommendation :=
      ((verdict.lookup "recommendation".toList).bind Json.asStr).getD
        "approve".toList
    timestampMs :=
      ((verdict.lookup "timestamp_ms".toList).bind Json.asI64).getD host.now }

/-- The card, with one more field. -/
def handleExtendedCard (host : A2aHost) : Except Refusal Json :=
  let extended := "extended".toList
  let card :=
    match host.agentCard with
    | .object fields =>
        .object ((extended, .bool true) ::
          fields.filter fun field => field.1 ≠ extended)
    | other => other
  .ok (ordered (.object [("card".toList, card)]))

section

variable [FloatTexts] [Crates]
variable {σ : Type}

omit [Crates] in
/-- A stub of the search for a task. -/
def handleTasksGet (host : A2aHost) (state : A2aState σ) (params : Json) :
    Except Refusal Json := do
  let p ← required (asObject params) "params must be an object with `id`"
  let taskIdStr ← required ((p.lookup "id".toList).bind Json.asStr)
    "params.id (string) is required"
  let taskId ← required (host.parseUuid taskIdStr) "params.id must be a UUID"
  match state.tasks taskId with
  | some record =>
      return taskValue record ("peer_verdicts".toList,
        .array ((state.peerVerdicts taskId).map verdictValue))
  | none => .error (taskNotFound taskId)

omit [Crates] in
/-- The verdict is looked at where the task is known. -/
def handlePeerVerdictAttach (host : A2aHost) (state : A2aState σ)
    (params : Json) : Except Refusal Json × A2aState σ :=
  let read := do
    let p ← required (asObject params) "params must be an object"
    let packetId ← attachedPacket host p
    if state.tasks packetId = none then .error (taskNotFound packetId)
    else
      let verdict ← peerVerdict host p
      return (packetId, verdict)
  match read with
  | .error refusal => (.error refusal, state)
  | .ok (packetId, verdict) =>
      let verdicts := state.peerVerdicts packetId ++ [verdict]
      (.ok (ordered (.object [
        ("attached".toList, .bool true),
        ("packet_id".toList, .string (hyphenated packetId)),
        ("agent".toList, .string verdict.agent),
        ("count".toList, SerdeJson.integer verdicts.length)])),
        { state with
          peerVerdicts := Function.update state.peerVerdicts packetId verdicts })

variable [Blake3] [Signing] [BandRoom σ]

/-- The events that are published are left out. -/
def handleMessageSend (host : A2aHost) (state : A2aState σ) (params : Json) :
    Except Refusal Json × A2aState σ :=
  match messageParams params with
  | .error refusal => (.error refusal, state)
  | .ok (tenantId, invoiceId, raw) =>
      match state.orchestrator.processInvoice
          { host.surroundings with tenantId, invoiceId, raw } with
      | (.error error, orchestrator) =>
          (.error {
            status := 500, code := errInternal
            message := "process_invoice failed: ".toList ++
              host.debugError error },
            { state with orchestrator })
      | (.ok signed, orchestrator) =>
          let taskId := signed.packet.packetId
          let record : A2aTaskRecord :=
            { runId := host.runId, tenantId, invoiceId, packetId := taskId }
          (.ok (taskValue record ("verdict".toList,
            .string (outcomeDebug signed.packet.bbaaarOutcome))),
            { state with
              orchestrator
              tasks := Function.update state.tasks taskId (some record) })

/-! ## The endpoint -/

def knownMethods : List Str :=
  ["message/send".toList, "tasks/get".toList, "peer_verdict/attach".toList,
    "agent/authenticatedExtendedCard".toList]

def dispatch (host : A2aHost) (state : A2aState σ) (id : Json) (method : Str)
    (params : Json) : Reply × A2aState σ :=
  if method = "message/send".toList then
    let (result, state) := handleMessageSend host state params
    (respond id result, state)
  else if method = "tasks/get".toList then
    (respond id (handleTasksGet host state params), state)
  else if method = "peer_verdict/attach".toList then
    let (result, state) := handlePeerVerdictAttach host state params
    (respond id result, state)
  else if method = "agent/authenticatedExtendedCard".toList then
    (respond id (handleExtendedCard host), state)
  else
    (jsonrpcError id {
      status := 404, code := errMethodNotFound
      message := "method not found: ".toList ++ method }, state)

/-- What is done with an envelope. -/
def callMethod (host : A2aHost) (state : A2aState σ) (request : JsonRpcRequest) :
    Reply × A2aState σ :=
  let id := request.id.getD .null
  if request.jsonrpc ≠ some jsonrpcVersion then
    (jsonrpcError id (invalidRequest "jsonrpc field must be \"2.0\""), state)
  else
    match request.method with
    | some (char :: rest) => dispatch host state id (char :: rest) request.params
    | _ => (jsonrpcError id (invalidRequest "method is required"), state)

def postA2a [Bodies] (host : A2aHost) (state : A2aState σ)
    (authorization : Option Str) (body : List UInt8) : Reply × A2aState σ :=
  match mockEd25519BearerCheck authorization with
  | some reason =>
      (jsonrpcError .null {
        status := 401, code := errUnauthorized
        message := "unauthorized: ".toList ++ reason }, state)
  | none =>
      match (Bodies.tree body).bind JsonRpcRequest.read with
      | none =>
          (jsonrpcError .null {
            status := 400, code := errParse
            message := "parse error: ".toList ++ Bodies.parseError body },
            state)
      | some request => callMethod host state request

end

/-! ## The codes of the handlers -/

/-- The codes that are left to the handlers. -/
def HandlerCode (code : Int) : Prop :=
  code = errInvalidParams ∨ code = errInternal ∨ code = errTaskNotFound

/-- Every refusal has one of the codes. -/
def Handles {α : Type} (codes : Int → Prop) (result : Except Refusal α) : Prop :=
  ∀ refusal, result = .error refusal → codes refusal.code

section

variable {α β : Type} {host : A2aHost} {codes : Int → Prop}

theorem handles_ok (value : α) : Handles codes (.ok value) := nofun

theorem Handles.bind {result : Except Refusal α} {next : α → Except Refusal β}
    (first : Handles codes result) (later : ∀ value, Handles codes (next value)) :
    Handles codes (result >>= next) := by
  intro refusal failed
  cases result with
  | error other =>
      obtain rfl := Except.error.inj failed
      exact first other rfl
  | ok value => exact later value refusal failed

theorem handles_taskNotFound (task : Uuid) :
    Handles HandlerCode (.error (taskNotFound task) : Except Refusal α) := by
  rintro refusal same
  obtain rfl := Except.error.inj same
  exact .inr (.inr rfl)

section

variable (params : codes errInvalidParams)

include params

theorem handles_invalidParams (message : String) :
    Handles codes (.error (invalidParams message) : Except Refusal α) := by
  rintro refusal same
  obtain rfl := Except.error.inj same
  exact params

theorem handles_required (found : Option α) (message : String) :
    Handles codes (required found message) := by
  cases found with
  | none => exact handles_invalidParams params message
  | some value => exact handles_ok value

theorem handles_requiredText (fields : List (Str × Json))
    (key message : String) :
    Handles codes (requiredText fields key message) := by
  refine (handles_required params _ _).bind fun text => ?_
  split_ifs
  · exact handles_invalidParams params message
  · exact handles_ok text

theorem handles_messageParams [Crates] (json : Json) :
    Handles codes (messageParams json) := by
  refine (handles_required params _ _).bind fun p => ?_
  refine (handles_requiredText params _ _ _).bind fun tenantId => ?_
  exact (handles_requiredText params _ _ _).bind fun invoiceId => handles_ok _

theorem handles_attachedPacket (fields : List (Str × Json)) :
    Handles codes (attachedPacket host fields) :=
  (handles_requiredText params _ _ _).bind fun _ =>
    handles_required params _ _

theorem handles_peerVerdict [FloatTexts] (fields : List (Str × Json)) :
    Handles codes (peerVerdict host fields) := by
  refine (handles_required params _ _).bind fun verdict => ?_
  refine (handles_requiredText params _ _ _).bind fun agent => ?_
  exact (handles_required params _ _).bind fun riskScore => handles_ok _

end

theorem handlerCode_params : HandlerCode errInvalidParams :=
  .inl rfl

variable [FloatTexts] {σ : Type} {state : A2aState σ}

theorem handles_tasksGet (params : Json) :
    Handles HandlerCode (handleTasksGet host state params) := by
  refine (handles_required handlerCode_params _ _).bind fun p => ?_
  refine (handles_required handlerCode_params _ _).bind fun taskIdStr => ?_
  refine (handles_required handlerCode_params _ _).bind fun taskId => ?_
  split
  · exact handles_ok _
  · exact handles_taskNotFound taskId

theorem handles_peerVerdictAttach (params : Json) :
    Handles HandlerCode (handlePeerVerdictAttach host state params).1 := by
  have read : Handles HandlerCode (do
      let p ← required (asObject params) "params must be an object"
      let packetId ← attachedPacket host p
      if state.tasks packetId = none then .error (taskNotFound packetId)
      else
        let verdict ← peerVerdict host p
        return (packetId, verdict)) := by
    refine (handles_required handlerCode_params _ _).bind fun p => ?_
    refine (handles_attachedPacket handlerCode_params p).bind fun packetId => ?_
    split_ifs
    · exact handles_taskNotFound packetId
    · exact (handles_peerVerdict handlerCode_params p).bind fun verdict => handles_ok _
  rw [handlePeerVerdictAttach]
  split
  · rename_i refusal failed
    intro other same
    obtain rfl := Except.error.inj same
    exact read refusal failed
  · exact handles_ok _

theorem handles_messageSend [Crates] [Blake3] [Signing] [BandRoom σ]
    (params : Json) : Handles HandlerCode (handleMessageSend host state params).1 := by
  rw [handleMessageSend]
  split
  · rename_i refusal failed
    intro other same
    obtain rfl := Except.error.inj same
    exact handles_messageParams handlerCode_params params refusal failed
  · split
    · intro refusal same
      obtain rfl := Except.error.inj same
      exact .inr (.inl rfl)
    · exact handles_ok _

end

/-! ## What a call answers -/

section

variable [FloatTexts] [Crates] [Blake3] [Signing]
variable {σ : Type} [BandRoom σ] {host : A2aHost} {state : A2aState σ}

omit [FloatTexts] [Crates] [Blake3] [Signing] in
theorem respond_id (id : Json) (result : Except Refusal Json) :
    (respond id result).id = id := by
  cases result <;> rfl

omit [FloatTexts] [Crates] [Blake3] [Signing] in
theorem respond_code {id : Json} {result : Except Refusal Json} {code : Int}
    (handles : Handles HandlerCode result) (coded : (respond id result).code = some code) :
    HandlerCode code := by
  cases result with
  | ok value => cases coded
  | error refusal =>
      obtain rfl := Option.some.inj coded
      exact handles refusal rfl

/-- How a call of a method ends. -/
structure Called (method : Str) (id : Json) (reply : Reply) : Prop where
  echoed : reply.id = id
  known : method ∈ knownMethods →
    ∀ code, reply.code = some code → HandlerCode code
  unknown : method ∉ knownMethods → reply.code = some errMethodNotFound

omit [FloatTexts] [Crates] [Blake3] [Signing] in
theorem called_respond {method : Str} {id : Json}
    {result : Except Refusal Json} (known : method ∈ knownMethods)
    (handles : Handles HandlerCode result) : Called method id (respond id result) where
  echoed := respond_id id result
  known _ _ coded := respond_code handles coded
  unknown absent := absurd known absent

theorem dispatch_called (id : Json) (method : Str) (params : Json) :
    Called method id (dispatch host state id method params).1 := by
  rw [dispatch]
  split_ifs with send get attach card
  · exact called_respond (by simp [knownMethods, send])
      (handles_messageSend params)
  · exact called_respond (by simp [knownMethods, get]) (handles_tasksGet params)
  · exact called_respond (by simp [knownMethods, attach])
      (handles_peerVerdictAttach params)
  · exact called_respond (by simp [knownMethods, card]) (handles_ok _)
  · refine ⟨rfl, fun known => ?_, fun _ => rfl⟩
    have unknown : method ∉ knownMethods := by
      simp only [knownMethods, List.mem_cons, List.not_mem_nil, send, get,
        attach, card, or_self, not_false_eq_true]
    exact absurd known unknown

/-- The request names the version, and a method. -/
structure Complete (request : JsonRpcRequest) (method : Str) : Prop where
  version : request.jsonrpc = some jsonrpcVersion
  named : request.method = some method
  nonempty : method ≠ []

theorem callMethod_of_complete {request : JsonRpcRequest} {method : Str}
    (complete : Complete request method) :
    Called method (request.id.getD .null) (callMethod host state request).1 := by
  obtain ⟨version, named, nonempty⟩ := complete
  obtain ⟨char, rest, rfl⟩ := List.exists_cons_of_ne_nil nonempty
  rw [callMethod, if_neg (not_not.mpr version), named]
  exact dispatch_called _ _ _

theorem callMethod_of_incomplete {request : JsonRpcRequest}
    (incomplete : ∀ method, ¬ Complete request method) :
    (callMethod host state request).1.code = some errInvalidRequest ∧
      (callMethod host state request).1.id = request.id.getD .null := by
  rw [callMethod]
  split_ifs with version
  · exact ⟨rfl, rfl⟩
  · split
    · rename_i char rest named
      exact absurd ⟨not_not.mp version, named, List.cons_ne_nil _ _⟩
        (incomplete (char :: rest))
    · exact ⟨rfl, rfl⟩

theorem callMethod_id (request : JsonRpcRequest) :
    (callMethod host state request).1.id = request.id.getD .null := by
  by_cases complete : ∃ method, Complete request method
  · obtain ⟨method, complete⟩ := complete
    exact (callMethod_of_complete complete).echoed
  · exact (callMethod_of_incomplete (not_exists.mp complete)).2

/-- The code of a call tells what the request lacks. -/
theorem callMethod_code (request : JsonRpcRequest) :
    (callMethod host state request).1.code ≠ some errParse ∧
    ((callMethod host state request).1.code = some errInvalidRequest ↔
      ∀ method, ¬ Complete request method) ∧
    ((callMethod host state request).1.code = some errMethodNotFound ↔
      ∃ method, Complete request method ∧ method ∉ knownMethods) := by
  by_cases complete : ∃ method, Complete request method
  · obtain ⟨method, complete⟩ := complete
    have called := @callMethod_of_complete _ _ _ _ σ _ host state request method
      complete
    by_cases known : method ∈ knownMethods
    · have others : ∀ code, code ∈ [errParse, errInvalidRequest,
          errMethodNotFound] →
          (callMethod host state request).1.code ≠ some code := by
        intro code among coded
        have handler := called.known known code coded
        revert among
        rcases handler with rfl | rfl | rfl <;> decide
      refine ⟨others _ (by decide), iff_of_false (others _ (by decide)) ?_,
        iff_of_false (others _ (by decide)) ?_⟩
      · exact fun incomplete => incomplete method complete
      · rintro ⟨other, otherComplete, unknown⟩
        rw [Option.some.inj (complete.named.symm.trans otherComplete.named)]
          at known
        exact unknown known
    · rw [called.unknown known]
      refine ⟨by decide, iff_of_false (by decide) ?_, iff_of_true rfl ?_⟩
      · exact fun incomplete => incomplete method complete
      · exact ⟨method, complete, known⟩
  · have incomplete := not_exists.mp complete
    rw [(callMethod_of_incomplete incomplete).1]
    refine ⟨by decide, iff_of_true rfl incomplete, iff_of_false (by decide) ?_⟩
    rintro ⟨method, found, -⟩
    exact incomplete method found

end

/-! ## What is read as an envelope -/

/-- A field is absent, null or a text. -/
def TextOrNull : Option Json → Prop
  | none | some .null | some (.string _) => True
  | _ => False

theorem readOption_asStr_eq_some {json? : Option Json} {text? : Option Str}
    (read : readOption Json.asStr json? = some text?) (text : Str) :
    text? = some text ↔ json? = some (.string text) := by
  match json? with
  | none =>
      obtain rfl := Option.some.inj read
      exact ⟨nofun, nofun⟩
  | some .null =>
      obtain rfl := Option.some.inj read
      exact ⟨nofun, nofun⟩
  | some (.string other) =>
      obtain rfl := Option.some.inj read
      simp
  | some (.bool _) => cases read
  | some (.number _) => cases read
  | some (.array _) => cases read
  | some (.object _) => cases read

theorem textOrNull_iff {json? : Option Json} :
    TextOrNull json? ↔ ∃ text?, readOption Json.asStr json? = some text? := by
  match json? with
  | none => exact iff_of_true trivial ⟨none, rfl⟩
  | some .null => exact iff_of_true trivial ⟨none, rfl⟩
  | some (.string text) => exact iff_of_true trivial ⟨some text, rfl⟩
  | some (.bool _) => exact iff_of_false id nofun
  | some (.number _) => exact iff_of_false id nofun
  | some (.array _) => exact iff_of_false id nofun
  | some (.object _) => exact iff_of_false id nofun

theorem readOption_some (json? : Option Json) :
    ∃ id?, readOption some json? = some id? ∧
      id?.getD .null = json?.getD .null := by
  match json? with
  | none => exact ⟨none, rfl, rfl⟩
  | some .null => exact ⟨none, rfl, rfl⟩
  | some (.string text) => exact ⟨some (.string text), rfl, rfl⟩
  | some (.bool value) => exact ⟨some (.bool value), rfl, rfl⟩
  | some (.number literal) => exact ⟨some (.number literal), rfl, rfl⟩
  | some (.array items) => exact ⟨some (.array items), rfl, rfl⟩
  | some (.object fields) => exact ⟨some (.object fields), rfl, rfl⟩

namespace JsonRpcRequest

variable {json : Json} {jsonrpc id method params : Option Json}

/-- The fields of an envelope, as they are read. -/
structure ReadFrom (jsonrpc id method : Option Json)
    (request : JsonRpcRequest) : Prop where
  version : ∀ text, request.jsonrpc = some text ↔ jsonrpc = some (.string text)
  id : request.id.getD .null = id.getD .null
  named : ∀ text, request.method = some text ↔ method = some (.string text)

theorem read_eq_none
    (listed : fields json = some [jsonrpc, id, method, params])
    (untyped : ¬ (TextOrNull jsonrpc ∧ TextOrNull method)) :
    read json = none := by
  obtain ⟨id?, readId, -⟩ := readOption_some id
  rw [textOrNull_iff, textOrNull_iff] at untyped
  rw [read, listed]
  cases readVersion : readOption Json.asStr jsonrpc with
  | none => simp [readVersion]
  | some version =>
      cases readMethod : readOption Json.asStr method with
      | none => simp [readVersion, readId, readMethod]
      | some method => exact absurd ⟨⟨_, readVersion⟩, ⟨_, readMethod⟩⟩ untyped

theorem read_eq_some
    (listed : fields json = some [jsonrpc, id, method, params])
    (versionTyped : TextOrNull jsonrpc) (methodTyped : TextOrNull method) :
    ∃ request, read json = some request ∧
      ReadFrom jsonrpc id method request := by
  obtain ⟨version, readVersion⟩ := textOrNull_iff.mp versionTyped
  obtain ⟨id?, readId, sameId⟩ := readOption_some id
  obtain ⟨name, readMethod⟩ := textOrNull_iff.mp methodTyped
  refine ⟨{ jsonrpc := version, id := id?, method := name
            params := params.getD .null }, ?_,
    readOption_asStr_eq_some readVersion, sameId,
    readOption_asStr_eq_some readMethod⟩
  rw [read, listed]
  simp [readVersion, readId, readMethod]

end JsonRpcRequest

/-! ## The classes of the bodies -/

/-- An object with the version and a method. -/
inductive IsEnvelope : Json → Str → Prop where
  | object {fields : List (Str × Json)} {method : Str}
    (version :
      fields.lookup "jsonrpc".toList = some (.string jsonrpcVersion))
    (named : fields.lookup "method".toList = some (.string method))
    (nonempty : method ≠ []) : IsEnvelope (.object fields) method

/-- An object has each known field once at most, and in two of them a text, if
anything.  An array stands for the fields, and is not that of an envelope. -/
def Plain : Json → Prop
  | .object fields =>
      ((fields.map Prod.fst).filter JsonRpcRequest.names.contains).Nodup ∧
        TextOrNull (fields.lookup "jsonrpc".toList) ∧
        TextOrNull (fields.lookup "method".toList)
  | .array (jsonrpc :: _ :: method :: params) =>
      params.length ≤ 1 ∧ TextOrNull (some jsonrpc) ∧
        TextOrNull (some method) ∧
        ¬ (jsonrpc = .string jsonrpcVersion ∧
          ∃ name, method = .string name ∧ name ≠ [])
  | _ => False

section

variable [Bodies]

/-- The reply has the code of the class, and the id of an object. -/
structure Classified (body : List UInt8) (reply : Reply) : Prop where
  parse_iff : reply.code = some errParse ↔ Bodies.tree body = none
  invalid_iff : reply.code = some errInvalidRequest ↔
    ∃ json, Bodies.tree body = some json ∧ ∀ method, ¬ IsEnvelope json method
  unknown_iff : reply.code = some errMethodNotFound ↔
    ∃ json method, Bodies.tree body = some json ∧ IsEnvelope json method ∧
      method ∉ knownMethods
  echo : ∀ fields id, Bodies.tree body = some (.object fields) →
    fields.lookup "id".toList = some id → reply.id = id

/-- A body that is JSON is plain. -/
def PlainBody (body : List UInt8) : Prop :=
  ∀ json, Bodies.tree body = some json → Plain json

variable [FloatTexts] [Crates] [Blake3] [Signing]
variable {σ : Type} [BandRoom σ] {host : A2aHost} {state : A2aState σ}
variable {authorization : Option Str} {body : List UInt8} {json : Json}

theorem postA2a_of_unread
    (authorized : mockEd25519BearerCheck authorization = none)
    (unread : (Bodies.tree body).bind JsonRpcRequest.read = none) :
    (postA2a host state authorization body).1.code = some errParse := by
  rw [postA2a, authorized]
  simp only [unread]
  rfl

theorem postA2a_of_read {request : JsonRpcRequest}
    (authorized : mockEd25519BearerCheck authorization = none)
    (parsed : Bodies.tree body = some json)
    (read : JsonRpcRequest.read json = some request) :
    postA2a host state authorization body = callMethod host state request := by
  rw [postA2a, authorized, parsed, Option.bind_some, read]

/-- JSON that is not read is taken for a parse error. -/
theorem not_classified_of_unread
    (authorized : mockEd25519BearerCheck authorization = none)
    (parsed : Bodies.tree body = some json)
    (unread : JsonRpcRequest.read json = none) :
    ¬ Classified body (postA2a host state authorization body).1 := by
  intro classified
  have code := @postA2a_of_unread _ _ _ _ _ σ _ host state authorization body
    authorized (by rw [parsed, Option.bind_some, unread])
  rw [classified.parse_iff.mp code] at parsed
  cases parsed

theorem classified_of_not_json
    (authorized : mockEd25519BearerCheck authorization = none)
    (notJson : Bodies.tree body = none) :
    Classified body (postA2a host state authorization body).1 := by
  have code := @postA2a_of_unread _ _ _ _ _ σ _ host state authorization body
    authorized (by rw [notJson, Option.bind_none])
  refine ⟨iff_of_true code notJson, ?_, ?_, ?_⟩
  · rw [code]
    refine iff_of_false (by decide) ?_
    rintro ⟨json, parsed, -⟩
    rw [notJson] at parsed
    cases parsed
  · rw [code]
    refine iff_of_false (by decide) ?_
    rintro ⟨json, method, parsed, -⟩
    rw [notJson] at parsed
    cases parsed
  · intro fields id parsed
    rw [notJson] at parsed
    cases parsed

theorem classified_of_read {request : JsonRpcRequest}
    (authorized : mockEd25519BearerCheck authorization = none)
    (parsed : Bodies.tree body = some json)
    (read : JsonRpcRequest.read json = some request)
    (envelopes : ∀ method, IsEnvelope json method ↔ Complete request method)
    (echoes : ∀ fields id, json = .object fields →
      fields.lookup "id".toList = some id → request.id.getD .null = id) :
    Classified body (postA2a host state authorization body).1 := by
  obtain ⟨notParse, invalid, unknown⟩ :=
    @callMethod_code _ _ _ _ σ _ host state request
  rw [postA2a_of_read authorized parsed read]
  refine ⟨iff_of_false notParse (by simp [parsed]), ?_, ?_, ?_⟩
  · rw [invalid]
    constructor
    · intro incomplete
      exact ⟨json, parsed, fun method envelope =>
        incomplete method ((envelopes method).mp envelope)⟩
    · rintro ⟨other, otherParsed, none_⟩ method complete
      obtain rfl := Option.some.inj (parsed.symm.trans otherParsed)
      exact none_ method ((envelopes method).mpr complete)
  · rw [unknown]
    constructor
    · rintro ⟨method, complete, absent⟩
      exact ⟨json, method, parsed, (envelopes method).mpr complete, absent⟩
    · rintro ⟨other, method, otherParsed, envelope, absent⟩
      obtain rfl := Option.some.inj (parsed.symm.trans otherParsed)
      exact ⟨method, (envelopes method).mp envelope, absent⟩
  · intro fields id otherParsed found
    rw [callMethod_id]
    exact echoes fields id
      (Option.some.inj (parsed.symm.trans otherParsed)) found

/-- What is called is an envelope. -/
theorem envelope_of_classified {request : JsonRpcRequest} {method : Str}
    (authorized : mockEd25519BearerCheck authorization = none)
    (parsed : Bodies.tree body = some json)
    (read : JsonRpcRequest.read json = some request)
    (classified : Classified body (postA2a host state authorization body).1)
    (complete : Complete request method) : ∃ other, IsEnvelope json other := by
  by_contra none_
  have code := classified.invalid_iff.mpr ⟨json, parsed, not_exists.mp none_⟩
  rw [postA2a_of_read authorized parsed read] at code
  obtain ⟨-, invalid, -⟩ := @callMethod_code _ _ _ _ σ _ host state request
  exact invalid.mp code method complete

omit [Bodies] [FloatTexts] [Crates] [Blake3] [Signing] in
theorem complete_iff {jsonrpc id method? : Option Json}
    {request : JsonRpcRequest} {method : Str}
    (from_ : JsonRpcRequest.ReadFrom jsonrpc id method? request) :
    Complete request method ↔ jsonrpc = some (.string jsonrpcVersion) ∧
      method? = some (.string method) ∧ method ≠ [] := by
  rw [← from_.version, ← from_.named]
  exact ⟨fun ⟨version, named, nonempty⟩ => ⟨version, named, nonempty⟩,
    fun ⟨version, named, nonempty⟩ => ⟨version, named, nonempty⟩⟩

theorem classified_object_iff {fields : List (Str × Json)}
    (authorized : mockEd25519BearerCheck authorization = none)
    (parsed : Bodies.tree body = some (.object fields)) :
    Classified body (postA2a host state authorization body).1 ↔
      Plain (.object fields) := by
  by_cases single :
      ((fields.map Prod.fst).filter JsonRpcRequest.names.contains).Nodup
  · have listed : JsonRpcRequest.fields (.object fields) =
        some [fields.lookup "jsonrpc".toList, fields.lookup "id".toList,
          fields.lookup "method".toList, fields.lookup "params".toList] :=
      if_pos single
    by_cases typed : TextOrNull (fields.lookup "jsonrpc".toList) ∧
        TextOrNull (fields.lookup "method".toList)
    · refine iff_of_true ?_ ⟨single, typed⟩
      obtain ⟨request, read, from_⟩ :=
        JsonRpcRequest.read_eq_some listed typed.1 typed.2
      refine classified_of_read authorized parsed read (fun method => ?_) ?_
      · rw [complete_iff from_]
        constructor
        · rintro ⟨version, named, nonempty⟩
          exact ⟨version, named, nonempty⟩
        · rintro ⟨version, named, nonempty⟩
          exact .object version named nonempty
      · intro other id same found
        obtain rfl := Json.object.inj same
        rw [from_.id, found, Option.getD_some]
    · refine iff_of_false ?_ fun plain => typed plain.2
      exact not_classified_of_unread authorized parsed
        (JsonRpcRequest.read_eq_none listed typed)
  · refine iff_of_false ?_ fun plain => single plain.1
    apply not_classified_of_unread authorized parsed
    have unlisted : JsonRpcRequest.fields (.object fields) = none :=
      if_neg single
    rw [JsonRpcRequest.read, unlisted]
    rfl

omit [Bodies] [FloatTexts] [Crates] [Blake3] [Signing] in
theorem not_isEnvelope_array (items : List Json) (method : Str) :
    ¬ IsEnvelope (.array items) method := nofun

theorem classified_listed_iff {items : List Json}
    {jsonrpc id method : Json} {params : Option Json}
    (authorized : mockEd25519BearerCheck authorization = none)
    (parsed : Bodies.tree body = some (.array items))
    (listed : JsonRpcRequest.fields (.array items) =
      some [some jsonrpc, some id, some method, params]) :
    Classified body (postA2a host state authorization body).1 ↔
      TextOrNull (some jsonrpc) ∧ TextOrNull (some method) ∧
        ¬ (jsonrpc = .string jsonrpcVersion ∧
          ∃ name, method = .string name ∧ name ≠ []) := by
  by_cases typed : TextOrNull (some jsonrpc) ∧ TextOrNull (some method)
  · obtain ⟨request, read, from_⟩ :=
      JsonRpcRequest.read_eq_some listed typed.1 typed.2
    have complete : ∀ name, Complete request name ↔
        jsonrpc = .string jsonrpcVersion ∧ method = .string name ∧
          name ≠ [] := by
      intro name
      rw [complete_iff from_, Option.some.injEq, Option.some.injEq]
    constructor
    · intro classified
      refine ⟨typed.1, typed.2, ?_⟩
      rintro ⟨version, name, named, nonempty⟩
      obtain ⟨other, envelope⟩ := envelope_of_classified authorized parsed read
        classified ((complete name).mpr ⟨version, named, nonempty⟩)
      exact not_isEnvelope_array items other envelope
    · rintro ⟨-, -, incomplete⟩
      refine classified_of_read authorized parsed read (fun name => ?_) nofun
      refine iff_of_false (not_isEnvelope_array items name) fun found => ?_
      obtain ⟨version, named, nonempty⟩ := (complete name).mp found
      exact incomplete ⟨version, name, named, nonempty⟩
  · refine iff_of_false ?_ fun plain => typed ⟨plain.1, plain.2.1⟩
    exact not_classified_of_unread authorized parsed
      (JsonRpcRequest.read_eq_none listed typed)

theorem classified_array_iff {items : List Json}
    (authorized : mockEd25519BearerCheck authorization = none)
    (parsed : Bodies.tree body = some (.array items)) :
    Classified body (postA2a host state authorization body).1 ↔
      Plain (.array items) := by
  match items with
  | [jsonrpc, id, method] =>
      rw [classified_listed_iff authorized parsed rfl]
      exact ⟨fun rest => ⟨Nat.zero_le 1, rest⟩, And.right⟩
  | [jsonrpc, id, method, params] =>
      rw [classified_listed_iff authorized parsed rfl]
      exact ⟨fun rest => ⟨Nat.le_refl 1, rest⟩, And.right⟩
  | [] => exact iff_of_false (not_classified_of_unread authorized parsed rfl) id
  | [_] => exact iff_of_false (not_classified_of_unread authorized parsed rfl) id
  | [_, _] =>
      exact iff_of_false (not_classified_of_unread authorized parsed rfl) id
  | jsonrpc :: id :: method :: params :: more :: rest =>
      refine iff_of_false ?_ fun plain => ?_
      · apply not_classified_of_unread authorized parsed
        simp [JsonRpcRequest.read, JsonRpcRequest.fields, fieldsFrom,
          JsonRpcRequest.names]
      · have short := plain.1
        simp at short

/-- The replies have their classes where the bodies are plain. -/
theorem classified_iff
    (authorized : mockEd25519BearerCheck authorization = none) :
    Classified body (postA2a host state authorization body).1 ↔
      PlainBody body := by
  have read : ∀ json, Bodies.tree body = some json →
      (Classified body (postA2a host state authorization body).1 ↔
        Plain json) := by
    intro json parsed
    match json with
    | .object fields => exact classified_object_iff authorized parsed
    | .array items => exact classified_array_iff authorized parsed
    | .null =>
        exact iff_of_false (not_classified_of_unread authorized parsed rfl) id
    | .bool _ =>
        exact iff_of_false (not_classified_of_unread authorized parsed rfl) id
    | .number _ =>
        exact iff_of_false (not_classified_of_unread authorized parsed rfl) id
    | .string _ =>
        exact iff_of_false (not_classified_of_unread authorized parsed rfl) id
  constructor
  · intro classified json parsed
    exact (read json parsed).mp classified
  · intro plain
    cases parsed : Bodies.tree body with
    | none => exact classified_of_not_json authorized parsed
    | some json => exact (read json parsed).mpr (plain json parsed)

variable (σ) in
/-- Every authorized body is answered by its class. -/
def ClassifiesAll : Prop :=
  ∀ (host : A2aHost) (state : A2aState σ) authorization body,
    mockEd25519BearerCheck authorization = none →
    Classified body (postA2a host state authorization body).1

end

/-! ## Two bodies -/

/-- The envelope with a method. -/
def sampleEnvelope (method : Json) : Json :=
  .object [("jsonrpc".toList, .string jsonrpcVersion),
    ("id".toList, .number "7".toList), ("method".toList, method)]

def envelopeBody (method : Json) : List UInt8 :=
  SerdeJson.toVec (sampleEnvelope method)

def listMethod : Json := .string "tasks/list".toList

def numberMethod : Json := .number "5".toList

@[reducible] def sampleBodies : Bodies where
  tree body :=
    if body = envelopeBody listMethod then some (sampleEnvelope listMethod)
    else if body = envelopeBody numberMethod then
      some (sampleEnvelope numberMethod)
    else none
  parseError _ := []

def sampleA2aHost : A2aHost where
  surroundings := sampleRun noAgents
  runId := Vector.replicate 16 0
  now := 1781784000000
  parseUuid _ := none
  debugError _ := []
  agentCard := .object []

section

open TrustLayer.Themis (KeepingBridge RealBandRoom)

attribute [local instance] sampleFloats sampleHashes sampleCrates
  sampleSigning sampleBodies

def sampleA2aState : A2aState (RealBandRoom KeepingBridge) where
  orchestrator := sampleOrchestrator
  tasks _ := none
  peerVerdicts _ := []

def sampleBearer : Option Str :=
  some "Ed25519Bearer 0123456789abcdef".toList

theorem sampleBearer_authorized :
    mockEd25519BearerCheck sampleBearer = none := by
  decide

theorem listBody_tree :
    Bodies.tree (envelopeBody listMethod) =
      some (sampleEnvelope listMethod) :=
  if_pos rfl

theorem numberBody_tree :
    Bodies.tree (envelopeBody numberMethod) =
      some (sampleEnvelope numberMethod) := by
  have different : envelopeBody numberMethod ≠ envelopeBody listMethod := by
    decide
  exact (if_neg different).trans (if_pos rfl)

theorem listBody_classified :
    Classified (envelopeBody listMethod)
      (postA2a sampleA2aHost sampleA2aState sampleBearer
        (envelopeBody listMethod)).1 := by
  refine (classified_iff sampleBearer_authorized).mpr fun json parsed => ?_
  obtain rfl := Option.some.inj (listBody_tree.symm.trans parsed)
  refine ⟨?_, trivial, trivial⟩
  decide

/-- A number for the method is taken for a parse error. -/
theorem numberBody_not_classifiesAll :
    ¬ ClassifiesAll (RealBandRoom KeepingBridge) := by
  intro classifies
  have classified := classifies sampleA2aHost sampleA2aState sampleBearer
    (envelopeBody numberMethod) sampleBearer_authorized
  exact not_classified_of_unread sampleBearer_authorized numberBody_tree rfl
    classified

end

end TrustLayer.ThemisOrchestrator
