import TrustLayer.Library.Register
import TrustLayer.Library.Runs
import TrustLayer.ThemisOrchestrator.A2aHandler

/-!
# The stores behind the A2A endpoint

The tasks and the verdicts of the peers are one register: a task is its record,
and the verdicts are the entries under it.  The replies of the endpoint, over
any run of requests, are those of the register to what each request asks.
-/

namespace TrustLayer.ThemisOrchestrator

open TrustLayer.AgentGuard (Json)
open TrustLayer.Library hiding Json
open TrustLayer.SerdeJson (ordered)
open TrustLayer.Themis (BandRoom)
open TrustLayer.ThemisAgents (FloatTexts)
open TrustLayer.ThemisEvidence (Signing)
open TrustLayer.TlChain (Blake3)
open TrustLayer.TlVerify (Crates)

abbrev StoreChange := Change Uuid A2aTaskRecord PeerVerdict

/-- A request, with what it finds around it. -/
structure A2aRequest where
  host : A2aHost
  authorization : Option Str
  body : List UInt8

/-! ## What a request asks -/

/-- What is asked of the stores.  The verdict that is to be attached may be
unfit. -/
inductive Ask where
  | send (tenantId invoiceId : Str) (raw : List UInt8)
  | get (task : Uuid)
  | attach (packet : Uuid) (verdict : Except Refusal PeerVerdict)
  | card

def Ask.method : Ask → Str
  | .send .. => "message/send".toList
  | .get _ => "tasks/get".toList
  | .attach .. => "peer_verdict/attach".toList
  | .card => "agent/authenticatedExtendedCard".toList

/-- A text that is not empty, in a field. -/
def HasText (fields : List (Str × Json)) (key : String) (text : Str) : Prop :=
  fields.lookup key.toList = some (.string text) ∧ text ≠ []

/-- The bytes of an invoice; none where they are no base64. -/
def rawBytes [Crates] (fields : List (Str × Json)) : List UInt8 :=
  (Crates.base64Decode
    (((fields.lookup "raw_b64".toList).bind Json.asStr).getD [])).getD []

section

variable [FloatTexts] [Crates]

/-- The parameters ask for something. -/
def Asks (host : A2aHost) (params : Json) : Ask → Prop
  | .send tenantId invoiceId raw =>
      ∃ fields, params = .object fields ∧ HasText fields "tenant_id" tenantId ∧
        HasText fields "invoice_id" invoiceId ∧ raw = rawBytes fields
  | .get task =>
      ∃ fields text, params = .object fields ∧
        fields.lookup "id".toList = some (.string text) ∧
        host.parseUuid text = some task
  | .attach packet verdict =>
      ∃ fields text, params = .object fields ∧
        HasText fields "packet_id" text ∧ host.parseUuid text = some packet ∧
        verdict = peerVerdict host fields
  | .card => True

variable [Bodies]

/-- The request is authorized, and an envelope that calls the method. -/
structure Calls (request : A2aRequest) (id : Json) (method : Str)
    (params : Json) : Prop where
  authorized : mockEd25519BearerCheck request.authorization = none
  envelope : ∃ called, (Bodies.tree request.body).bind JsonRpcRequest.read =
      some called ∧ Complete called method ∧ called.id.getD .null = id ∧
    called.params = params

def Asked (request : A2aRequest) (id : Json) (ask : Ask) : Prop :=
  ∃ params, Calls request id ask.method params ∧ Asks request.host params ask

omit [FloatTexts] [Crates] in
theorem Calls.unique {request : A2aRequest} {id otherId : Json}
    {method otherMethod : Str} {params otherParams : Json}
    (calls : Calls request id method params)
    (others : Calls request otherId otherMethod otherParams) :
    id = otherId ∧ method = otherMethod ∧ params = otherParams := by
  obtain ⟨-, called, read, complete, rfl, rfl⟩ := calls
  obtain ⟨-, again, readAgain, completeAgain, rfl, rfl⟩ := others
  obtain rfl := Option.some.inj (read.symm.trans readAgain)
  have named := complete.named.symm.trans completeAgain.named
  exact ⟨rfl, Option.some.inj named, rfl⟩

theorem not_asked_of_calls {request : A2aRequest} {id : Json} {method : Str}
    {params : Json} (calls : Calls request id method params)
    (nothing : ∀ ask : Ask, ask.method = method → ¬ Asks request.host params ask) :
    ∀ otherId ask, ¬ Asked request otherId ask := by
  rintro otherId ask ⟨otherParams, others, asks⟩
  obtain ⟨-, same, rfl⟩ := calls.unique others
  exact nothing ask same.symm asks

theorem not_asked_of_not_calls {request : A2aRequest}
    (nothing : ∀ id method params, ¬ Calls request id method params) :
    ∀ id ask, ¬ Asked request id ask := by
  rintro id ask ⟨params, calls, -⟩
  exact nothing id ask.method params calls

omit [FloatTexts] [Crates] [Bodies] in
theorem Ask.eq_send {ask : Ask} (same : ask.method = "message/send".toList) :
    ∃ tenantId invoiceId raw, ask = .send tenantId invoiceId raw := by
  cases ask with
  | send tenantId invoiceId raw => exact ⟨tenantId, invoiceId, raw, rfl⟩
  | get => exact absurd same (show "tasks/get".toList ≠ _ by decide)
  | attach => exact absurd same (show "peer_verdict/attach".toList ≠ _ by decide)
  | card =>
      exact absurd same
        (show "agent/authenticatedExtendedCard".toList ≠ _ by decide)

omit [FloatTexts] [Crates] [Bodies] in
theorem Ask.eq_get {ask : Ask} (same : ask.method = "tasks/get".toList) :
    ∃ task, ask = .get task := by
  cases ask with
  | send => exact absurd same (show "message/send".toList ≠ _ by decide)
  | get task => exact ⟨task, rfl⟩
  | attach => exact absurd same (show "peer_verdict/attach".toList ≠ _ by decide)
  | card =>
      exact absurd same
        (show "agent/authenticatedExtendedCard".toList ≠ _ by decide)

omit [FloatTexts] [Crates] [Bodies] in
theorem Ask.eq_attach {ask : Ask}
    (same : ask.method = "peer_verdict/attach".toList) :
    ∃ packet verdict, ask = .attach packet verdict := by
  cases ask with
  | send => exact absurd same (show "message/send".toList ≠ _ by decide)
  | get => exact absurd same (show "tasks/get".toList ≠ _ by decide)
  | attach packet verdict => exact ⟨packet, verdict, rfl⟩
  | card =>
      exact absurd same
        (show "agent/authenticatedExtendedCard".toList ≠ _ by decide)

end

/-! ## The register -/

/-- The orchestrator, and what the stores have been told. -/
structure TaskRegister (σ : Type) where
  orchestrator : Orchestrator σ
  changes : List StoreChange

/-- The task of a message that has succeeded. -/
def recordOf (request : A2aRequest) (tenantId invoiceId : Str)
    (signed : SignedPacket) : A2aTaskRecord where
  runId := request.host.runId
  tenantId := tenantId
  invoiceId := invoiceId
  packetId := signed.packet.packetId

/-- The codes of what asks nothing. -/
def refusalCodes : List Int :=
  [errUnauthorized, errParse, errInvalidRequest, errMethodNotFound,
    errInvalidParams]

def attachedValue (packet : Uuid) (verdict : PeerVerdict) (count : Nat) : Json :=
  ordered (.object [
    ("attached".toList, .bool true),
    ("packet_id".toList, .string (hyphenated packet)),
    ("agent".toList, .string verdict.agent),
    ("count".toList, SerdeJson.integer count)])

section

variable [FloatTexts] [Crates] [Blake3] [Signing] [Bodies]
variable {σ : Type} [BandRoom σ]

/-- The reply of the register to a request, and where it leaves the register. -/
inductive Answered (request : A2aRequest) (before : TaskRegister σ) :
    Reply → TaskRegister σ → Prop where
  | sent {id : Json} {tenantId invoiceId : Str} {raw : List UInt8}
      {signed : SignedPacket} {orchestrator : Orchestrator σ}
      (asked : Asked request id (.send tenantId invoiceId raw))
      (processed : before.orchestrator.processInvoice
        { request.host.surroundings with tenantId, invoiceId, raw } =
          (.ok signed, orchestrator)) :
      Answered request before
        (jsonrpcSuccess id (taskValue (recordOf request tenantId invoiceId signed)
          ("verdict".toList, .string (outcomeDebug signed.packet.bbaaarOutcome))))
        ⟨orchestrator, before.changes ++ [.record signed.packet.packetId
          (recordOf request tenantId invoiceId signed)]⟩
  | failed {id : Json} {tenantId invoiceId : Str} {raw : List UInt8}
      {error : OrchestratorError} {orchestrator : Orchestrator σ}
      (asked : Asked request id (.send tenantId invoiceId raw))
      (processed : before.orchestrator.processInvoice
        { request.host.surroundings with tenantId, invoiceId, raw } =
          (.error error, orchestrator)) :
      Answered request before
        (jsonrpcError id
          { status := 500, code := errInternal
            message := "process_invoice failed: ".toList ++
              request.host.debugError error })
        ⟨orchestrator, before.changes⟩
  | listed {id : Json} {task : Uuid} {record : A2aTaskRecord}
      (asked : Asked request id (.get task))
      (known : recordsOf before.changes task = some record) :
      Answered request before
        (jsonrpcSuccess id (taskValue record ("peer_verdicts".toList,
          .array ((entriesOf before.changes task).map verdictValue))))
        before
  | attached {id : Json} {packet : Uuid} {verdict : PeerVerdict}
      {record : A2aTaskRecord} (asked : Asked request id (.attach packet (.ok verdict)))
      (known : recordsOf before.changes packet = some record) :
      Answered request before
        (jsonrpcSuccess id (attachedValue packet verdict
          ((entriesOf before.changes packet).length + 1)))
        ⟨before.orchestrator, before.changes ++ [.entry packet verdict]⟩
  | unfit {id : Json} {packet : Uuid} {refusal : Refusal}
      {record : A2aTaskRecord}
      (asked : Asked request id (.attach packet (.error refusal)))
      (known : recordsOf before.changes packet = some record) :
      Answered request before (jsonrpcError id refusal) before
  | unknown {id : Json} {task : Uuid} {ask : Ask} (asked : Asked request id ask)
      (about : ask = .get task ∨ ∃ verdict, ask = .attach task verdict)
      (fresh : recordsOf before.changes task = none) :
      Answered request before (jsonrpcError id (taskNotFound task)) before
  | card {id : Json} (asked : Asked request id .card) :
      Answered request before (respond id (handleExtendedCard request.host))
        before
  | refused (id : Json) {refusal : Refusal}
      (nothing : ∀ id ask, ¬ Asked request id ask)
      (code : refusal.code ∈ refusalCodes) :
      Answered request before (jsonrpcError id refusal) before

/-- An entry is only ever allowed under a record. -/
theorem Answered.backed {request : A2aRequest} {before after : TaskRegister σ}
    {reply : Reply} (answered : Answered request before reply after)
    (backed : Backed before.changes) : Backed after.changes := by
  cases answered with
  | sent => exact backed.record _
  | attached asked known => exact backed.entry known _
  | failed | listed | unfit | unknown | card | refused => exact backed

/-! ## The endpoint -/

/-- The orchestrator and the two maps are those of the register. -/
structure Follows (state : A2aState σ) (register : TaskRegister σ) : Prop where
  orchestrator : state.orchestrator = register.orchestrator
  tasks : state.tasks = recordsOf register.changes
  verdicts : state.peerVerdicts = entriesOf register.changes

/-- The register gives the reply, and is left as the state is. -/
def Explained (request : A2aRequest) (register : TaskRegister σ)
    (result : Reply × A2aState σ) : Prop :=
  ∃ after, Answered request register result.1 after ∧ Follows result.2 after

variable {request : A2aRequest} {state : A2aState σ} {register : TaskRegister σ}
variable {id params : Json} {method : Str}

theorem explained_refused (follows : Follows state register) (id : Json)
    {refusal : Refusal} (nothing : ∀ id ask, ¬ Asked request id ask)
    (code : refusal.code ∈ refusalCodes) :
    Explained request register (jsonrpcError id refusal, state) :=
  ⟨register, .refused id nothing code, follows⟩

def IsParams (code : Int) : Prop :=
  code = errInvalidParams

omit [FloatTexts] [Crates] [Blake3] [Signing] [Bodies] in
theorem isParams : IsParams errInvalidParams :=
  rfl

theorem explained_invalidParams {refusal : Refusal}
    (follows : Follows state register) (calls : Calls request id method params)
    (nothing : ∀ ask : Ask, ask.method = method → ¬ Asks request.host params ask)
    (code : IsParams refusal.code) :
    Explained request register (jsonrpcError id refusal, state) := by
  apply explained_refused follows id (not_asked_of_calls calls nothing)
  rw [show refusal.code = errInvalidParams from code]
  decide

/-! ### The parameters -/

omit [FloatTexts] [Crates] [Blake3] [Signing] [Bodies] in
theorem required_eq_ok_iff {α : Type} {found : Option α} {message : String}
    {value : α} : required found message = .ok value ↔ found = some value := by
  cases found <;> simp [required]

omit [FloatTexts] [Crates] [Blake3] [Signing] [Bodies] in
theorem asObject_eq_some_iff {json : Json} {fields : List (Str × Json)} :
    asObject json = some fields ↔ json = .object fields := by
  cases json <;> simp [asObject]

omit [FloatTexts] [Crates] [Blake3] [Signing] [Bodies] in
theorem bind_asStr_eq_some_iff {json? : Option Json} {text : Str} :
    json?.bind Json.asStr = some text ↔ json? = some (.string text) := by
  cases json? with
  | none => simp
  | some json => cases json <;> simp [Json.asStr]

omit [FloatTexts] [Crates] [Blake3] [Signing] [Bodies] in
theorem requiredText_eq_ok_iff {fields : List (Str × Json)}
    {key message : String} {text : Str} :
    requiredText fields key message = .ok text ↔ HasText fields key text := by
  rw [requiredText, bind_eq_ok_iff]
  constructor
  · rintro ⟨found, read, kept⟩
    split_ifs at kept with empty
    obtain rfl := Except.ok.inj kept
    exact ⟨bind_asStr_eq_some_iff.mp (required_eq_ok_iff.mp read), empty⟩
  · rintro ⟨found, nonempty⟩
    refine ⟨text, required_eq_ok_iff.mpr (bind_asStr_eq_some_iff.mpr found), ?_⟩
    rw [if_neg nonempty]

omit [Blake3] [Signing] [Bodies] in
theorem messageParams_eq_ok_iff {host : A2aHost} {tenantId invoiceId : Str}
    {raw : List UInt8} :
    messageParams params = .ok (tenantId, invoiceId, raw) ↔
      Asks host params (.send tenantId invoiceId raw) := by
  simp only [messageParams, bind_eq_ok_iff, required_eq_ok_iff,
    asObject_eq_some_iff, requiredText_eq_ok_iff, Asks]
  constructor
  · rintro ⟨fields, isObject, tenant, hasTenant, invoice, hasInvoice, made⟩
    cases made
    exact ⟨fields, isObject, hasTenant, hasInvoice, rfl⟩
  · rintro ⟨fields, isObject, hasTenant, hasInvoice, rfl⟩
    exact ⟨fields, isObject, tenantId, hasTenant, invoiceId, hasInvoice, rfl⟩

omit [FloatTexts] [Crates] [Blake3] [Signing] [Bodies] in
theorem attachedPacket_eq_ok_iff {host : A2aHost} {fields : List (Str × Json)}
    {packet : Uuid} :
    attachedPacket host fields = .ok packet ↔
      ∃ text, HasText fields "packet_id" text ∧
        host.parseUuid text = some packet := by
  simp only [attachedPacket, bind_eq_ok_iff, requiredText_eq_ok_iff,
    required_eq_ok_iff]

/-! ### The methods -/

theorem explained_messageSend (follows : Follows state register)
    (calls : Calls request id "message/send".toList params) :
    Explained request register
      (respond id (handleMessageSend request.host state params).1,
        (handleMessageSend request.host state params).2) := by
  unfold handleMessageSend
  cases read : messageParams params with
  | error refusal =>
      apply explained_invalidParams follows calls
      · intro ask same asks
        obtain ⟨tenantId, invoiceId, raw, rfl⟩ := Ask.eq_send same
        cases read.symm.trans (messageParams_eq_ok_iff.mpr asks)
      · exact handles_messageParams isParams _ refusal read
  | ok found =>
      obtain ⟨tenantId, invoiceId, raw⟩ := found
      have asked : Asked request id (.send tenantId invoiceId raw) :=
        ⟨params, calls, messageParams_eq_ok_iff.mp read⟩
      rw [follows.orchestrator]
      cases processed : register.orchestrator.processInvoice
          { request.host.surroundings with tenantId, invoiceId, raw } with
      | mk result orchestrator =>
          simp only [processed]
          cases result with
          | error error =>
              refine ⟨_, .failed asked processed, ?_⟩
              exact ⟨rfl, follows.tasks, follows.verdicts⟩
          | ok signed =>
              refine ⟨_, .sent asked processed, ?_⟩
              refine ⟨rfl, ?_, ?_⟩
              · rw [recordsOf_concat_record, ← follows.tasks]
                rfl
              · rw [entriesOf_concat_record]
                exact follows.verdicts

/-- What `tasks/get` reads in front of the search. -/
def askedTask (host : A2aHost) (params : Json) : Except Refusal Uuid := do
  let p ← required (asObject params) "params must be an object with `id`"
  let taskIdStr ← required ((p.lookup "id".toList).bind Json.asStr)
    "params.id (string) is required"
  required (host.parseUuid taskIdStr) "params.id must be a UUID"

omit [Crates] [Blake3] [Signing] [Bodies] [BandRoom σ] in
theorem handleTasksGet_eq (host : A2aHost) (params : Json) :
    handleTasksGet host state params =
      askedTask host params >>= fun task =>
        match state.tasks task with
        | some record => .ok (taskValue record ("peer_verdicts".toList,
            .array ((state.peerVerdicts task).map verdictValue)))
        | none => .error (taskNotFound task) := by
  unfold handleTasksGet askedTask
  simp only [bind_assoc]
  rfl

omit [Blake3] [Signing] [Bodies] in
theorem askedTask_eq_ok_iff {host : A2aHost} {task : Uuid} :
    askedTask host params = .ok task ↔
      Asks host params (.get task) := by
  simp only [askedTask, bind_eq_ok_iff, required_eq_ok_iff,
    asObject_eq_some_iff, bind_asStr_eq_some_iff, Asks]
  constructor
  · rintro ⟨fields, isObject, text, found, parsed⟩
    exact ⟨fields, text, isObject, found, parsed⟩
  · rintro ⟨fields, text, isObject, found, parsed⟩
    exact ⟨fields, isObject, text, found, parsed⟩

omit [FloatTexts] [Crates] [Blake3] [Signing] [Bodies] in
theorem handles_askedTask (host : A2aHost) (params : Json) :
    Handles IsParams (askedTask host params) := by
  refine (handles_required isParams _ _).bind fun fields => ?_
  refine (handles_required isParams _ _).bind fun text => ?_
  exact handles_required isParams _ _

theorem explained_tasksGet (follows : Follows state register)
    (calls : Calls request id "tasks/get".toList params) :
    Explained request register
      (respond id (handleTasksGet request.host state params), state) := by
  rw [handleTasksGet_eq]
  cases read : askedTask request.host params with
  | error refusal =>
      apply explained_invalidParams follows calls
      · intro ask same asks
        obtain ⟨task, rfl⟩ := Ask.eq_get same
        cases read.symm.trans (askedTask_eq_ok_iff.mpr asks)
      · exact handles_askedTask _ _ refusal read
  | ok task =>
      have asked : Asked request id (.get task) :=
        ⟨params, calls, askedTask_eq_ok_iff.mp read⟩
      change Explained request register (respond id (match state.tasks task with
        | some record => _
        | none => _), state)
      cases found : state.tasks task with
      | some record =>
          rw [follows.verdicts]
          exact ⟨register, .listed asked (follows.tasks ▸ found), follows⟩
      | none =>
          exact ⟨register, .unknown asked (.inl rfl) (follows.tasks ▸ found),
            follows⟩

/-- What `peer_verdict/attach` reads in front of the search. -/
def attachParams (host : A2aHost) (params : Json) :
    Except Refusal (Uuid × Except Refusal PeerVerdict) := do
  let p ← required (asObject params) "params must be an object"
  let packetId ← attachedPacket host p
  return (packetId, peerVerdict host p)

omit [Blake3] [Signing] [Bodies] in
theorem attachParams_eq_ok_iff {host : A2aHost} {packet : Uuid}
    {verdict : Except Refusal PeerVerdict} :
    attachParams host params = .ok (packet, verdict) ↔
      Asks host params (.attach packet verdict) := by
  simp only [attachParams, bind_eq_ok_iff, required_eq_ok_iff,
    asObject_eq_some_iff, attachedPacket_eq_ok_iff, Asks]
  constructor
  · rintro ⟨fields, isObject, found, ⟨text, hasText, parsed⟩, made⟩
    cases made
    exact ⟨fields, text, isObject, hasText, parsed, rfl⟩
  · rintro ⟨fields, text, isObject, hasText, parsed, rfl⟩
    exact ⟨fields, isObject, packet, ⟨text, hasText, parsed⟩, rfl⟩

omit [Crates] [Blake3] [Signing] [Bodies] in
theorem handles_attachParams (host : A2aHost) (params : Json) :
    Handles IsParams (attachParams host params) := by
  refine (handles_required isParams _ _).bind fun fields => ?_
  exact (handles_attachedPacket isParams _).bind fun packet => handles_ok _

omit [Crates] [Blake3] [Signing] [Bodies] [BandRoom σ] in
/-- The task is looked for before the verdict is looked at. -/
theorem handlePeerVerdictAttach_eq (host : A2aHost) (params : Json) :
    handlePeerVerdictAttach host state params =
      match attachParams host params with
      | .error refusal => (.error refusal, state)
      | .ok (packetId, verdict) =>
          if state.tasks packetId = none then
            (.error (taskNotFound packetId), state)
          else
            match verdict with
            | .error refusal => (.error refusal, state)
            | .ok verdict =>
                (.ok (attachedValue packetId verdict
                  (state.peerVerdicts packetId ++ [verdict]).length),
                  { state with
                    peerVerdicts := Function.update state.peerVerdicts packetId
                      (state.peerVerdicts packetId ++ [verdict]) }) := by
  unfold handlePeerVerdictAttach attachParams
  cases required (asObject params) "params must be an object" with
  | error refusal => rfl
  | ok fields =>
      cases packet : attachedPacket host fields with
      | error refusal => simp [bind, Except.bind, packet]
      | ok packetId =>
          by_cases fresh : state.tasks packetId = none
          · simp [bind, Except.bind, pure, Except.pure, packet, fresh]
          · cases verdict : peerVerdict host fields with
            | error refusal =>
                simp [bind, Except.bind, pure, Except.pure, packet, fresh, verdict]
            | ok verdict' =>
                simp [bind, Except.bind, pure, Except.pure, packet, fresh, verdict,
                  attachedValue]

theorem explained_peerVerdictAttach (follows : Follows state register)
    (calls : Calls request id "peer_verdict/attach".toList params) :
    Explained request register
      (respond id (handlePeerVerdictAttach request.host state params).1,
        (handlePeerVerdictAttach request.host state params).2) := by
  rw [handlePeerVerdictAttach_eq]
  cases read : attachParams request.host params with
  | error refusal =>
      apply explained_invalidParams follows calls
      · intro ask same asks
        obtain ⟨packet, verdict, rfl⟩ := Ask.eq_attach same
        cases read.symm.trans (attachParams_eq_ok_iff.mpr asks)
      · exact handles_attachParams _ _ refusal read
  | ok found =>
      obtain ⟨packet, verdict⟩ := found
      have asked : Asked request id (.attach packet verdict) :=
        ⟨params, calls, attachParams_eq_ok_iff.mp read⟩
      cases known : state.tasks packet with
      | none =>
          simp only [known, if_pos]
          exact ⟨register, .unknown asked (.inr ⟨verdict, rfl⟩)
            (follows.tasks ▸ known), follows⟩
      | some record =>
          simp only [known, reduceCtorEq, if_false]
          cases verdict with
          | error refusal =>
              exact ⟨register, .unfit asked (follows.tasks ▸ known), follows⟩
          | ok verdict =>
              have count : (state.peerVerdicts packet ++ [verdict]).length =
                  (entriesOf register.changes packet).length + 1 := by
                rw [follows.verdicts, List.length_append, List.length_singleton]
              refine ⟨⟨register.orchestrator,
                register.changes ++ [.entry packet verdict]⟩, ?_, ?_⟩
              · simp only [count]
                exact .attached asked (follows.tasks ▸ known)
              refine ⟨follows.orchestrator, ?_, ?_⟩
              · rw [recordsOf_concat_entry]
                exact follows.tasks
              · rw [entriesOf_concat_entry, ← follows.verdicts]

theorem explained_dispatch (follows : Follows state register)
    (calls : Calls request id method params) :
    Explained request register (dispatch request.host state id method params) := by
  unfold dispatch
  split_ifs with send get attach card
  · subst send
    exact explained_messageSend follows calls
  · subst get
    exact explained_tasksGet follows calls
  · subst attach
    exact explained_peerVerdictAttach follows calls
  · subst card
    exact ⟨register, .card ⟨params, calls, trivial⟩, follows⟩
  · apply explained_refused follows id (not_asked_of_calls calls ?_)
      (show errMethodNotFound ∈ refusalCodes by decide)
    intro ask same _
    cases ask with
    | send => exact send same.symm
    | get => exact get same.symm
    | attach => exact attach same.symm
    | card => exact card same.symm

omit [FloatTexts] [Crates] [Blake3] [Signing] in
/-- An envelope that lacks the version or a method calls nothing. -/
theorem not_calls_of_incomplete {called : JsonRpcRequest}
    (read : (Bodies.tree request.body).bind JsonRpcRequest.read = some called)
    (incomplete : ∀ method, ¬ Complete called method) :
    ∀ id method params, ¬ Calls request id method params := by
  rintro id method params ⟨-, other, readOther, complete, -⟩
  obtain rfl := Option.some.inj (read.symm.trans readOther)
  exact incomplete method complete

theorem explained_callMethod (follows : Follows state register)
    (authorized : mockEd25519BearerCheck request.authorization = none)
    {called : JsonRpcRequest}
    (read : (Bodies.tree request.body).bind JsonRpcRequest.read = some called) :
    Explained request register (callMethod request.host state called) := by
  unfold callMethod
  split_ifs with version
  · apply explained_refused follows _ _ (by decide)
    exact not_asked_of_not_calls (not_calls_of_incomplete read
      fun _ complete => version complete.version)
  · split
    · rename_i char rest named
      have complete : Complete called (char :: rest) :=
        ⟨not_not.mp version, named, List.cons_ne_nil _ _⟩
      exact explained_dispatch follows
        ⟨authorized, called, read, complete, rfl, rfl⟩
    · rename_i unnamed
      apply explained_refused follows _ _ (by decide)
      refine not_asked_of_not_calls (not_calls_of_incomplete read ?_)
      intro method complete
      obtain ⟨char, rest, rfl⟩ := List.exists_cons_of_ne_nil complete.nonempty
      exact unnamed char rest complete.named

/-- One request, whoever sends it and whatever it holds. -/
theorem explained_postA2a (follows : Follows state register)
    (request : A2aRequest) :
    Explained request register
      (postA2a request.host state request.authorization request.body) := by
  unfold postA2a
  split
  · rename_i reason denied
    apply explained_refused follows _ _
      (show errUnauthorized ∈ refusalCodes by decide)
    apply not_asked_of_not_calls
    intro id method params calls
    cases denied.symm.trans calls.authorized
  · rename_i authorized
    split
    · rename_i unread
      apply explained_refused follows _ _
        (show errParse ∈ refusalCodes by decide)
      apply not_asked_of_not_calls
      rintro id method params ⟨-, called, read, -⟩
      cases unread.symm.trans read
    · rename_i called read
      exact explained_callMethod follows authorized read

/-! ## Runs -/

def serve (state : A2aState σ) (requests : List A2aRequest) :
    List Reply × A2aState σ :=
  answers (fun state (request : A2aRequest) =>
    postA2a request.host state request.authorization request.body)
    state requests

/-- Over any run of requests, the replies are those of one register that starts
empty.  The maps hold what it holds in the end, and every verdict in them was
attached behind the message that created its task. -/
theorem explains_serve (orchestrator : Orchestrator σ)
    (requests : List A2aRequest) :
    ∃ register, Explains Answered ⟨orchestrator, []⟩ requests
        (serve ⟨orchestrator, fun _ => none, fun _ => []⟩ requests).1 register ∧
      Follows
        (serve ⟨orchestrator, fun _ => none, fun _ => []⟩ requests).2 register ∧
      Backed register.changes := by
  have first : Follows (⟨orchestrator, fun _ => none, fun _ => []⟩ : A2aState σ)
      ⟨orchestrator, []⟩ := ⟨rfl, rfl, rfl⟩
  obtain ⟨register, explains, follows⟩ :=
    @explains_answers _ _ _ _ _ Answered Follows
      (fun _ _ request follows => explained_postA2a follows request) _ _ requests
      first
  refine ⟨register, explains, follows, ?_⟩
  exact explains.keeps (fun _ _ _ _ answered => answered.backed) backed_nil

end

end TrustLayer.ThemisOrchestrator
