import TrustLayer.Library.Runs
import TrustLayer.ThemisOrchestrator.WireFormat

/-!
# The stores behind the HTTP endpoints

The handlers of the requests take turns in any order: one at a time holds the
orchestrator, and each access to a store is a turn of its own.  Whoever asks
behind the answer of a run gets that run.
-/

namespace TrustLayer.ThemisOrchestrator.Http

open TrustLayer.Library hiding Json
open TrustLayer.Themis (BandRoom)
open TrustLayer.ThemisAgents (FloatTexts)
open TrustLayer.ThemisEvidence (SealedPacket Signing)
open TrustLayer.TlChain (Blake3)
open TrustLayer.TlVerify (Chrono Crates)

abbrev Uuid := Vector UInt8 16

structure PostInvoiceRequest where
  tenantId : Str
  invoiceId : Str
  rawB64 : Str

inductive Request where
  | postInvoices (req : PostInvoiceRequest)
  | getReport (runId : Uuid)
  | getPacketPdf (packetId : Uuid)
  | getPacketJson (packetId : Uuid)

/-- What a run leaves to the stores. -/
structure Run where
  runId : Uuid
  packet : SignedPacket
  sealed_ : Option SealedPacket

/-- The seal is kept under this id too, and not under its own. -/
def Run.packetId (run : Run) : Uuid :=
  run.packet.packet.packetId

inductive Response (ρ : Type) where
  | error (status : Nat) (text : Str)
  | posted (runId packetId : Uuid) (report : ρ)
  | report (report : ρ)
  | attachment (contentType disposition : Str) (body : List UInt8)

/-- What does not change while the process runs. -/
structure Services (ρ : Type) where
  /-- `ComplianceService::report`. -/
  report : EvidencePacket → ρ
  /-- `render_packet_pdf`, with the text of its error. -/
  renderPacketPdf : SignedPacket → Except Str (List UInt8)
  debugError : OrchestratorError → Str

structure AppState (σ ρ : Type) where
  orchestrator : Orchestrator σ
  reports : Uuid → Option ρ
  packets : Uuid → Option SignedPacket
  sealed_ : Uuid → Option SealedPacket

/-! ## Responses -/

section

variable {ρ : Type}

/-- What may stand in a header. -/
def headerValid (value : Str) : Bool :=
  (utf8Bytes value).all fun byte => (32 ≤ byte && byte != 127) || byte == 9

def buildAttachmentResponse (contentType disposition : Str)
    (body : List UInt8) : Response ρ :=
  if headerValid disposition then .attachment contentType disposition body
  else .error 500 "build response: failed to parse header value".toList

def attachmentName (front : String) (packet : EvidencePacket)
    (extension : String) : Str :=
  "attachment; filename=\"".toList ++ front.toList ++ packet.tenantId ++
    '-' :: packet.invoiceId ++ extension.toList ++ ['"']

def packetNotFound (packetId : Uuid) : Response ρ :=
  .error 404 ("packet ".toList ++ hyphenated packetId ++ " not found".toList)

def packetPdf (services : Services ρ) (packet : SignedPacket) : Response ρ :=
  match services.renderPacketPdf packet with
  | .error e => .error 500 ("PDF render: ".toList ++ e)
  | .ok bytes =>
      buildAttachmentResponse "application/pdf".toList
        (attachmentName "themis-" packet.packet ".pdf") bytes

variable [FloatTexts] [Chrono]

def packetJson (operatorEmail : Option Str) (packet : SignedPacket)
    (sealed_ : Option SealedPacket) : Response ρ :=
  let wire := FlattenedPacketWireFormat.fromSigned operatorEmail packet sealed_
  buildAttachmentResponse "application/json".toList
    (attachmentName "vouch-" packet.packet ".json")
    (utf8Bytes (wire.toText SerdeJson.pretty))

end

/-! ## Handlers -/

/-- Where a handler stands. -/
inductive Phase (ρ : Type) where
  | waiting
  | storeRun (run : Run)
  | storePacket (run : Run)
  | storeSealed (run : Run) (sealed_ : SealedPacket)
  | readSealed (packet : SignedPacket)
  | answered (response : Response ρ)

structure Handler (ρ : Type) where
  request : Request
  phase : Phase ρ

/-- What a run meets. -/
structure RunHost where
  runId : Uuid
  invocation : Invocation

section

variable {σ ρ : Type}

def posted (services : Services ρ) (run : Run) : Response ρ :=
  .posted run.runId run.packetId (services.report run.packet.packet)

/-- The work under the lock. -/
def process [FloatTexts] [Blake3] [Crates] [Signing] [BandRoom σ]
    (orchestrator : Orchestrator σ) (req : PostInvoiceRequest) (host : RunHost) :
    Except OrchestratorError (SignedPacket × Option SealedPacket) ×
      Orchestrator σ :=
  let raw := (Crates.base64Decode req.rawB64).getD []
  let invocation := { host.invocation with
    tenantId := req.tenantId, invoiceId := req.invoiceId, raw }
  if orchestrator.services.isSome then
    orchestrator.processInvoiceSealed invocation
  else
    match orchestrator.processInvoice invocation with
    | (.error e, orchestrator) => (.error e, orchestrator)
    | (.ok packet, orchestrator) => (.ok (packet, none), orchestrator)

variable [FloatTexts] [Chrono]

/-- A turn of a handler outside the lock.  The environment is read in it. -/
def turn (services : Services ρ) (operatorEmail : Option Str)
    (app : AppState σ ρ) (handler : Handler ρ) :
    Option (AppState σ ρ × Phase ρ) :=
  match handler.phase with
  | .waiting =>
      match handler.request with
      | .postInvoices _ => none
      | .getReport runId =>
          match app.reports runId with
          | none => some (app, .answered (.error 404 "run_id not found".toList))
          | some report => some (app, .answered (.report report))
      | .getPacketPdf packetId =>
          match app.packets packetId with
          | none => some (app, .answered (packetNotFound packetId))
          | some packet => some (app, .answered (packetPdf services packet))
      | .getPacketJson packetId =>
          match app.packets packetId with
          | none => some (app, .answered (packetNotFound packetId))
          | some packet => some (app, .readSealed packet)
  | .storeRun run =>
      some ({ app with
        reports := Function.update app.reports run.runId
          (some (services.report run.packet.packet)) }, .storePacket run)
  | .storePacket run =>
      some ({ app with
        packets := Function.update app.packets run.packetId (some run.packet) },
        match run.sealed_ with
        | none => .answered (posted services run)
        | some sealed_ => .storeSealed run sealed_)
  | .storeSealed run sealed_ =>
      some ({ app with
        sealed_ := Function.update app.sealed_ run.packetId (some sealed_) },
        .answered (posted services run))
  | .readSealed packet =>
      match handler.request with
      | .getPacketJson packetId =>
          some (app, .answered
            (packetJson operatorEmail packet (app.sealed_ packetId)))
      | _ => none
  | .answered _ => none

/-! ## The server -/

/-- The handlers by number, and the runs in the order of the lock. -/
structure Server (σ ρ : Type) where
  app : AppState σ ρ
  handlers : Nat → Option (Handler ρ)
  runs : List Run

inductive Event (σ : Type) where
  | accept (handler : Nat) (request : Request)
  | process (handler : Nat) (host : RunHost)
  | turn (handler : Nat) (operatorEmail : Option Str)
  /-- Another endpoint uses the orchestrator. -/
  | elsewhere (orchestrator : Orchestrator σ)

omit [FloatTexts] [Chrono] in
def Server.new (orchestrator : Orchestrator σ) : Server σ ρ where
  app := ⟨orchestrator, fun _ => none, fun _ => none, fun _ => none⟩
  handlers _ := none
  runs := []

omit [FloatTexts] [Chrono] in
def Server.move (server : Server σ ρ) (handler : Nat) (held : Handler ρ) :
    Server σ ρ :=
  { server with handlers := Function.update server.handlers handler (some held) }

variable [Blake3] [Crates] [Signing] [BandRoom σ]

def step (services : Services ρ) (server : Server σ ρ) :
    Event σ → Option (Server σ ρ)
  | .accept handler request =>
      match server.handlers handler with
      | some _ => none
      | none => some (server.move handler ⟨request, .waiting⟩)
  | .process handler host =>
      match server.handlers handler with
      | some ⟨.postInvoices req, .waiting⟩ =>
          match process server.app.orchestrator req host with
          | (.error e, orchestrator) =>
              let server := { server with app := { server.app with orchestrator } }
              some (server.move handler ⟨.postInvoices req,
                .answered (.error 500 (services.debugError e))⟩)
          | (.ok (packet, sealed_), orchestrator) =>
              let run : Run := ⟨host.runId, packet, sealed_⟩
              let server :=
                { server with
                  app := { server.app with orchestrator }
                  runs := server.runs ++ [run] }
              some (server.move handler ⟨.postInvoices req, .storeRun run⟩)
      | _ => none
  | .turn handler operatorEmail =>
      match server.handlers handler with
      | none => none
      | some held =>
          match turn services operatorEmail server.app held with
          | none => none
          | some (app, phase) =>
              some ({ server with app }.move handler ⟨held.request, phase⟩)
  | .elsewhere orchestrator =>
      some { server with app := { server.app with orchestrator } }

end

/-! ## What the stores hold -/

section

variable {σ ρ : Type} {services : Services ρ}

/-- All that a run leaves is in the stores. -/
structure Stored (services : Services ρ) (app : AppState σ ρ) (run : Run) :
    Prop where
  report : app.reports run.runId = some (services.report run.packet.packet)
  packet : app.packets run.packetId = some run.packet
  sealing : ∀ sealed_ ∈ run.sealed_, app.sealed_ run.packetId = some sealed_

/-- All that is in the stores is left by some run. -/
structure Owned (services : Services ρ) (app : AppState σ ρ) (runs : List Run) :
    Prop where
  reports : ∀ id, ∀ report ∈ app.reports id, ∃ run ∈ runs,
    run.runId = id ∧ services.report run.packet.packet = report
  packets : ∀ id, ∀ packet ∈ app.packets id, ∃ run ∈ runs,
    run.packetId = id ∧ run.packet = packet
  seals : ∀ id, ∀ sealed_ ∈ app.sealed_ id, ∃ run ∈ runs,
    run.packetId = id ∧ run.sealed_ = some sealed_

structure Distinct (runs : List Run) : Prop where
  runIds : (runs.map Run.runId).Nodup
  packetIds : (runs.map Run.packetId).Nodup

/-- Nothing is replaced, and nothing is taken away. -/
structure Grows (before after : AppState σ ρ) : Prop where
  reports : ∀ id, ∀ report ∈ before.reports id, after.reports id = some report
  packets : ∀ id, ∀ packet ∈ before.packets id, after.packets id = some packet
  seals : ∀ id, ∀ sealed_ ∈ before.sealed_ id, after.sealed_ id = some sealed_

theorem Grows.refl (app : AppState σ ρ) : Grows app app :=
  ⟨fun _ _ held => held, fun _ _ held => held, fun _ _ held => held⟩

theorem Stored.grows {before after : AppState σ ρ} {run : Run}
    (stored : Stored services before run) (grows : Grows before after) :
    Stored services after run where
  report := grows.reports _ _ stored.report
  packet := grows.packets _ _ stored.packet
  sealing sealed_ has := grows.seals _ _ (stored.sealing sealed_ has)

theorem update_keeps {κ ν : Type} [DecidableEq κ] {store : κ → Option ν}
    {key : κ} {value : ν} (agrees : ∀ old ∈ store key, old = value) (id : κ)
    (held : ν) (has : held ∈ store id) :
    Function.update store key (some value) id = some held := by
  by_cases same : id = key
  · subst same
    rw [Function.update_self, agrees held has]
  · rw [Function.update_of_ne same]
    exact has

theorem forall_update {κ ν : Type} [DecidableEq κ] {store : κ → Option ν}
    {key : κ} {value : ν} {holds : κ → ν → Prop} (here : holds key value)
    (others : ∀ id, ∀ held ∈ store id, holds id held) :
    ∀ id, ∀ held ∈ Function.update store key (some value) id, holds id held := by
  intro id held has
  by_cases same : id = key
  · subst same
    rw [Function.update_self] at has
    exact Option.some.inj has ▸ here
  · rw [Function.update_of_ne same] at has
    exact others id held has

section

variable {app : AppState σ ρ} {runs : List Run} {run other : Run}

theorem Distinct.run_eq (distinct : Distinct runs) (among : run ∈ runs)
    (amongToo : other ∈ runs) (same : run.runId = other.runId) : run = other :=
  List.inj_on_of_nodup_map distinct.runIds among amongToo same

theorem Distinct.packet_eq (distinct : Distinct runs) (among : run ∈ runs)
    (amongToo : other ∈ runs) (same : run.packetId = other.packetId) :
    run = other :=
  List.inj_on_of_nodup_map distinct.packetIds among amongToo same

/-- Behind a run, the store of the seals holds its seal or nothing. -/
theorem Stored.sealed_eq (owned : Owned services app runs)
    (distinct : Distinct runs) (among : run ∈ runs)
    (stored : Stored services app run) :
    app.sealed_ run.packetId = run.sealed_ := by
  cases has : run.sealed_ with
  | some sealed_ => exact stored.sealing sealed_ has
  | none =>
      cases held : app.sealed_ run.packetId with
      | none => rfl
      | some sealed_ =>
          obtain ⟨owner, amongToo, same, sealedBy⟩ :=
            owned.seals run.packetId sealed_ held
          rw [distinct.packet_eq amongToo among same, has] at sealedBy
          cases sealedBy

theorem Owned.mono {more : List Run} (owned : Owned services app runs)
    (subset : runs ⊆ more) : Owned services app more where
  reports id report held := by
    obtain ⟨run, among, left⟩ := owned.reports id report held
    exact ⟨run, subset among, left⟩
  packets id packet held := by
    obtain ⟨run, among, left⟩ := owned.packets id packet held
    exact ⟨run, subset among, left⟩
  seals id sealed_ held := by
    obtain ⟨run, among, left⟩ := owned.seals id sealed_ held
    exact ⟨run, subset among, left⟩

theorem nodup_map_append {κ : Type} {key : Run → κ}
    (nodup : (runs.map key).Nodup)
    (new : ∀ other ∈ runs, key other ≠ key run) :
    ((runs ++ [run]).map key).Nodup := by
  rw [List.map_append]
  apply nodup.append (List.nodup_singleton _)
  intro id held drawn
  obtain ⟨other, among, rfl⟩ := List.mem_map.mp held
  exact new other among (List.mem_singleton.mp drawn)

theorem Distinct.append (distinct : Distinct runs)
    (runIds : ∀ other ∈ runs, other.runId ≠ run.runId)
    (packetIds : ∀ other ∈ runs, other.packetId ≠ run.packetId) :
    Distinct (runs ++ [run]) :=
  ⟨nodup_map_append distinct.runIds runIds,
    nodup_map_append distinct.packetIds packetIds⟩

end

variable [FloatTexts] [Chrono]

/-- What asking for a run is answered with. -/
inductive Gives (services : Services ρ) (run : Run) :
    Request → Response ρ → Prop where
  | report : Gives services run (.getReport run.runId)
      (.report (services.report run.packet.packet))
  | pdf : Gives services run (.getPacketPdf run.packetId)
      (packetPdf services run.packet)
  | json (operatorEmail : Option Str) :
      Gives services run (.getPacketJson run.packetId)
        (packetJson operatorEmail run.packet run.sealed_)

/-- What a request is answered with in between, when the packet is there and
the seal is not. -/
inductive GivesUnsealed (run : Run) : Request → Response ρ → Prop where
  | json (operatorEmail : Option Str) :
      GivesUnsealed run (.getPacketJson run.packetId)
        (packetJson operatorEmail run.packet none)

omit [FloatTexts] [Chrono] in
/-- What asking for no run is answered with. -/
inductive NotFound : Request → Response ρ → Prop where
  | report (runId : Uuid) : NotFound (.getReport runId)
      (.error 404 "run_id not found".toList)
  | pdf (packetId : Uuid) : NotFound (.getPacketPdf packetId)
      (packetNotFound packetId)
  | json (packetId : Uuid) : NotFound (.getPacketJson packetId)
      (packetNotFound packetId)

/-- Where a handler can stand. -/
inductive Sound (services : Services ρ) (app : AppState σ ρ) (runs : List Run) :
    Handler ρ → Prop where
  | waiting (request : Request) : Sound services app runs ⟨request, .waiting⟩
  | storeRun {req : PostInvoiceRequest} {run : Run} (among : run ∈ runs) :
      Sound services app runs ⟨.postInvoices req, .storeRun run⟩
  | storePacket {req : PostInvoiceRequest} {run : Run} (among : run ∈ runs)
      (report : app.reports run.runId =
        some (services.report run.packet.packet)) :
      Sound services app runs ⟨.postInvoices req, .storePacket run⟩
  | storeSealed {req : PostInvoiceRequest} {run : Run} {sealed_ : SealedPacket}
      (among : run ∈ runs) (has : run.sealed_ = some sealed_)
      (report : app.reports run.runId =
        some (services.report run.packet.packet))
      (packet : app.packets run.packetId = some run.packet) :
      Sound services app runs ⟨.postInvoices req, .storeSealed run sealed_⟩
  | posted {req : PostInvoiceRequest} {run : Run} (among : run ∈ runs)
      (stored : Stored services app run) :
      Sound services app runs
        ⟨.postInvoices req, .answered (posted services run)⟩
  | readSealed {run : Run} (among : run ∈ runs) :
      Sound services app runs
        ⟨.getPacketJson run.packetId, .readSealed run.packet⟩
  | failed {req : PostInvoiceRequest} (text : Str) :
      Sound services app runs
        ⟨.postInvoices req, .answered (.error 500 text)⟩
  | missing {request : Request} {response : Response ρ}
      (notFound : NotFound request response) :
      Sound services app runs ⟨request, .answered response⟩
  | given {run : Run} {request : Request} {response : Response ρ}
      (among : run ∈ runs) (gives : Gives services run request response) :
      Sound services app runs ⟨request, .answered response⟩
  | unsealed {run : Run} {request : Request} {response : Response ρ}
      (among : run ∈ runs) (gives : GivesUnsealed run request response) :
      Sound services app runs ⟨request, .answered response⟩

omit [FloatTexts] [Chrono] in
/-- Nothing is stored that is asked for. -/
def Missing (app : AppState σ ρ) : Request → Prop
  | .postInvoices _ => True
  | .getReport runId => app.reports runId = none
  | .getPacketPdf packetId | .getPacketJson packetId =>
      app.packets packetId = none

/-- What is read off the stores as they are: nothing, or what one run left, or
its packet alone where its seal is still to come. -/
def Reads (services : Services ρ) (app : AppState σ ρ) (runs : List Run)
    (request : Request) (response : Response ρ) : Prop :=
  NotFound request response ∧ Missing app request ∨
    ∃ run ∈ runs, Gives services run request response ∨
      GivesUnsealed run request response ∧ run.sealed_.isSome ∧
        app.sealed_ run.packetId = none

theorem Sound.grows {before after : AppState σ ρ} {runs more : List Run}
    {handler : Handler ρ} (sound : Sound services before runs handler)
    (grows : Grows before after) (subset : runs ⊆ more) :
    Sound services after more handler := by
  cases sound with
  | waiting request => exact .waiting request
  | storeRun among => exact .storeRun (subset among)
  | storePacket among report =>
      exact .storePacket (subset among) (grows.reports _ _ report)
  | storeSealed among has report packet =>
      exact .storeSealed (subset among) has (grows.reports _ _ report)
        (grows.packets _ _ packet)
  | posted among stored => exact .posted (subset among) (stored.grows grows)
  | readSealed among => exact .readSealed (subset among)
  | failed text => exact .failed text
  | missing notFound => exact .missing notFound
  | given among gives => exact .given (subset among) gives
  | unsealed among gives => exact .unsealed (subset among) gives

/-- What a turn leaves. -/
structure Turned (services : Services ρ) (before after : AppState σ ρ)
    (runs : List Run) (handler : Handler ρ) : Prop where
  owned : Owned services after runs
  grows : Grows before after
  sound : Sound services after runs handler

section

variable {app after : AppState σ ρ} {runs : List Run} {handler : Handler ρ}
  {phase : Phase ρ} {operatorEmail : Option Str}

theorem turned_of_unchanged (owned : Owned services app runs)
    {handler : Handler ρ} (sound : Sound services app runs handler) :
    Turned services app app runs handler :=
  ⟨owned, .refl app, sound⟩

theorem turned_of_waiting (owned : Owned services app runs)
    {request : Request}
    (turns : turn services operatorEmail app ⟨request, .waiting⟩ =
      some (after, phase)) :
    Turned services app after runs ⟨request, phase⟩ := by
  cases request with
  | postInvoices req => cases turns
  | getReport runId =>
      cases held : app.reports runId with
      | none =>
          simp only [turn, held] at turns
          cases turns
          exact turned_of_unchanged owned (.missing (.report runId))
      | some report =>
          simp only [turn, held] at turns
          cases turns
          obtain ⟨run, among, rfl, rfl⟩ := owned.reports runId report held
          exact turned_of_unchanged owned (.given among .report)
  | getPacketPdf packetId =>
      cases held : app.packets packetId with
      | none =>
          simp only [turn, held] at turns
          cases turns
          exact turned_of_unchanged owned (.missing (.pdf packetId))
      | some packet =>
          simp only [turn, held] at turns
          cases turns
          obtain ⟨run, among, rfl, rfl⟩ := owned.packets packetId packet held
          exact turned_of_unchanged owned (.given among .pdf)
  | getPacketJson packetId =>
      cases held : app.packets packetId with
      | none =>
          simp only [turn, held] at turns
          cases turns
          exact turned_of_unchanged owned (.missing (.json packetId))
      | some packet =>
          simp only [turn, held] at turns
          cases turns
          obtain ⟨run, among, rfl, rfl⟩ := owned.packets packetId packet held
          exact turned_of_unchanged owned (.readSealed among)

theorem turned_of_readSealed (owned : Owned services app runs)
    (distinct : Distinct runs) {run : Run} (among : run ∈ runs) :
    Turned services app app runs ⟨.getPacketJson run.packetId,
      .answered (packetJson operatorEmail run.packet
        (app.sealed_ run.packetId))⟩ := by
  apply turned_of_unchanged owned
  cases held : app.sealed_ run.packetId with
  | none => exact .unsealed among (.json operatorEmail)
  | some sealed_ =>
      obtain ⟨owner, amongToo, same, has⟩ :=
        owned.seals run.packetId sealed_ held
      rw [distinct.packet_eq amongToo among same] at has
      rw [← has]
      exact .given among (.json operatorEmail)

theorem turned_of_storeRun (owned : Owned services app runs)
    (distinct : Distinct runs) {req : PostInvoiceRequest} {run : Run}
    (among : run ∈ runs) :
    Turned services app { app with
      reports := Function.update app.reports run.runId
        (some (services.report run.packet.packet)) } runs
      ⟨.postInvoices req, .storePacket run⟩ where
  owned :=
    { reports := forall_update ⟨run, among, rfl, rfl⟩ owned.reports
      packets := owned.packets
      seals := owned.seals }
  grows :=
    { reports := by
        apply update_keeps
        intro old held
        obtain ⟨owner, amongToo, same, rfl⟩ := owned.reports _ old held
        rw [distinct.run_eq amongToo among same]
      packets := fun _ _ held => held
      seals := fun _ _ held => held }
  sound := .storePacket among (Function.update_self _ _ _)

omit [FloatTexts] [Chrono] in
theorem packets_grow (owned : Owned services app runs)
    (distinct : Distinct runs) {run : Run} (among : run ∈ runs) :
    Owned services { app with
        packets := Function.update app.packets run.packetId (some run.packet) }
      runs ∧
    Grows app { app with
      packets := Function.update app.packets run.packetId (some run.packet) } := by
  refine ⟨⟨owned.reports, forall_update ⟨run, among, rfl, rfl⟩ owned.packets,
    owned.seals⟩, ⟨fun _ _ held => held, ?_, fun _ _ held => held⟩⟩
  apply update_keeps
  intro old held
  obtain ⟨owner, amongToo, same, rfl⟩ := owned.packets _ old held
  rw [distinct.packet_eq amongToo among same]

theorem turned_of_storePacket (owned : Owned services app runs)
    (distinct : Distinct runs) {req : PostInvoiceRequest} {run : Run}
    (among : run ∈ runs)
    (report : app.reports run.runId =
      some (services.report run.packet.packet)) :
    Turned services app { app with
      packets := Function.update app.packets run.packetId (some run.packet) }
      runs ⟨.postInvoices req, match run.sealed_ with
        | none => .answered (posted services run)
        | some sealed_ => .storeSealed run sealed_⟩ := by
  obtain ⟨owned, grows⟩ := packets_grow owned distinct among
  refine ⟨owned, grows, ?_⟩
  cases has : run.sealed_ with
  | none =>
      apply Sound.posted among
      exact ⟨report, Function.update_self _ _ _, by simp [has]⟩
  | some sealed_ =>
      exact .storeSealed among has report (Function.update_self _ _ _)

theorem turned_of_storeSealed (owned : Owned services app runs)
    (distinct : Distinct runs) {req : PostInvoiceRequest} {run : Run}
    {sealed_ : SealedPacket} (among : run ∈ runs)
    (has : run.sealed_ = some sealed_)
    (report : app.reports run.runId =
      some (services.report run.packet.packet))
    (packet : app.packets run.packetId = some run.packet) :
    Turned services app { app with
      sealed_ := Function.update app.sealed_ run.packetId (some sealed_) } runs
      ⟨.postInvoices req, .answered (posted services run)⟩ where
  owned :=
    { reports := owned.reports
      packets := owned.packets
      seals := forall_update ⟨run, among, rfl, has⟩ owned.seals }
  grows :=
    { reports := fun _ _ held => held
      packets := fun _ _ held => held
      seals := by
        apply update_keeps
        intro old held
        obtain ⟨owner, amongToo, same, sealedBy⟩ := owned.seals _ old held
        rw [distinct.packet_eq amongToo among same, has] at sealedBy
        exact (Option.some.inj sealedBy).symm }
  sound := by
    apply Sound.posted among
    refine ⟨report, packet, fun other hasToo => ?_⟩
    rw [Option.some.inj (has.symm.trans hasToo)]
    exact Function.update_self _ _ _

theorem reads_of_waiting (owned : Owned services app runs) {request : Request}
    {response : Response ρ}
    (turns : turn services operatorEmail app ⟨request, .waiting⟩ =
      some (after, .answered response)) :
    Reads services app runs request response := by
  cases request with
  | postInvoices req => cases turns
  | getReport runId =>
      cases held : app.reports runId with
      | none =>
          simp only [turn, held] at turns
          cases turns
          exact .inl ⟨.report runId, held⟩
      | some report =>
          simp only [turn, held] at turns
          cases turns
          obtain ⟨run, among, rfl, rfl⟩ := owned.reports runId report held
          exact .inr ⟨run, among, .inl .report⟩
  | getPacketPdf packetId =>
      cases held : app.packets packetId with
      | none =>
          simp only [turn, held] at turns
          cases turns
          exact .inl ⟨.pdf packetId, held⟩
      | some packet =>
          simp only [turn, held] at turns
          cases turns
          obtain ⟨run, among, rfl, rfl⟩ := owned.packets packetId packet held
          exact .inr ⟨run, among, .inl .pdf⟩
  | getPacketJson packetId =>
      cases held : app.packets packetId with
      | none =>
          simp only [turn, held] at turns
          cases turns
          exact .inl ⟨.json packetId, held⟩
      | some packet =>
          simp only [turn, held] at turns
          cases turns

theorem reads_of_readSealed (owned : Owned services app runs)
    (distinct : Distinct runs) {run : Run} (among : run ∈ runs) :
    Reads services app runs (.getPacketJson run.packetId)
      (packetJson operatorEmail run.packet (app.sealed_ run.packetId)) := by
  refine .inr ⟨run, among, ?_⟩
  cases held : app.sealed_ run.packetId with
  | none =>
      cases has : run.sealed_ with
      | none =>
          have gives : Gives services run (.getPacketJson run.packetId)
              (packetJson operatorEmail run.packet run.sealed_) := .json _
          exact .inl (has ▸ gives)
      | some sealed_ => exact .inr ⟨.json operatorEmail, rfl, rfl⟩
  | some sealed_ =>
      obtain ⟨owner, amongToo, same, has⟩ :=
        owned.seals run.packetId sealed_ held
      rw [distinct.packet_eq amongToo among same] at has
      rw [← has]
      exact .inl (.json operatorEmail)

/-- An answer is read off the stores in the turn that gives it. -/
theorem reads_of_turn (owned : Owned services app runs)
    (distinct : Distinct runs) (sound : Sound services app runs handler)
    (asks : ∀ req, handler.request ≠ .postInvoices req)
    {response : Response ρ}
    (turns : turn services operatorEmail app handler =
      some (after, .answered response)) :
    Reads services app runs handler.request response := by
  cases sound with
  | waiting request => exact reads_of_waiting owned turns
  | storeRun among => exact absurd rfl (asks _)
  | storePacket among report => exact absurd rfl (asks _)
  | storeSealed among has report packet => exact absurd rfl (asks _)
  | posted among stored => cases turns
  | readSealed among =>
      cases turns
      exact reads_of_readSealed owned distinct among
  | failed text => cases turns
  | missing notFound => cases turns
  | given among gives => cases turns
  | unsealed among gives => cases turns

theorem turned (owned : Owned services app runs) (distinct : Distinct runs)
    (sound : Sound services app runs handler)
    (turns : turn services operatorEmail app handler = some (after, phase)) :
    Turned services app after runs ⟨handler.request, phase⟩ := by
  cases sound with
  | waiting request => exact turned_of_waiting owned turns
  | storeRun among =>
      cases turns
      exact turned_of_storeRun owned distinct among
  | storePacket among report =>
      cases turns
      exact turned_of_storePacket owned distinct among report
  | storeSealed among has report packet =>
      cases turns
      exact turned_of_storeSealed owned distinct among has report packet
  | posted among stored => cases turns
  | readSealed among =>
      cases turns
      exact turned_of_readSealed owned distinct among
  | failed text => cases turns
  | missing notFound => cases turns
  | given among gives => cases turns
  | unsealed among gives => cases turns

end

end

/-! ## Steps -/

section

variable {σ ρ : Type} {services : Services ρ}

/-- Another orchestrator in front of the same stores. -/
def Server.withOrchestrator (server : Server σ ρ)
    (orchestrator : Orchestrator σ) : Server σ ρ :=
  { server with app := { server.app with orchestrator } }

variable [FloatTexts] [Chrono]

structure Coherent (services : Services ρ) (server : Server σ ρ) : Prop where
  distinct : Distinct server.runs
  owned : Owned services server.app server.runs
  sound : ∀ handler, ∀ held ∈ server.handlers handler,
    Sound services server.app server.runs held

theorem coherent_new (orchestrator : Orchestrator σ) :
    Coherent services (Server.new orchestrator : Server σ ρ) where
  distinct := ⟨List.nodup_nil, List.nodup_nil⟩
  owned := by
    constructor
    · intro id report held
      cases held
    · intro id packet held
      cases held
    · intro id sealed_ held
      cases held
  sound handler held found := by cases found

variable {before after server : Server σ ρ}

theorem Coherent.grows (coherent : Coherent services server)
    {app : AppState σ ρ} {runs : List Run} (distinct : Distinct runs)
    (owned : Owned services app runs) (grows : Grows server.app app)
    (subset : server.runs ⊆ runs) :
    Coherent services { server with app, runs } where
  distinct := distinct
  owned := owned
  sound handler held found :=
    (coherent.sound handler held found).grows grows subset

theorem Coherent.withOrchestrator (coherent : Coherent services server)
    (orchestrator : Orchestrator σ) :
    Coherent services (server.withOrchestrator orchestrator) := by
  apply coherent.grows coherent.distinct
  · exact ⟨coherent.owned.reports, coherent.owned.packets,
      coherent.owned.seals⟩
  · exact ⟨fun _ _ held => held, fun _ _ held => held, fun _ _ held => held⟩
  · exact List.Subset.refl _

theorem Coherent.move (coherent : Coherent services server) {handler : Nat}
    {held : Handler ρ} (sound : Sound services server.app server.runs held) :
    Coherent services (server.move handler held) where
  distinct := coherent.distinct
  owned := coherent.owned
  sound := by
    apply @forall_update _ _ _ _ _ _
      fun _ => Sound services server.app server.runs
    · exact sound
    · exact coherent.sound

variable [Blake3] [Crates] [Signing] [BandRoom σ]

/-- What one event does to a server. -/
inductive Moves (services : Services ρ) (server : Server σ ρ) :
    Event σ → Server σ ρ → Prop where
  | accept {handler : Nat} {request : Request}
      (free : server.handlers handler = none) :
      Moves services server (.accept handler request)
        (server.move handler ⟨request, .waiting⟩)
  | failed {handler : Nat} {host : RunHost} {req : PostInvoiceRequest}
      {e : OrchestratorError} {orchestrator : Orchestrator σ}
      (held : server.handlers handler = some ⟨.postInvoices req, .waiting⟩) :
      Moves services server (.process handler host)
        ((server.withOrchestrator orchestrator).move handler
          ⟨.postInvoices req, .answered (.error 500 (services.debugError e))⟩)
  | processed {handler : Nat} {host : RunHost} {req : PostInvoiceRequest}
      {packet : SignedPacket} {sealed_ : Option SealedPacket}
      {orchestrator : Orchestrator σ}
      (held : server.handlers handler = some ⟨.postInvoices req, .waiting⟩)
      (made : process server.app.orchestrator req host =
        (.ok (packet, sealed_), orchestrator)) :
      Moves services server (.process handler host)
        (Server.move
          { server.withOrchestrator orchestrator with
            runs := server.runs ++ [⟨host.runId, packet, sealed_⟩] }
          handler ⟨.postInvoices req, .storeRun ⟨host.runId, packet, sealed_⟩⟩)
  | turn {handler : Nat} {operatorEmail : Option Str} {held : Handler ρ}
      {app : AppState σ ρ} {phase : Phase ρ}
      (found : server.handlers handler = some held)
      (turns : turn services operatorEmail server.app held =
        some (app, phase)) :
      Moves services server (.turn handler operatorEmail)
        ({ server with app }.move handler ⟨held.request, phase⟩)
  | elsewhere (orchestrator : Orchestrator σ) :
      Moves services server (.elsewhere orchestrator)
        (server.withOrchestrator orchestrator)

theorem moves_of_step {event : Event σ}
    (moved : step services before event = some after) :
    Moves services before event after := by
  cases event with
  | accept handler request =>
      rw [step] at moved
      cases free : before.handlers handler with
      | some held => simp [free] at moved
      | none =>
          simp only [free, Option.some.injEq] at moved
          exact moved ▸ .accept free
  | process handler host =>
      rw [step] at moved
      split at moved
      · rename_i req held
        cases made : process before.app.orchestrator req host with
        | mk result orchestrator =>
            simp only [made] at moved
            cases result with
            | error e =>
                exact Option.some.inj moved ▸ .failed held
            | ok left =>
                exact Option.some.inj moved ▸ .processed held made
      · cases moved
  | turn handler operatorEmail =>
      rw [step] at moved
      cases found : before.handlers handler with
      | none => simp [found] at moved
      | some held =>
          simp only [found] at moved
          cases turns : turn services operatorEmail before.app held with
          | none => simp [turns] at moved
          | some result =>
              simp only [turns] at moved
              exact Option.some.inj moved ▸ .turn found turns
  | elsewhere orchestrator =>
      exact Option.some.inj moved ▸ .elsewhere orchestrator

/-- The identifiers that a run draws are those of no other run. -/
def DrawsNew (before : Server σ ρ) (event : Event σ) (_ : Server σ ρ) : Prop :=
  match event with
  | .process _ host => ∀ run ∈ before.runs,
      run.runId ≠ host.runId ∧ run.packetId ≠ host.invocation.packetId
  | _ => True

omit [Chrono] in
/-- The packet carries the id that was drawn for it. -/
theorem packetId_of_processInvoice {orchestrator left : Orchestrator σ}
    {invocation : Invocation} {packet : SignedPacket}
    (made : orchestrator.processInvoice invocation = (.ok packet, left)) :
    packet.packet.packetId = invocation.packetId := by
  have returns := Orchestrator.processInvoice_returns orchestrator invocation
  rw [made] at returns
  cases returns with
  | whole starts ends whole assembled => exact assembled ▸ rfl
  | cut starts ends early kept => rfl

omit [Chrono] in
theorem processInvoice_of_sealed {orchestrator left : Orchestrator σ}
    {invocation : Invocation} {packet : SignedPacket}
    {sealed_ : Option SealedPacket}
    (made : orchestrator.processInvoiceSealed invocation =
      (.ok (packet, sealed_), left)) :
    ∃ kept, orchestrator.processInvoice invocation = (.ok packet, kept) := by
  rw [Orchestrator.processInvoiceSealed] at made
  cases processed : orchestrator.processInvoice invocation with
  | mk result kept =>
      simp only [processed] at made
      cases result with
      | error e => cases made
      | ok signed =>
          cases sealing : kept.sealSigned invocation signed with
          | mk result left =>
              simp only [sealing] at made
              cases result with
              | error e => cases made
              | ok sealed_ =>
                  cases made
                  exact ⟨kept, rfl⟩

omit [Chrono] in
theorem packetId_of_process {orchestrator left : Orchestrator σ}
    {req : PostInvoiceRequest} {host : RunHost} {packet : SignedPacket}
    {sealed_ : Option SealedPacket}
    (made : process orchestrator req host = (.ok (packet, sealed_), left)) :
    packet.packet.packetId = host.invocation.packetId := by
  rw [process] at made
  dsimp only at made
  split at made
  · obtain ⟨kept, processed⟩ := processInvoice_of_sealed made
    have same := packetId_of_processInvoice processed
    exact same
  · split at made
    · cases made
    · rename_i processed
      cases made
      have same := packetId_of_processInvoice processed
      exact same

/-- What a server has left behind, the other one holds. -/
structure Extends (before after : Server σ ρ) : Prop where
  grows : Grows before.app after.app
  runs : before.runs ⊆ after.runs

theorem coherent_step {event : Event σ} (coherent : Coherent services before)
    (moved : step services before event = some after)
    (new : DrawsNew before event after) :
    Coherent services after ∧ Extends before after := by
  have unchanged : Grows before.app before.app := .refl before.app
  cases moves_of_step moved with
  | accept free =>
      exact ⟨coherent.move (.waiting _), unchanged, List.Subset.refl _⟩
  | failed held =>
      exact ⟨(coherent.withOrchestrator _).move (.failed _),
        ⟨unchanged.reports, unchanged.packets, unchanged.seals⟩,
        List.Subset.refl _⟩
  | @processed handler host req packet sealed_ orchestrator held made =>
      have subset : before.runs ⊆
          before.runs ++ [⟨host.runId, packet, sealed_⟩] :=
        List.subset_append_left _ _
      have same := packetId_of_process made
      have distinct : Distinct
          (before.runs ++ [⟨host.runId, packet, sealed_⟩]) :=
        coherent.distinct.append (fun other among => (new other among).1)
          fun other among drawn => (new other among).2 (drawn.trans same)
      have behind := coherent.withOrchestrator orchestrator
      have more := behind.grows distinct (behind.owned.mono subset)
        (.refl _) subset
      apply And.intro
      · apply more.move
        exact .storeRun (List.mem_append_right _ (List.mem_singleton_self _))
      · exact ⟨⟨unchanged.reports, unchanged.packets, unchanged.seals⟩, subset⟩
  | @turn handler operatorEmail held app phase found turns =>
      obtain ⟨owned, grows, sound⟩ := turned coherent.owned coherent.distinct
        (coherent.sound handler held found) turns
      have subset := List.Subset.refl before.runs
      exact ⟨(coherent.grows coherent.distinct owned grows subset).move sound,
        grows, subset⟩
  | elsewhere orchestrator =>
      exact ⟨coherent.withOrchestrator orchestrator,
        ⟨unchanged.reports, unchanged.packets, unchanged.seals⟩,
        List.Subset.refl _⟩

/-! ## Runs of the server -/

theorem coherent_of_run {events : List (Event σ)}
    (coherent : Coherent services before)
    (draws : EachStep (step services) DrawsNew before events)
    (reached : runFrom (step services) before events = some after) :
    Coherent services after :=
  draws.keeps (fun _ _ _ coherent moved new =>
    (coherent_step coherent moved new).1) coherent reached

omit [FloatTexts] [Chrono] [Blake3] [Crates] [Signing] [BandRoom σ] in
theorem move_self (handler : Nat) (held : Handler ρ) :
    (server.move handler held).handlers handler = some held :=
  Function.update_self _ _ _

omit [FloatTexts] [Chrono] [Blake3] [Crates] [Signing] [BandRoom σ] in
theorem move_of_ne {handler other : Nat} (held : Handler ρ)
    (different : other ≠ handler) :
    (server.move handler held).handlers other = server.handlers other :=
  Function.update_of_ne different _ _

/-- The answer is given in some turn of the handler. -/
def TurnGives (services : Services ρ) (start : Server σ ρ)
    (events : List (Event σ)) (handler : Nat) (request : Request)
    (response : Response ρ) : Prop :=
  ∃ past operatorEmail later reading phase app,
    events = past ++ .turn handler operatorEmail :: later ∧
    runFrom (step services) start past = some reading ∧
    reading.handlers handler = some ⟨request, phase⟩ ∧
    turn services operatorEmail reading.app ⟨request, phase⟩ =
      some (app, .answered response)

theorem TurnGives.append {start : Server σ ρ} {events : List (Event σ)}
    {handler : Nat} {request : Request} {response : Response ρ}
    (gives : TurnGives services start events handler request response)
    (event : Event σ) :
    TurnGives services start (events ++ [event]) handler request response := by
  obtain ⟨past, operatorEmail, later, reading, phase, app, split, rest⟩ := gives
  refine ⟨past, operatorEmail, later ++ [event], reading, phase, app, ?_, rest⟩
  rw [split, List.append_assoc, List.cons_append]

/-- Whoever is answered has had a turn in which the answer was given. -/
theorem turnGives_of_answered {orchestrator : Orchestrator σ}
    {events : List (Event σ)} {handler : Nat} {request : Request}
    {response : Response ρ}
    (reached : runFrom (step services) (.new orchestrator) events = some server)
    (asks : ∀ req, request ≠ .postInvoices req)
    (answered : server.handlers handler =
      some ⟨request, .answered response⟩) :
    TurnGives services (.new orchestrator) events handler request response := by
  induction events using List.reverseRecOn generalizing server with
  | nil =>
      obtain rfl := Option.some.inj reached
      cases answered
  | append_singleton events event induction =>
      rw [runFrom_append, Option.bind_eq_some_iff] at reached
      obtain ⟨before, first, last⟩ := reached
      have moved : step services before event = some server := by
        cases happens : step services before event with
        | none => simp [runFrom, happens] at last
        | some next => simpa [runFrom, happens] using last
      -- an event of another handler leaves the answer to the run before it
      have earlier (kept : before.handlers handler = server.handlers handler) :
          TurnGives services (.new orchestrator) (events ++ [event]) handler
            request response :=
        (induction first (kept.trans answered)).append event
      cases moves_of_step moved with
      | @accept other _ free =>
          by_cases same : handler = other
          · subst same
            rw [move_self] at answered
            cases answered
          · exact earlier (move_of_ne _ same).symm
      | @failed other _ _ _ _ held =>
          by_cases same : handler = other
          · subst same
            rw [move_self] at answered
            cases answered
            exact absurd rfl (asks _)
          · exact earlier (move_of_ne _ same).symm
      | @processed other _ _ _ _ _ held made =>
          by_cases same : handler = other
          · subst same
            rw [move_self] at answered
            cases answered
          · exact earlier (move_of_ne _ same).symm
      | @turn other operatorEmail held app phase found turns =>
          by_cases same : handler = other
          · subst same
            rw [move_self] at answered
            obtain ⟨request, before_⟩ := held
            cases answered
            exact ⟨events, operatorEmail, [], before, before_, app, rfl, first,
              found, turns⟩
          · exact earlier (move_of_ne _ same).symm
      | elsewhere orchestrator => exact earlier rfl

/-- Whoever asks is answered, in some turn, with what one run had left by then,
or with nothing: a packet never comes with the seal of another run, and comes
without its own only in a turn before this is stored. -/
theorem answered_of_run {orchestrator : Orchestrator σ}
    {events : List (Event σ)} {handler : Nat} {request : Request}
    {response : Response ρ}
    (draws : EachStep (step services) DrawsNew (.new orchestrator) events)
    (reached : runFrom (step services) (.new orchestrator) events = some server)
    (asks : ∀ req, request ≠ .postInvoices req)
    (answered : server.handlers handler =
      some ⟨request, .answered response⟩) :
    ∃ past operatorEmail later reading,
      events = past ++ .turn handler operatorEmail :: later ∧
      runFrom (step services) (.new orchestrator) past = some reading ∧
      Reads services reading.app reading.runs request response := by
  obtain ⟨past, operatorEmail, later, reading, phase, app, split, first, held,
    turns⟩ := turnGives_of_answered reached asks answered
  refine ⟨past, operatorEmail, later, reading, split, first, ?_⟩
  rw [split] at draws
  have coherent := coherent_of_run (coherent_new orchestrator)
    (eachStep_append.mp draws).1 first
  exact reads_of_turn coherent.owned coherent.distinct
    (coherent.sound handler _ held) asks turns

inductive Asks (run : Run) : Request → Prop where
  | report : Asks run (.getReport run.runId)
  | pdf : Asks run (.getPacketPdf run.packetId)
  | json : Asks run (.getPacketJson run.packetId)

/-- Where a handler can stand that asks for a run behind its answer. -/
inductive Serves (services : Services ρ) (run : Run) : Handler ρ → Prop where
  | other (handler : Handler ρ) (unasked : ¬ Asks run handler.request) :
      Serves services run handler
  | waiting (request : Request) : Serves services run ⟨request, .waiting⟩
  | readSealed : Serves services run
      ⟨.getPacketJson run.packetId, .readSealed run.packet⟩
  | given {request : Request} {response : Response ρ}
      (gives : Gives services run request response) :
      Serves services run ⟨request, .answered response⟩

omit [Blake3] [Crates] [Signing] [BandRoom σ] in
theorem serves_of_turn {run : Run} {app turned : AppState σ ρ}
    {runs : List Run} {handler : Handler ρ} {phase : Phase ρ}
    {operatorEmail : Option Str} (owned : Owned services app runs)
    (distinct : Distinct runs) (among : run ∈ runs)
    (stored : Stored services app run) (serves : Serves services run handler)
    (turns : turn services operatorEmail app handler = some (turned, phase)) :
    Serves services run ⟨handler.request, phase⟩ := by
  cases serves with
  | other handler unasked => exact .other _ unasked
  | waiting request =>
      by_cases asks : Asks run request
      · cases asks with
        | report =>
            simp only [turn, stored.report] at turns
            cases turns
            exact .given .report
        | pdf =>
            simp only [turn, stored.packet] at turns
            cases turns
            exact .given .pdf
        | json =>
            simp only [turn, stored.packet] at turns
            cases turns
            exact .readSealed
      · exact .other _ asks
  | readSealed =>
      simp only [turn, stored.sealed_eq owned distinct among] at turns
      cases turns
      exact .given (.json operatorEmail)
  | given gives => cases turns

/-- A server behind the answer of a run, with a reader that came then. -/
structure Behind (services : Services ρ) (run : Run) (reader : Nat)
    (server : Server σ ρ) : Prop where
  coherent : Coherent services server
  among : run ∈ server.runs
  stored : Stored services server.app run
  serves : ∀ held ∈ server.handlers reader, Serves services run held

omit [Blake3] [Crates] [Signing] [BandRoom σ] in
theorem serves_of_move {run : Run} {reader handler : Nat} {held : Handler ρ}
    (serves : ∀ found ∈ server.handlers reader, Serves services run found)
    (moved : reader = handler → Serves services run held) :
    ∀ found ∈ (server.move handler held).handlers reader,
      Serves services run found := by
  intro found has
  change found ∈ Function.update server.handlers handler (some held) reader
    at has
  by_cases same : reader = handler
  · rw [same, Function.update_self] at has
    exact Option.some.inj has ▸ moved same
  · rw [Function.update_of_ne same] at has
    exact serves found has

theorem serves_of_moves {run : Run} {reader : Nat} {event : Event σ}
    (behind : Behind services run reader before)
    (moves : Moves services before event after) :
    ∀ held ∈ after.handlers reader, Serves services run held := by
  cases moves with
  | accept free => exact serves_of_move behind.serves fun _ => .waiting _
  | failed held =>
      apply serves_of_move behind.serves
      intro same
      apply Serves.other
      intro asks
      cases asks
  | processed held made =>
      apply serves_of_move behind.serves
      intro same
      apply Serves.other
      intro asks
      cases asks
  | turn found turns =>
      apply serves_of_move behind.serves
      intro same
      have serves := behind.serves _ (same ▸ found)
      exact serves_of_turn behind.coherent.owned behind.coherent.distinct
        behind.among behind.stored serves turns
  | elsewhere orchestrator => exact behind.serves

theorem behind_step {run : Run} {reader : Nat} {event : Event σ}
    (behind : Behind services run reader before)
    (moved : step services before event = some after)
    (new : DrawsNew before event after) : Behind services run reader after := by
  obtain ⟨coherent, extends_⟩ := coherent_step behind.coherent moved new
  exact {
    coherent
    among := extends_.runs behind.among
    stored := behind.stored.grows extends_.grows
    serves := serves_of_moves behind (moves_of_step moved) }

omit [Blake3] [Crates] [Signing] [BandRoom σ] in
/-- The answer of a run is the last that its handler does. -/
theorem stored_of_posted {app : AppState σ ρ} {runs : List Run}
    {req : PostInvoiceRequest} {runId packetId : Uuid} {report : ρ}
    (sound : Sound services app runs
      ⟨.postInvoices req, .answered (.posted runId packetId report)⟩) :
    ∃ run ∈ runs, Stored services app run ∧ run.runId = runId ∧
      run.packetId = packetId ∧
      services.report run.packet.packet = report := by
  generalize same : (.posted runId packetId report : Response ρ) = response
    at sound
  cases sound with
  | @posted req run among stored =>
      obtain ⟨rfl, rfl, rfl⟩ := Response.posted.inj same
      exact ⟨run, among, stored, rfl, rfl, rfl⟩
  | failed text => cases same
  | missing notFound => cases notFound
  | given among gives => cases gives
  | unsealed among gives => cases gives

/-- Who asks for a run behind its answer gets it, with its seal. -/
theorem gives_of_posted {orchestrator : Orchestrator σ}
    {past later : List (Event σ)} {writer reader : Nat}
    {req : PostInvoiceRequest} {runId packetId : Uuid} {report : ρ}
    {request : Request} {response : Response ρ}
    (draws : EachStep (step services) DrawsNew (.new orchestrator)
      (past ++ later))
    (first : runFrom (step services) (.new orchestrator) past = some before)
    (posted : before.handlers writer =
      some ⟨.postInvoices req, .answered (.posted runId packetId report)⟩)
    (fresh : before.handlers reader = none)
    (rest : runFrom (step services) before later = some after)
    (answered : after.handlers reader = some ⟨request, .answered response⟩) :
    ∃ run ∈ before.runs, run.runId = runId ∧ run.packetId = packetId ∧
      services.report run.packet.packet = report ∧
      (Asks run request → Gives services run request response) := by
  obtain ⟨drawsFirst, drawsRest⟩ := eachStep_append.mp draws
  have coherent := coherent_of_run (coherent_new orchestrator) drawsFirst first
  obtain ⟨run, among, stored, ids⟩ :=
    stored_of_posted (coherent.sound writer _ posted)
  have start : Behind services run reader before :=
    { coherent, among, stored
      serves := fun held found => by rw [fresh] at found; cases found }
  have behind : Behind services run reader after :=
    (drawsRest before first).keeps
      (fun _ _ _ behind moved new => behind_step behind moved new) start rest
  refine ⟨run, among, ids.1, ids.2.1, ids.2.2, fun asks => ?_⟩
  have serves := behind.serves _ answered
  cases serves with
  | other handler unasked => exact absurd asks unasked
  | given gives => exact gives

/-! ### Runs and reads on a server -/

theorem step_turn {start : Server σ ρ} {handler : Nat}
    {operatorEmail : Option Str} {held : Handler ρ} {app : AppState σ ρ}
    {phase : Phase ρ} (found : start.handlers handler = some held)
    (turns : turn services operatorEmail start.app held = some (app, phase)) :
    step services start (.turn handler operatorEmail) =
      some ({ start with app }.move handler ⟨held.request, phase⟩) := by
  simp only [step, found, turns]

/-- The server with a run whose report and packet are stored. -/
def Server.withRun (services : Services ρ) (start : Server σ ρ)
    (orchestrator : Orchestrator σ) (run : Run)
    (sealed_ : Uuid → Option SealedPacket) : Server σ ρ where
  app :=
    { orchestrator
      reports := Function.update start.app.reports run.runId
        (some (services.report run.packet.packet))
      packets := Function.update start.app.packets run.packetId
        (some run.packet)
      sealed_ }
  handlers := start.handlers
  runs := start.runs ++ [run]

/-- In front of the last turn of a run with a seal. -/
def Server.storing (services : Services ρ) (start : Server σ ρ) (writer : Nat)
    (req : PostInvoiceRequest) (orchestrator : Orchestrator σ) (run : Run)
    (sealed_ : SealedPacket) : Server σ ρ :=
  (start.withRun services orchestrator run start.app.sealed_).move writer
    ⟨.postInvoices req, .storeSealed run sealed_⟩

/-- Behind the answer of a run with a seal. -/
def Server.finished (services : Services ρ) (start : Server σ ρ) (writer : Nat)
    (req : PostInvoiceRequest) (orchestrator : Orchestrator σ) (run : Run)
    (sealed_ : SealedPacket) : Server σ ρ :=
  (start.withRun services orchestrator run
    (Function.update start.app.sealed_ run.packetId (some sealed_))).move writer
      ⟨.postInvoices req, .answered (posted services run)⟩

/-- The events of a run with a seal, without the last one. -/
def runEvents (writer : Nat) (req : PostInvoiceRequest) (host : RunHost) :
    List (Event σ) :=
  [.accept writer (.postInvoices req), .process writer host, .turn writer none,
    .turn writer none]

section

variable {start : Server σ ρ} {kept : Orchestrator σ} {writer : Nat}
variable {req : PostInvoiceRequest} {host : RunHost} {packet : SignedPacket}
variable {sealed_ : SealedPacket}

variable (services) in
/-- A run on any server, to where its seal is still to be stored. -/
theorem storing_of_process (free : start.handlers writer = none)
    (made : process start.app.orchestrator req host =
      (.ok (packet, some sealed_), kept))
    (new : ∀ run ∈ start.runs, run.runId ≠ host.runId ∧
      run.packetId ≠ host.invocation.packetId) :
    Reached (step services) DrawsNew start (runEvents writer req host)
      (start.storing services writer req kept
        ⟨host.runId, packet, some sealed_⟩ sealed_) := by
  let run : Run := ⟨host.runId, packet, some sealed_⟩
  let first : Server σ ρ := start.move writer ⟨.postInvoices req, .waiting⟩
  have accepted : step services start (.accept writer (.postInvoices req)) =
      some first := by
    simp only [step, free]
    rfl
  let second : Server σ ρ := Server.move
    { first.withOrchestrator kept with runs := start.runs ++ [run] } writer
    ⟨.postInvoices req, .storeRun run⟩
  have processed : step services first (.process writer host) =
      some second := by
    have waits : first.handlers writer = some ⟨.postInvoices req, .waiting⟩ :=
      move_self _ _
    have makes : process first.app.orchestrator req host =
        (.ok (packet, some sealed_), kept) := made
    simp only [step, waits, makes]
    rfl
  let third : Server σ ρ := Server.move
    { second with app := { second.app with
        reports := Function.update start.app.reports run.runId
          (some (services.report packet.packet)) } } writer
    ⟨.postInvoices req, .storePacket run⟩
  have reported : step services second (.turn writer none) = some third :=
    step_turn (move_self _ _) rfl
  have stored : step services third (.turn writer none) =
      some (start.storing services writer req kept run sealed_) := by
    rw [step_turn (move_self _ _) rfl]
    simp only [second, first, Server.storing, Server.withRun,
      Server.withOrchestrator, Server.move, Function.update_idem]
    rfl
  apply Reached.cons accepted trivial
  apply Reached.cons processed new
  apply Reached.cons reported trivial
  exact .cons stored trivial (.nil _)

variable (services) in
/-- A run on any server, from its request to its answer. -/
theorem finished_of_process (free : start.handlers writer = none)
    (made : process start.app.orchestrator req host =
      (.ok (packet, some sealed_), kept))
    (new : ∀ run ∈ start.runs, run.runId ≠ host.runId ∧
      run.packetId ≠ host.invocation.packetId) :
    Reached (step services) DrawsNew start
      (runEvents writer req host ++ [.turn writer none])
      (start.finished services writer req kept
        ⟨host.runId, packet, some sealed_⟩ sealed_) := by
  let run : Run := ⟨host.runId, packet, some sealed_⟩
  have closed : step services (start.storing services writer req kept run sealed_)
      (.turn writer none) =
        some (start.finished services writer req kept run sealed_) := by
    rw [Server.storing, step_turn (move_self _ _) rfl]
    simp only [Server.finished, Server.withRun, Server.move, Function.update_idem]
  exact (storing_of_process services free made new).append
    (.cons closed trivial (.nil _))

end

/-- The events of a read of a packet. -/
def readEvents (reader : Nat) (packetId : Uuid) : List (Event σ) :=
  [.accept reader (.getPacketJson packetId), .turn reader none,
    .turn reader none]

variable (services) in
/-- A packet that is read on any server. -/
theorem exists_read {start : Server σ ρ} {reader : Nat} {packetId : Uuid}
    {packet : SignedPacket} (free : start.handlers reader = none)
    (held : start.app.packets packetId = some packet) :
    ∃ after : Server σ ρ,
      Reached (step services) DrawsNew start (readEvents reader packetId)
        after ∧
      after.runs = start.runs ∧
      after.handlers reader = some ⟨.getPacketJson packetId,
        .answered (packetJson none packet (start.app.sealed_ packetId))⟩ := by
  let first := start.move reader ⟨.getPacketJson packetId, .waiting⟩
  have accepted : step services start
      (.accept reader (.getPacketJson packetId)) = some first := by
    simp only [step, free]
    rfl
  let second := first.move reader ⟨.getPacketJson packetId, .readSealed packet⟩
  have found : step services first (.turn reader none) = some second := by
    apply step_turn (move_self _ _)
    simp only [turn, Server.move, held]
  let third := second.move reader ⟨.getPacketJson packetId,
    .answered (packetJson none packet (start.app.sealed_ packetId))⟩
  have read : step services second (.turn reader none) = some third :=
    step_turn (move_self _ _) rfl
  refine ⟨third, ?_, rfl, move_self _ _⟩
  apply Reached.cons accepted trivial
  apply Reached.cons found trivial
  exact .cons read trivial (.nil _)

end

section

open TrustLayer.Baaar (Outcome)
open TrustLayer.Themis (KeepingBridge RealBandRoom)
open TrustLayer.ThemisEvidence (EvidenceService HashChain RetentionPolicy
  SignerService)

attribute [local instance] sampleFloats sampleHashes sampleCrates
  sampleSigning wireChrono

/-- A run without an agent, with the ids it draws. -/
def bareHost (byte : UInt8) : RunHost where
  runId := Vector.replicate 16 byte
  invocation :=
    { sampleRun noAgents with packetId := Vector.replicate 16 byte }

def bareRequest : PostInvoiceRequest :=
  ⟨"stark".toList, "inv-001".toList, []⟩

/-- The service of the tenant has last sealed when it seals again. -/
structure Ready (orchestrator : Orchestrator (RealBandRoom KeepingBridge)) :
    Prop where
  tenant : orchestrator.tenants "stark".toList ≠ none
  sealing : ∃ services service, orchestrator.services = some services ∧
    services "stark".toList = some service ∧ service.retention = .default ∧
    ∀ entry ∈ service.chain.entries.getLast?,
      entry.createdAtMs = (sampleRun noAgents).sealEnv.appendNowMs

def sealingOrchestrator : Orchestrator (RealBandRoom KeepingBridge) :=
  { sampleOrchestrator with
    services := some fun _ => some (EvidenceService.fromSigner
      (SignerService.fromSeed "stark".toList
        (TlVerify.seedForTenant "stark".toList))
      "https://mock.tsa.local".toList .default) }

theorem sealingOrchestrator_ready : Ready sealingOrchestrator where
  tenant := nofun
  sealing := ⟨_, _, rfl, rfl, rfl, nofun⟩

theorem enforceRetention_at_once {chain : HashChain} {nowMs : Int64}
    (latest : ∀ entry ∈ chain.entries.getLast?, entry.createdAtMs = nowMs)
    (tenantId jurisdiction : Str) :
    chain.enforceRetention .default nowMs tenantId jurisdiction = .ok () := by
  rw [HashChain.enforceRetention]
  cases last : chain.entries.getLast? with
  | none => rfl
  | some entry =>
      dsimp only
      have months : RetentionPolicy.default.effectiveMonths tenantId
          jurisdiction = 6 := rfl
      rw [latest entry last, Int64.sub_self, months, if_neg]
      decide

theorem sealSigned_of_ready
    {orchestrator : Orchestrator (RealBandRoom KeepingBridge)}
    (ready : Ready orchestrator) {run : Invocation}
    (tenant : run.tenantId = "stark".toList)
    (sealEnv : run.sealEnv = (sampleRun noAgents).sealEnv)
    (signed : SignedPacket) :
    ∃ sealed_ after,
      orchestrator.sealSigned run signed = (.ok sealed_, after) ∧
      Ready after := by
  obtain ⟨known, services, service, configured, served, policy, latest⟩ := ready
  have window := enforceRetention_at_once latest service.signer.tenantId
    service.jurisdiction
  rw [← policy] at window
  let after : EvidenceService :=
    { service with
      chain := service.chain.appendWithTimestamp signed.packet.toText
        run.sealEnv.appendNowMs }
  have sealing : service.sealPacket run.invoiceId signed.packet.toText
      signed.rekorEntry run.sealEnv =
        (.ok (after.sealedPacket run.invoiceId signed.packet.toText
          signed.rekorEntry ⟨1781784000, 1000, []⟩ (Vector.replicate 16 0)),
          after) := by
    rw [EvidenceService.sealPacket, sealEnv]
    have window : service.chain.enforceRetention service.retention
        (sampleRun noAgents).sealEnv.retentionNowMs service.signer.tenantId
        service.jurisdiction = .ok () := window
    simp only [window, after, sealEnv]
    rfl
  let hash := Blake3.hash (EvidenceService.canonicalJson signed.packet.toText)
  refine ⟨after.sealedPacket run.invoiceId signed.packet.toText
      signed.rekorEntry ⟨1781784000, 1000, []⟩ (Vector.replicate 16 0),
    { orchestrator.record (.signed (service.signer.signHex hash.toList)) with
      services := some (Function.update services run.tenantId (some after)) },
    ?_, known, _, after, rfl, ?_, policy, ?_⟩
  · rw [Orchestrator.sealSigned, configured]
    simp only [tenant, served, sealing]
    rfl
  · rw [tenant, Function.update_self]
  · intro entry last
    have appended : after.chain.entries.getLast? =
        some (HashChain.nextEntry _ _ _ _) := List.getLast?_concat
    obtain rfl := Option.some.inj (appended.symm.trans last)
    exact congrArg ThemisEvidence.SealEnv.appendNowMs sealEnv

/-- A run behind another one ends with a packet and its seal. -/
theorem process_of_ready
    {orchestrator : Orchestrator (RealBandRoom KeepingBridge)}
    (ready : Ready orchestrator) (byte : UInt8) :
    ∃ packet sealed_ kept, process orchestrator bareRequest (bareHost byte) =
      (.ok (packet, some sealed_), kept) ∧ Ready kept := by
  let run : Invocation := { (bareHost byte).invocation with
    tenantId := bareRequest.tenantId, invoiceId := bareRequest.invoiceId
    raw := (Crates.base64Decode bareRequest.rawB64).getD [] }
  obtain ⟨room, rooms, starts⟩ := @exists_starts orchestrator run ready.tenant
  obtain ⟨after, kept, processed⟩ := Orchestrator.processInvoice_of_cut starts
    (.cut .nil rfl) (Nat.zero_lt_succ 6)
  let signed := after.signedAs (Orchestrator.assemble run [] .approve) run.tenantId
  have still : Ready (after.record (.signed signed.signatureHex)) :=
    ⟨kept.tenants ▸ ready.tenant, kept.services ▸ ready.sealing⟩
  obtain ⟨sealed_, last, sealing, readyLast⟩ :=
    @sealSigned_of_ready _ still run rfl rfl signed
  refine ⟨signed, sealed_, last, ?_, readyLast⟩
  obtain ⟨services, service, configured, -⟩ := ready.sealing
  rw [process, configured, Option.isSome_some, if_pos rfl]
  change orchestrator.processInvoiceSealed run = _
  simp only [Orchestrator.processInvoiceSealed, processed]
  rw [sealing]

/-- The service that answers with the outcome. -/
def bareServices : Services Outcome where
  report packet := packet.bbaaarOutcome
  renderPacketPdf _ := .ok (utf8Bytes "%PDF-1.4".toList)
  debugError _ := []

/-- A packet that is read before its seal is stored. -/
theorem answered_of_run_bare :
    ∃ (events : List (Event (RealBandRoom KeepingBridge)))
      (server : Server (RealBandRoom KeepingBridge) Outcome) (run : Run),
      runFrom (step bareServices) (.new sealingOrchestrator) events =
        some server ∧
      server.handlers 1 = some ⟨.getPacketJson run.packetId,
        .answered (packetJson none run.packet none)⟩ ∧
      run ∈ server.runs ∧ run.sealed_.isSome ∧
      ∃ past operatorEmail later reading,
        events = past ++ .turn 1 operatorEmail :: later ∧
        runFrom (step bareServices) (.new sealingOrchestrator) past =
          some reading ∧
        Reads bareServices reading.app reading.runs
          (.getPacketJson run.packetId) (packetJson none run.packet none) := by
  obtain ⟨packet, sealed_, kept, made, -⟩ :=
    process_of_ready sealingOrchestrator_ready 7
  let start : Server (RealBandRoom KeepingBridge) Outcome :=
    .new sealingOrchestrator
  have free : start.handlers 0 = none := rfl
  have new : ∀ run ∈ start.runs, run.runId ≠ (bareHost 7).runId ∧
      run.packetId ≠ (bareHost 7).invocation.packetId := by
    intro run among
    cases among
  have reached := storing_of_process bareServices free made new
  let run : Run := ⟨(bareHost 7).runId, packet, some sealed_⟩
  let storing := start.storing bareServices 0 bareRequest kept run sealed_
  have waits : storing.handlers 1 = none := move_of_ne _ Nat.one_ne_zero
  have held : storing.app.packets run.packetId = some packet :=
    Function.update_self _ _ _
  obtain ⟨server, rest, runs, read⟩ := exists_read bareServices waits held
  have whole := reached.append rest
  refine ⟨_, server, run, whole.run, read, ?_, rfl,
    answered_of_run whole.each whole.run nofun read⟩
  rw [runs]
  exact List.mem_singleton_self run

/-- A packet that is read, with its seal, behind another run. -/
theorem gives_of_posted_bare :
    ∃ (before after : Server (RealBandRoom KeepingBridge) Outcome)
      (run other : Run) (response : Response Outcome),
      before.runs = [run] ∧ after.runs = [run, other] ∧ run.sealed_.isSome ∧
      after.handlers 1 =
        some ⟨.getPacketJson run.packetId, .answered response⟩ ∧
      Gives bareServices run (.getPacketJson run.packetId) response := by
  obtain ⟨packet, sealed_, kept, made, ready⟩ :=
    process_of_ready sealingOrchestrator_ready 7
  obtain ⟨later, laterSealed, last, makes, -⟩ := process_of_ready ready 8
  let start : Server (RealBandRoom KeepingBridge) Outcome :=
    .new sealingOrchestrator
  let run : Run := ⟨(bareHost 7).runId, packet, some sealed_⟩
  let other : Run := ⟨(bareHost 8).runId, later, some laterSealed⟩
  have free : start.handlers 0 = none := rfl
  have new : ∀ run ∈ start.runs, run.runId ≠ (bareHost 7).runId ∧
      run.packetId ≠ (bareHost 7).invocation.packetId := by
    intro run among
    cases among
  have reached := finished_of_process bareServices free made new
  let before := start.finished bareServices 0 bareRequest kept run sealed_
  have posted : before.handlers 0 = some ⟨.postInvoices bareRequest,
      .answered (posted bareServices run)⟩ := move_self _ _
  have unused : before.handlers 1 = none := move_of_ne _ Nat.one_ne_zero
  have different : run.packetId ≠ (bareHost 8).invocation.packetId := by
    have first : run.packetId = (bareHost 7).invocation.packetId :=
      packetId_of_process made
    rw [first]
    decide
  have newToo : ∀ run ∈ before.runs, run.runId ≠ (bareHost 8).runId ∧
      run.packetId ≠ (bareHost 8).invocation.packetId := by
    intro known among
    obtain rfl : known = run := List.mem_singleton.mp among
    have drawn : (bareHost 7).runId ≠ (bareHost 8).runId := by decide
    exact ⟨drawn, different⟩
  have freeToo : before.handlers 2 = none := move_of_ne _ (by decide)
  have reachedToo := finished_of_process bareServices freeToo makes newToo
  let middle := before.finished bareServices 2 bareRequest last other laterSealed
  have waits : middle.handlers 1 = none :=
    (move_of_ne _ (by decide)).trans unused
  have apart : run.packetId ≠ other.packetId := fun same =>
    different (same.trans (packetId_of_process makes))
  have held : middle.app.packets run.packetId = some packet :=
    (Function.update_of_ne apart _ _).trans (Function.update_self _ _ _)
  obtain ⟨after, rest, runs, read⟩ := exists_read bareServices waits held
  have behind := reachedToo.append rest
  have whole := reached.append behind
  obtain ⟨same, among, -, samePacket, -, gives⟩ :=
    gives_of_posted whole.each reached.run posted unused behind.run read
  obtain rfl : same = run := List.mem_singleton.mp among
  exact ⟨before, after, run, other, _, rfl, runs, rfl, read, gives .json⟩

end

end TrustLayer.ThemisOrchestrator.Http
