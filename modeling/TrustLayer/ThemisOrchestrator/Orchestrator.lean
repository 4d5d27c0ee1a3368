import TrustLayer.BandRoom
import TrustLayer.ThemisOrchestrator.Defense
import TrustLayer.ThemisOrchestrator.Packet
import TrustLayer.ThemisOrchestrator.State

/-!
# The orchestrator

One invoice is carried through eight agents, and their decisions are signed.
The signatures that are made and the entries that are anchored on the way are
recorded, as `effects`.
-/

namespace TrustLayer.ThemisOrchestrator

open TrustLayer.Library
open TrustLayer.Baaar (BaaarGate.check Outcome)
open TrustLayer.Themis (BandError BandRoom RoomId roomKey)
open TrustLayer.ThemisAgents (Agent AgentContext AgentDecision FloatTexts
  fromDecisionPayload)
open TrustLayer.ThemisEvidence (EvError EvidenceService RekorEntry SealedPacket
  SignerError SignerService Signing)
open TrustLayer.TlChain (Blake3)
open TrustLayer.TlVerify (Crates)

/-! ## The parts -/

/-- What the orchestrator reads of a tenant. -/
structure Tenant where
  ed25519PublicKeyHex : Str
  deriving DecidableEq

inductive TenantError where
  | unknownTenant (tenantId : Str)
  deriving DecidableEq

/-- The texts around an error of the signer or of the evidence service are
left out. -/
inductive OrchestratorError where
  | tenant (error : TenantError)
  | state (error : StateError)
  | band (error : BandError)
  | evidence (detail : Str)
  | sealing (error : EvError)
  | signerInit (tenantId : Str) (cause : SignerError)
  deriving DecidableEq

/-- What leaves the process for good. -/
inductive Effect where
  | signed (signatureHex : Str)
  | anchored (entry : RekorEntry)
  deriving DecidableEq

/-- `anchor`, with the text of its error. -/
abbrev RekorClient := (blake3HashHex tenantId : Str) → Except Str RekorEntry

/-- The build has the `defense` feature; without it there are no monitor and no
guard. -/
structure Orchestrator (σ : Type) where
  stateMachines : Str → Option StateMachine
  rooms : σ
  tenants : Str → Option Tenant
  services : Option (Str → Option EvidenceService)
  humanGuard : Option AlertFatigueDetector
  rogueMonitor : Option RogueMonitor
  effects : List Effect

/-- One call, and what it meets: the registered agents and the client of the
log as they behave in it, and the readings of the clock by their purpose. -/
structure Invocation where
  tenantId : Str
  invoiceId : Str
  raw : List UInt8
  agents : Str → Option Agent
  rekor : Option RekorClient
  stateNow : Nat → Int
  postNow : (fromAgent : Str) → Int
  guardNow : Nat
  packetId : Vector UInt8 16
  packetNow : Int
  sealEnv : ThemisEvidence.SealEnv

structure Stage where
  agentName : Str
  expectedState : InvoiceState
  deriving DecidableEq

def stages : List Stage := [
  ⟨"extractor".toList, .extracting⟩,
  ⟨"po_matcher".toList, .matching⟩,
  ⟨"fraud_auditor".toList, .auditing⟩,
  ⟨"gaap_classifier".toList, .classifying⟩,
  ⟨"provenance_signer".toList, .signing⟩,
  ⟨"demo_narrator".toList, .narrating⟩,
  ⟨"regression_tester".toList, .validating⟩,
  ⟨"audit_watchdog".toList, .done⟩]

/-- The local variables of a run. -/
structure Progress where
  machine : StateMachine
  decisions : List AgentDecision
  bbaaarOutcome : Outcome

def Progress.start (run : Invocation) : Progress :=
  { machine := .new (run.stateNow 0), decisions := []
    bbaaarOutcome := .approve }

/-- How a stage leaves the loop, if it does. -/
inductive Flow where
  | next
  | leave
  | returned (result : Except OrchestratorError SignedPacket)

def nextAgentMention (agentName : Str) : List Str :=
  if agentName = "extractor".toList then ["fraud_auditor".toList]
  else if agentName = "fraud_auditor".toList then ["gaap_classifier".toList]
  else if agentName = "gaap_classifier".toList then
    ["provenance_signer".toList]
  else if agentName = "provenance_signer".toList then
    ["audit_watchdog".toList]
  else if agentName = "po_matcher".toList then ["fraud_auditor".toList]
  else if agentName = "audit_watchdog".toList then ["demo_narrator".toList]
  else []

/-- The context of a stage; the extractor alone is given the invoice. -/
def contextFor (run : Invocation) (agentName : Str)
    (decisions : List AgentDecision) : AgentContext :=
  let ctx := (AgentContext.new run.tenantId run.invoiceId).withUpstreamStream
    decisions
  if agentName = "extractor".toList then
    ctx.withRawInvoice run.raw "application/octet-stream".toList
  else ctx

def missingAgent (agentName : Str) : Str :=
  "missing agent: ".toList ++ agentName

def quarantinedAgent (agentName : Str) : Str :=
  "agent ".toList ++ agentName ++ " quarantined by rogue_monitor".toList

def failedAgent (agentName : Str) (error : ThemisAgents.AgentError) : Str :=
  "agent ".toList ++ agentName ++ ": ".toList ++ error.display

namespace Orchestrator

section

variable {σ : Type}

/-- The observation of a stage, and whether the agent is quarantined then. -/
def observe (orchestrator : Orchestrator σ) (agentName : Str) :
    Bool × Orchestrator σ :=
  match orchestrator.rogueMonitor with
  | none => (false, orchestrator)
  | some monitor =>
      let (_, monitor) := monitor.recordMessage agentName false
      (monitor.isQuarantined agentName,
        { orchestrator with rogueMonitor := some monitor })

/-- The guard's answer: whether destructive operations are blocked. -/
def destructiveBlocked (orchestrator : Orchestrator σ) (now : Nat) :
    Bool × Orchestrator σ :=
  match orchestrator.humanGuard with
  | none => (false, orchestrator)
  | some guard_ =>
      let (answer, guard_) := guard_.checkAuthorization now
      (answer != .ok (), { orchestrator with humanGuard := some guard_ })

def record (orchestrator : Orchestrator σ) (effect : Effect) :
    Orchestrator σ :=
  { orchestrator with effects := orchestrator.effects ++ [effect] }

/-- The loop is left when the gate halts the run. -/
def settle (orchestrator : Orchestrator σ) :
    Except OrchestratorError Bool × Progress →
      Flow × Progress × Orchestrator σ
  | (.error error, progress) =>
      (.returned (.error error), progress, orchestrator)
  | (.ok true, progress) => (.leave, progress, orchestrator)
  | (.ok false, progress) => (.next, progress, orchestrator)

/-- The post of a handoff, whose error is dropped. -/
def publishHandoffEvent [BandRoom σ] (orchestrator : Orchestrator σ)
    (run : Invocation) (room : RoomId) (agentName : Str)
    (decision : AgentDecision) : Orchestrator σ :=
  let (_, rooms) := BandRoom.postMessage room run.tenantId agentName
    decision.reasoning (nextAgentMention agentName) (run.postNow agentName)
    orchestrator.rooms
  { orchestrator with rooms }

end

def assemble (run : Invocation) (decisions : List AgentDecision)
    (outcome : Outcome) : EvidencePacket :=
  .new run.tenantId run.invoiceId decisions outcome run.packetId run.packetNow

section

variable [FloatTexts]

/-- The gate on the decision of the fraud auditor, and on no other one: whether
the run is halted. -/
def checkBaaarAndMaybeHalt (run : Invocation) (agentName : Str)
    (decision : AgentDecision) (progress : Progress) :
    Except OrchestratorError Bool × Progress :=
  if agentName ≠ "fraud_auditor".toList then (.ok false, progress)
  else
    match BaaarGate.check (fromDecisionPayload decision.payload) with
    | .approve => (.ok false, progress)
    | .halt reason =>
        let progress := { progress with bbaaarOutcome := .halt reason }
        match progress.machine.transition (.halt reason)
            (run.stateNow progress.machine.history.length) with
        | (.error error, machine) =>
            (.error (.state error), { progress with machine })
        | (.ok _, machine) => (.ok true, { progress with machine })

variable [Blake3] [Crates] [Signing]
variable {σ : Type}

/-- A signature that is made is an effect. -/
def sign (orchestrator : Orchestrator σ) (packet : EvidencePacket)
    (tenantId : Str) :
    Except OrchestratorError SignedPacket × Orchestrator σ :=
  let publicKeyHex :=
    ((orchestrator.tenants tenantId).map Tenant.ed25519PublicKeyHex).getD []
  match SignerService.forTenant tenantId with
  | .error cause => (.error (.signerInit tenantId cause), orchestrator)
  | .ok signer =>
      let signatureHex := signer.signHex packet.toCanonicalJson
      (.ok (.wrap packet signatureHex publicKeyHex),
        orchestrator.record (.signed signatureHex))

/-- The run fails, and its decisions are signed with the outcome `Approve`. -/
def haltAndReturn (orchestrator : Orchestrator σ) (run : Invocation)
    (progress : Progress) (reason : Str) :
    Flow × Progress × Orchestrator σ :=
  match progress.machine.transition (.fail reason)
      (run.stateNow progress.machine.history.length) with
  | (.error error, machine) =>
      (.returned (.error (.state error)), { progress with machine },
        orchestrator)
  | (.ok _, machine) =>
      let progress := { progress with machine, bbaaarOutcome := .approve }
      let (signed, orchestrator) := orchestrator.sign
        (assemble run progress.decisions progress.bbaaarOutcome) run.tenantId
      (.returned signed, progress, orchestrator)

omit [Crates] [Signing] in
/-- `RekorAnchoring::anchor`. -/
def anchorInRekor (orchestrator : Orchestrator σ) (run : Invocation)
    (signed : SignedPacket) : SignedPacket × Orchestrator σ :=
  match run.rekor with
  | none => (signed, orchestrator)
  | some client =>
      match client signed.blake3HashHex run.tenantId with
      | .error _ => (signed, orchestrator)
      | .ok entry =>
          (.wrapWithRekor signed.packet signed.signatureHex
            signed.publicKeyHex entry, orchestrator.record (.anchored entry))

variable [BandRoom σ]

/-- The agent of a stage, and the gate on its decision. -/
def attempt (run : Invocation) (room : RoomId) (agentName : Str)
    (progress : Progress) (orchestrator : Orchestrator σ) :
    Flow × Progress × Orchestrator σ :=
  match run.agents agentName with
  | none => orchestrator.haltAndReturn run progress (missingAgent agentName)
  | some agent =>
      let ctx := contextFor run agentName progress.decisions
      let (quarantined, orchestrator) := orchestrator.observe agentName
      if quarantined then
        orchestrator.haltAndReturn run progress (quarantinedAgent agentName)
      else
        match agent ctx with
        | .error error =>
            orchestrator.haltAndReturn run progress
              (failedAgent agentName error)
        | .ok decision =>
            let progress :=
              { progress with decisions := progress.decisions ++ [decision] }
            let orchestrator :=
              orchestrator.publishHandoffEvent run room agentName decision
            orchestrator.settle
              (checkBaaarAndMaybeHalt run agentName decision progress)

/-- One turn of the loop over the stages. -/
def runStage (run : Invocation) (room : RoomId) (stage : Stage)
    (progress : Progress) (orchestrator : Orchestrator σ) :
    Flow × Progress × Orchestrator σ :=
  match progress.machine.advanceTo run.stateNow stage.expectedState
      progress.machine.state.advances with
  | (.error error, machine) =>
      (.returned (.error (.state error)), { progress with machine },
        orchestrator)
  | (.ok (), machine) =>
      attempt run room stage.agentName { progress with machine } orchestrator

/-- The loop over the stages. -/
def walk (run : Invocation) (room : RoomId) :
    List Stage → Progress → Orchestrator σ → Flow × Progress × Orchestrator σ
  | [], progress, orchestrator => (.next, progress, orchestrator)
  | stage :: stages, progress, orchestrator =>
      match runStage run room stage progress orchestrator with
      | (.next, progress, orchestrator) =>
          walk run room stages progress orchestrator
      | ended => ended

omit [BandRoom σ] in
/-- The packet is signed and anchored, and the machine cached. -/
def conclude (orchestrator : Orchestrator σ) (run : Invocation)
    (packet : EvidencePacket) (machine : StateMachine) :
    Except OrchestratorError SignedPacket × Orchestrator σ :=
  match orchestrator.sign packet run.tenantId with
  | (.error error, orchestrator) => (.error error, orchestrator)
  | (.ok signed, orchestrator) =>
      let (signed, orchestrator) := orchestrator.anchorInRekor run signed
      (.ok signed,
        { orchestrator with
          stateMachines := Function.update orchestrator.stateMachines
            (roomKey run.tenantId run.invoiceId) (some machine) })

omit [BandRoom σ] in
/-- What stands behind the loop.  The guard is asked here only. -/
def finish (run : Invocation) (progress : Progress)
    (orchestrator : Orchestrator σ) :
    Except OrchestratorError SignedPacket × Progress × Orchestrator σ :=
  let progress :=
    { progress with machine := progress.machine.forceAdvanceToDone run.stateNow }
  let (blocked, orchestrator) := orchestrator.destructiveBlocked run.guardNow
  let packet := assemble run progress.decisions progress.bbaaarOutcome
  if blocked then (.ok (.wrap packet [] []), progress, orchestrator)
  else
    let (result, orchestrator) :=
      orchestrator.conclude run packet progress.machine
    (result, progress, orchestrator)

/-- The stages in an open room, and what stands behind them. -/
def debate (run : Invocation) (room : RoomId) (orchestrator : Orchestrator σ) :
    Except OrchestratorError SignedPacket × Progress × Orchestrator σ :=
  match walk run room stages (.start run) orchestrator with
  | (.returned result, progress, orchestrator) =>
      (result, progress, orchestrator)
  | (.next, progress, orchestrator) | (.leave, progress, orchestrator) =>
      finish run progress orchestrator

/-- The first post of a run. -/
def received (invoiceId : Str) : Str :=
  "Processing invoice ".toList ++ invoiceId

/-- `process_invoice`, with the local variables as it leaves them. -/
def processInvoiceLocals (orchestrator : Orchestrator σ) (run : Invocation) :
    Except OrchestratorError SignedPacket × Option Progress × Orchestrator σ :=
  match orchestrator.tenants run.tenantId with
  | none =>
      (.error (.tenant (.unknownTenant run.tenantId)), none, orchestrator)
  | some _ =>
      match BandRoom.openRoom run.tenantId run.invoiceId orchestrator.rooms with
      | (.error error, rooms) =>
          (.error (.band error), none, { orchestrator with rooms })
      | (.ok room, rooms) =>
          match BandRoom.postMessage room run.tenantId "orchestrator".toList
              (received run.invoiceId) []
              (run.postNow "orchestrator".toList) rooms with
          | (.error error, rooms) =>
              (.error (.band error), none, { orchestrator with rooms })
          | (.ok (), rooms) =>
              let (result, progress, orchestrator) :=
                debate run room { orchestrator with rooms }
              (result, some progress, orchestrator)

def processInvoice (orchestrator : Orchestrator σ) (run : Invocation) :
    Except OrchestratorError SignedPacket × Orchestrator σ :=
  let (result, _, orchestrator) := orchestrator.processInvoiceLocals run
  (result, orchestrator)

/-! ## Sealing -/

omit [BandRoom σ] in
/-- `EvidenceSealing::seal`.  The service signs before it looks at its
chain. -/
def sealSigned (orchestrator : Orchestrator σ) (run : Invocation)
    (signed : SignedPacket) :
    Except OrchestratorError SealedPacket × Orchestrator σ :=
  match orchestrator.services with
  | none =>
      (.error (.evidence ("no evidence service configured; use ".toList ++
        "with_evidence() at construction".toList)), orchestrator)
  | some services =>
      match services run.tenantId with
      | none =>
          (.error (.evidence
            ("no evidence service for tenant ".toList ++ run.tenantId)),
            orchestrator)
      | some service =>
          let payload := signed.packet.toText
          let hash := Blake3.hash (EvidenceService.canonicalJson payload)
          let (result, after) := service.sealPacket run.invoiceId payload
            signed.rekorEntry run.sealEnv
          let orchestrator := orchestrator.record
            (.signed (service.signer.signHex hash.toList))
          (result.mapError .sealing,
            { orchestrator with
              services :=
                some (Function.update services run.tenantId (some after)) })

def processInvoiceSealed (orchestrator : Orchestrator σ) (run : Invocation) :
    Except OrchestratorError (SignedPacket × Option SealedPacket) ×
      Orchestrator σ :=
  match orchestrator.processInvoice run with
  | (.error error, orchestrator) => (.error error, orchestrator)
  | (.ok signed, orchestrator) =>
      match orchestrator.sealSigned run signed with
      | (.error error, orchestrator) => (.error error, orchestrator)
      | (.ok sealed, orchestrator) => (.ok (signed, some sealed), orchestrator)

end

end Orchestrator

end TrustLayer.ThemisOrchestrator
