import TrustLayer.ThemisOrchestrator.Debate

/-!
# What a run returns

A run ends in one of four ways: it does not start, it is cut at the last stage,
it is cut before, or its packet is assembled behind the loop.
-/

namespace TrustLayer.ThemisOrchestrator

open TrustLayer.Library
open TrustLayer.Baaar (BaaarReason Outcome)
open TrustLayer.Themis (BandError BandRoom RoomId)
open TrustLayer.ThemisAgents (AgentDecision FloatTexts)
open TrustLayer.ThemisEvidence (EvidenceService SignerService Signing)
open TrustLayer.TlChain (Blake3)
open TrustLayer.TlVerify (Crates)

/-- The outcome of a packet that is assembled behind the loop. -/
def outcomeOf : Ending Str BaaarReason → Outcome
  | .completed | .cut _ => .approve
  | .halted reason => .halt reason

namespace Orchestrator

section

variable {σ : Type} [BandRoom σ]

def inRooms (orchestrator : Orchestrator σ) (rooms : σ) : Orchestrator σ :=
  { orchestrator with rooms }

omit [BandRoom σ] in
theorem inRooms_kept (orchestrator : Orchestrator σ) (rooms : σ) :
    Kept orchestrator (orchestrator.inRooms rooms) :=
  ⟨rfl, rfl, rfl, rfl, rfl⟩

omit [BandRoom σ] in
/-- The rooms are no matter to the monitor. -/
theorem inRooms_quarantines (orchestrator : Orchestrator σ) (rooms : σ) :
    (orchestrator.inRooms rooms).quarantines = orchestrator.quarantines := by
  funext agentName
  rw [quarantines_eq, quarantines_eq, inRooms]

/-- The tenant is known, and the room can be opened and posted to. -/
structure Starts (orchestrator : Orchestrator σ) (run : Invocation)
    (room : RoomId) (rooms : σ) : Prop where
  tenant : orchestrator.tenants run.tenantId ≠ none
  posted : ∃ opened, BandRoom.openRoom run.tenantId run.invoiceId
      orchestrator.rooms = (.ok room, opened) ∧
    BandRoom.postMessage room run.tenantId "orchestrator".toList
      (received run.invoiceId) [] (run.postNow "orchestrator".toList) opened =
        (.ok (), rooms)

variable [FloatTexts] [Blake3] [Crates] [Signing]
variable {orchestrator : Orchestrator σ} {run : Invocation} {room : RoomId}
variable {rooms : σ} {decisions : List AgentDecision}

theorem processInvoiceLocals_of_starts
    (starts : Starts orchestrator run room rooms) :
    orchestrator.processInvoiceLocals run =
      ((debate run room (orchestrator.inRooms rooms)).1,
        some (debate run room (orchestrator.inRooms rooms)).2.1,
        (debate run room (orchestrator.inRooms rooms)).2.2) := by
  obtain ⟨opened, opens, posts⟩ := starts.posted
  obtain ⟨tenant, known⟩ := Option.ne_none_iff_exists'.mp starts.tenant
  rw [processInvoiceLocals, known]
  simp only [opens, posts]
  rfl

theorem processInvoice_of_starts (starts : Starts orchestrator run room rooms) :
    orchestrator.processInvoice run =
      ((debate run room (orchestrator.inRooms rooms)).1,
        (debate run room (orchestrator.inRooms rooms)).2.2) := by
  rw [processInvoice, processInvoiceLocals_of_starts starts]

/-- A run that does not start returns an error. -/
theorem processInvoice_of_not_starts
    (unstarted : ∀ room rooms, ¬ Starts orchestrator run room rooms) :
    ∃ error after, Kept orchestrator after ∧
      orchestrator.processInvoice run = (.error error, after) := by
  rw [processInvoice, processInvoiceLocals]
  cases known : orchestrator.tenants run.tenantId with
  | none => exact ⟨_, _, .refl _, rfl⟩
  | some tenant =>
      have tenantKnown : orchestrator.tenants run.tenantId ≠ none := by
        simp [known]
      rcases opens : BandRoom.openRoom run.tenantId run.invoiceId
        orchestrator.rooms with ⟨error | room, opened⟩
      · simp only
        exact ⟨.band error, { orchestrator with rooms := opened },
          ⟨rfl, rfl, rfl, rfl, rfl⟩, rfl⟩
      · rcases posts : BandRoom.postMessage room run.tenantId
          "orchestrator".toList (received run.invoiceId) []
          (run.postNow "orchestrator".toList) opened with
          ⟨error | done, rooms⟩
        · simp only [posts]
          exact ⟨.band error, { orchestrator with rooms },
            ⟨rfl, rfl, rfl, rfl, rfl⟩, rfl⟩
        · have starts : Starts orchestrator run room rooms :=
            ⟨tenantKnown, opened, opens, posts⟩
          exact absurd starts (unstarted room rooms)

theorem processInvoice_of_cut {reason : Str}
    (starts : Starts orchestrator run room rooms)
    (ends : Debates run orchestrator.quarantines decisions (.cut reason))
    (early : decisions.length < 7) :
    ∃ after, Kept orchestrator after ∧ orchestrator.processInvoice run =
      (.ok (after.signedAs (assemble run decisions .approve) run.tenantId),
        after.record (.signed (after.signedAs
          (assemble run decisions .approve) run.tenantId).signatureHex)) := by
  rw [← inRooms_quarantines orchestrator rooms] at ends
  obtain ⟨left, after, kept, -, debated⟩ := debate_of_cut room ends early
  refine ⟨after, (inRooms_kept orchestrator rooms).trans kept, ?_⟩
  rw [processInvoice_of_starts starts, debated]

theorem processInvoice_of_cut_last {reason : Str}
    (starts : Starts orchestrator run room rooms)
    (ends : Debates run orchestrator.quarantines decisions (.cut reason))
    (late : ¬ decisions.length < 7) :
    ∃ after, Kept orchestrator after ∧ orchestrator.processInvoice run =
      (.error (.state (.terminalState .done)), after) := by
  rw [← inRooms_quarantines orchestrator rooms] at ends
  obtain ⟨left, after, kept, debated⟩ := debate_of_cut_last room ends late
  refine ⟨after, (inRooms_kept orchestrator rooms).trans kept, ?_⟩
  rw [processInvoice_of_starts starts, debated]

/-- A run that is not cut returns all its decisions. -/
theorem processInvoice_of_whole {ending : Ending Str BaaarReason}
    (starts : Starts orchestrator run room rooms)
    (ends : Debates run orchestrator.quarantines decisions ending)
    (whole : ∀ reason, ending ≠ .cut reason) :
    ∃ signed after, orchestrator.processInvoice run = (.ok signed, after) ∧
      signed.packet = assemble run decisions (outcomeOf ending) ∧
      after.tenants = orchestrator.tenants ∧
      after.services = orchestrator.services ∧
      (orchestrator.Suspended run.guardNow →
        after.effects = orchestrator.effects) := by
  have debated : ∃ left middle, debate run room (orchestrator.inRooms rooms) =
        finish run left middle ∧ left.decisions = decisions ∧
      left.bbaaarOutcome = outcomeOf ending ∧
      Kept (orchestrator.inRooms rooms) middle := by
    rw [← inRooms_quarantines orchestrator rooms] at ends
    cases ending with
    | completed =>
        obtain ⟨left, middle, debated, made, outcome, -, kept, -⟩ :=
          debate_of_completed room ends
        exact ⟨left, middle, debated, made, outcome, kept⟩
    | halted reason =>
        obtain ⟨left, middle, debated, made, outcome, -, kept⟩ :=
          debate_of_halted room ends
        exact ⟨left, middle, debated, made, outcome, kept⟩
    | cut reason => exact absurd rfl (whole reason)
  obtain ⟨left, middle, debated, made, outcome, kept⟩ := debated
  obtain ⟨signed, after, finished, packet, tenants, services, -, effects⟩ :=
    @finish_spec _ _ _ _ σ run left middle
  refine ⟨signed, after, ?_, ?_, tenants.trans kept.tenants,
    services.trans kept.services, ?_⟩
  · rw [processInvoice_of_starts starts, debated, finished]
  · rw [packet, made, outcome]
  · intro suspended
    have same : middle.humanGuard = orchestrator.humanGuard := kept.humanGuard
    rw [effects (by rwa [Suspended, same])]
    exact kept.effects

omit [BandRoom σ] [Blake3] [Crates] [Signing] in
theorem exists_debates (orchestrator : Orchestrator σ) (run : Invocation) :
    ∃ decisions ending, Debates run orchestrator.quarantines decisions ending :=
  exists_ends stages []

/-- What a run returns, and leaves behind. -/
inductive Returns (orchestrator : Orchestrator σ) (run : Invocation) :
    Except OrchestratorError SignedPacket × Orchestrator σ → Prop where
  | unstarted {error : OrchestratorError} {after : Orchestrator σ}
    (unstarted : ∀ room rooms, ¬ Starts orchestrator run room rooms)
    (kept : Kept orchestrator after) :
    Returns orchestrator run (.error error, after)
  | whole {room : RoomId} {rooms : σ} {decisions : List AgentDecision}
    {ending : Ending Str BaaarReason} {signed : SignedPacket}
    {after : Orchestrator σ} (starts : Starts orchestrator run room rooms)
    (ends : Debates run orchestrator.quarantines decisions ending)
    (whole : ∀ reason, ending ≠ .cut reason)
    (packet : signed.packet = assemble run decisions (outcomeOf ending))
    (tenants : after.tenants = orchestrator.tenants)
    (services : after.services = orchestrator.services)
    (effects : orchestrator.Suspended run.guardNow →
      after.effects = orchestrator.effects) :
    Returns orchestrator run (.ok signed, after)
  | cut {room : RoomId} {rooms : σ} {decisions : List AgentDecision}
    {reason : Str} {after : Orchestrator σ}
    (starts : Starts orchestrator run room rooms)
    (ends : Debates run orchestrator.quarantines decisions (.cut reason))
    (early : decisions.length < 7) (kept : Kept orchestrator after) :
    Returns orchestrator run
      (.ok (after.signedAs (assemble run decisions .approve) run.tenantId),
        after.record (.signed (after.signedAs
          (assemble run decisions .approve) run.tenantId).signatureHex))
  | cutLast {room : RoomId} {rooms : σ} {decisions : List AgentDecision}
    {reason : Str} {after : Orchestrator σ}
    (starts : Starts orchestrator run room rooms)
    (ends : Debates run orchestrator.quarantines decisions (.cut reason))
    (late : ¬ decisions.length < 7) (kept : Kept orchestrator after) :
    Returns orchestrator run (.error (.state (.terminalState .done)), after)

variable (orchestrator run) in
/-- The one case split over the runs. -/
theorem processInvoice_returns :
    Returns orchestrator run (orchestrator.processInvoice run) := by
  by_cases started : ∃ room rooms, Starts orchestrator run room rooms
  · obtain ⟨room, rooms, starts⟩ := started
    obtain ⟨decisions, ending, ends⟩ := exists_debates orchestrator run
    by_cases whole : ∀ reason, ending ≠ .cut reason
    · obtain ⟨signed, after, result, packet, tenants, services, effects⟩ :=
        processInvoice_of_whole starts ends whole
      rw [result]
      exact .whole starts ends whole packet tenants services effects
    · push Not at whole
      obtain ⟨reason, rfl⟩ := whole
      by_cases early : decisions.length < 7
      · obtain ⟨after, kept, result⟩ := processInvoice_of_cut starts ends early
        rw [result]
        exact .cut starts ends early kept
      · obtain ⟨after, kept, result⟩ :=
          processInvoice_of_cut_last starts ends early
        rw [result]
        exact .cutLast starts ends early kept
  · have unstarted : ∀ room rooms, ¬ Starts orchestrator run room rooms :=
      fun room rooms starts => started ⟨room, rooms, starts⟩
    obtain ⟨error, after, kept, result⟩ :=
      processInvoice_of_not_starts unstarted
    rw [result]
    exact .unstarted unstarted kept

/-- No run registers a tenant. -/
theorem processInvoice_tenants :
    (orchestrator.processInvoice run).2.tenants = orchestrator.tenants := by
  have returns := processInvoice_returns orchestrator run
  generalize orchestrator.processInvoice run = result at returns ⊢
  cases returns with
  | unstarted unstarted kept => exact kept.tenants
  | whole starts ends whole packet tenants services effects => exact tenants
  | cut starts ends early kept => exact kept.tenants
  | cutLast starts ends late kept => exact kept.tenants

end

end Orchestrator

/-! ## Runs of a fixture tenant -/

section

open TrustLayer.Themis (KeepingBridge RealBandRoom postMessage_of_cached
  roomIdFor)
open TrustLayer.ThemisAgents (Agent AgentContext DecisionType)
open TrustLayer.TlVerify (starkPublic starkSeed zeroBytes)

/-- One number is written, as the shortest decimal that reads back. -/
@[reducible] def sampleFloats : FloatTexts where
  asF64 _ := ThemisAgents.zeroF64
  ofF32 number :=
    if number = ⟨0x3F59999A⟩ then .number "0.85".toList else .null
  ofF64 _ := .null

attribute [local instance] sampleFloats

def sampleKinds : List (Str × DecisionType) := [
  ("extractor".toList, .extracted), ("po_matcher".toList, .poMatched),
  ("fraud_auditor".toList, .fraudAssessed),
  ("gaap_classifier".toList, .gaapClassified),
  ("provenance_signer".toList, .provenanceSigned),
  ("demo_narrator".toList, .narrated),
  ("regression_tester".toList, .regressionResult),
  ("audit_watchdog".toList, .watchdogAlert)]

/-- An agent that answers with an empty payload. -/
def quietAgent (agentName : Str) (decisionType : DecisionType) : Agent :=
  fun ctx => .ok
    { agentId := agentName
      tenantId := ctx.tenantId
      invoiceId := ctx.invoiceId
      decisionType
      confidence := ⟨0x3F59999A⟩
      reasoning := "ok".toList
      timestampMs := 1781784000000
      payload := .object [] }

def quietAgents (agentName : Str) : Option Agent :=
  (sampleKinds.lookup agentName).map (quietAgent agentName)

def sampleRun (agents : Str → Option Agent) : Invocation where
  tenantId := "stark".toList
  invoiceId := "inv-001".toList
  raw := utf8Bytes "invoice".toList
  agents
  rekor := none
  stateNow _ := 1781784000000
  postNow _ := 1781784000000
  guardNow := 10 * 1000000000
  packetId :=
    #v[0x6f, 0x1c, 0x8a, 0x52, 0x3d, 0x0e, 0x4b, 0x7f, 0x9a, 0x64, 0x0d, 0x5b,
      0xe2, 0xc7, 0xf9, 0x13]
  packetNow := 1781784000000
  sealEnv :=
    { retentionNowMs := 1781784000000, appendNowMs := 1781784000000
      stamp := .ok { time := 1781784000, accuracyMs := 1000, rawDer := [] }
      stampVerifies := true
      packetId := Vector.replicate 16 0 }

def noAgents : Str → Option Agent := fun _ => none

/-- All agents but one. -/
def agentsWithout (missing agentName : Str) : Option Agent :=
  if agentName = missing then none else quietAgents agentName

def sampleOrchestrator : Orchestrator (RealBandRoom KeepingBridge) where
  stateMachines _ := none
  rooms := .connect ⟨[]⟩
  tenants tenantId :=
    if tenantId = "stark".toList then some ⟨toHex starkPublic.toList⟩
    else none
  services := none
  humanGuard := none
  rogueMonitor := none
  effects := []

/-- The packet of a run of `sampleRun`. -/
def samplePacket (decisions : List AgentDecision) : EvidencePacket :=
  Orchestrator.assemble (sampleRun noAgents) decisions .approve

def quietDecisions : List AgentDecision :=
  sampleKinds.filterMap fun kind =>
    (quietAgent kind.1 kind.2 (.new "stark".toList "inv-001".toList)).toOption

/-- BLAKE3 of the packet without a decision, in canonical JSON. -/
def bareHash : Vector UInt8 32 :=
  #v[0x1d, 0xa6, 0x27, 0xe9, 0x47, 0x7e, 0x63, 0xf3, 0x72, 0x8d, 0x13, 0x06,
    0x93, 0x61, 0x15, 0x5a, 0x4f, 0xbd, 0xff, 0x0f, 0xbb, 0x67, 0x2e, 0xc2,
    0x53, 0x48, 0x3c, 0x58, 0xcb, 0xe0, 0xc3, 0x13]

/-- The signature of `stark` on that packet. -/
def bareSignature : Vector UInt8 64 :=
  #v[0xce, 0xa2, 0x1a, 0x79, 0x65, 0x0a, 0x1e, 0x8f, 0x89, 0xd5, 0x9e, 0x7d,
    0xfa, 0x03, 0xf8, 0xc0, 0xe3, 0xf4, 0x0f, 0x39, 0x84, 0x77, 0xbd, 0xd6,
    0x90, 0x20, 0x4c, 0x6f, 0xe1, 0x2a, 0x7f, 0xea, 0x1e, 0xb8, 0x40, 0xcc,
    0x42, 0x73, 0x1e, 0x67, 0x64, 0x7c, 0x52, 0x14, 0xcb, 0x04, 0x94, 0x32,
    0xde, 0x23, 0xa1, 0x0b, 0x4a, 0x0d, 0x0c, 0x80, 0x2e, 0xc3, 0xcc, 0x49,
    0x5e, 0xa7, 0xc7, 0x0a]

/-- BLAKE3 of the packet with all decisions, in canonical JSON. -/
def quietHash : Vector UInt8 32 :=
  #v[0xc0, 0x1d, 0xf7, 0x70, 0x7f, 0x7a, 0x85, 0x4a, 0x17, 0x8d, 0x21, 0x00,
    0xb6, 0xc6, 0xc2, 0x9a, 0x78, 0x83, 0x17, 0x57, 0xb9, 0x3d, 0x61, 0x33,
    0x64, 0x41, 0x97, 0xb2, 0x85, 0xa0, 0x61, 0x8e]

/-- The signature of `stark` on that packet. -/
def quietSignature : Vector UInt8 64 :=
  #v[0xc7, 0x41, 0x8c, 0xa7, 0x3d, 0x4a, 0xc8, 0xa5, 0x20, 0x78, 0xce, 0x12,
    0x0f, 0x9a, 0x30, 0xde, 0xdb, 0x90, 0x51, 0x06, 0x0b, 0xb2, 0xbb, 0x91,
    0xed, 0x7e, 0x5d, 0x5a, 0x62, 0xc6, 0xb3, 0x77, 0x63, 0xfd, 0xce, 0xe3,
    0xf3, 0x61, 0xc0, 0xe7, 0xe0, 0xf3, 0x15, 0x24, 0xcf, 0x0c, 0x56, 0xc0,
    0xc6, 0x13, 0x16, 0x4b, 0xa7, 0xa0, 0xf4, 0x5c, 0x2d, 0x6f, 0xa2, 0x06,
    0x3f, 0x1a, 0x2e, 0x0c]

@[reducible] def sampleHashes : Blake3 where
  hash input :=
    if input = (samplePacket []).toCanonicalJson then bareHash
    else if input = (samplePacket quietDecisions).toCanonicalJson then quietHash
    else Vector.replicate 32 0xff

@[reducible] def sampleSigning : Signing where
  sign seed message :=
    if seed = starkSeed ∧ message = (samplePacket []).toCanonicalJson then
      bareSignature
    else if seed = starkSeed ∧
        message = (samplePacket quietDecisions).toCanonicalJson then
      quietSignature
    else Vector.replicate 64 0

/-- The two signatures are there, and no other. -/
@[reducible] def sampleCrates : Crates where
  fromBytes bytes := .ok { bytes }
  verify key message signature :=
    decide (key.bytes = starkPublic.toList) &&
      (decide (message = (samplePacket []).toCanonicalJson) &&
          decide (signature = bareSignature.toList) ||
        decide (message = (samplePacket quietDecisions).toCanonicalJson) &&
          decide (signature = quietSignature.toList))
  publicKey seed := if seed = starkSeed then starkPublic else zeroBytes
  hkdfSha256 _ _ _ := zeroBytes
  base64Decode _ := none
  toVec := SerdeJson.toVec
  rfc3339 _ := []

/-- The gate accepts an empty payload. -/
theorem quietAgent_accepted (stage : Stage) (decisionType : DecisionType)
    (ctx : AgentContext) :
    ∃ decision, quietAgent stage.agentName decisionType ctx = .ok decision ∧
      gate stage decision = none := by
  refine ⟨_, rfl, ?_⟩
  rw [gate]
  split
  · rfl
  · rw [ThemisAgents.check_defaults rfl fun _ _ => rfl]

theorem quietAgents_registered {stage : Stage} (member : stage ∈ stages) :
    ∃ decisionType, quietAgents stage.agentName =
      some (quietAgent stage.agentName decisionType) := by
  have known : ∀ stage ∈ stages,
      (sampleKinds.lookup stage.agentName).isSome = true := by
    decide
  obtain ⟨decisionType, found⟩ :=
    Option.isSome_iff_exists.mp (known stage member)
  exact ⟨decisionType, by rw [quietAgents, found]; rfl⟩

theorem quietAgents_answer {run : Invocation} {quarantined : Str → Bool}
    {stage : Stage} (member : stage ∈ stages)
    (registered : run.agents stage.agentName = quietAgents stage.agentName)
    (free : quarantined stage.agentName = false) (made : List AgentDecision) :
    ∃ decision, answer run quarantined stage made = .ok decision ∧
      gate stage decision = none := by
  obtain ⟨decisionType, known⟩ := quietAgents_registered member
  obtain ⟨decision, answered, accepted⟩ :=
    quietAgent_accepted stage decisionType
      (contextFor run stage.agentName made)
  exact ⟨decision, answer_eq_ok_iff.mpr
    ⟨_, registered.trans known, free, answered⟩, accepted⟩

/-- Without an agent, the first stage cuts the run. -/
theorem bareRun_debates (quarantined : Str → Bool) :
    Debates (sampleRun noAgents) quarantined []
      (.cut (missingAgent "extractor".toList)) :=
  .cut .nil rfl

/-- Every stage in front of the missing agent is passed. -/
theorem exists_passes_without {missing : Str} {quarantined : Str → Bool}
    {count : Nat} (free : ∀ stage ∈ stages, quarantined stage.agentName = false)
    (others : ∀ stage ∈ stages.take count, stage.agentName ≠ missing) :
    ∃ upstream, Passes (answer (sampleRun (agentsWithout missing)) quarantined)
      gate (stages.take count) [] upstream := by
  apply exists_passes
  intro stage member
  have known := List.mem_of_mem_take member
  exact quietAgents_answer known (if_neg (others stage member))
    (free stage known)

/-- With a bridge that answers every request, only a tenant is needed. -/
theorem exists_starts {orchestrator : Orchestrator (RealBandRoom KeepingBridge)}
    {run : Invocation} (known : orchestrator.tenants run.tenantId ≠ none) :
    ∃ room rooms, Orchestrator.Starts orchestrator run room rooms := by
  obtain ⟨opened, chatroomId, opens, cached⟩ : ∃ opened chatroomId,
      orchestrator.rooms.openRoom run.tenantId run.invoiceId =
        (.ok (roomIdFor run.tenantId run.invoiceId), opened) ∧
      opened.rooms (roomIdFor run.tenantId run.invoiceId) =
        some chatroomId := by
    rw [RealBandRoom.openRoom]
    split_ifs with isOpen
    · obtain ⟨chatroomId, cached⟩ := Option.isSome_iff_exists.mp isOpen
      exact ⟨_, chatroomId, rfl, cached⟩
    · exact ⟨_, "chat-1".toList, rfl, Function.update_self _ _ _⟩
  have posts := postMessage_of_cached cached run.tenantId
    "orchestrator".toList (Orchestrator.received run.invoiceId) []
    (run.postNow "orchestrator".toList)
  exact ⟨_, _, known, opened, opens, posts⟩

end

namespace Orchestrator

section

variable {σ : Type} [BandRoom σ]
variable [FloatTexts] [Blake3] [Crates] [Signing]
variable {orchestrator : Orchestrator σ} {run : Invocation} {room : RoomId}
variable {rooms : σ} {decisions : List AgentDecision}

/-! ## Approvals -/

omit [BandRoom σ] [Blake3] [Crates] [Signing] in
theorem length_of_completed
    (ends : Debates run orchestrator.quarantines decisions .completed) :
    decisions.length = 8 :=
  ends.length_of_completed

/-- An approval holds the decisions of the stages in their order, accepted by
the gate: of all eight, or of those before a stage that cut the run. -/
theorem debates_of_approve {signed : SignedPacket}
    (returned : (orchestrator.processInvoice run).1 = .ok signed)
    (approved : signed.packet.bbaaarOutcome = .approve) :
    ∃ ending,
      Debates run orchestrator.quarantines signed.packet.agentDecisions
        ending ∧
      (ending = .completed ∧ signed.packet.agentDecisions.length = 8 ∨
        ∃ reason, ending = .cut reason ∧
          signed.packet.agentDecisions.length < 7) := by
  have returns := processInvoice_returns orchestrator run
  generalize orchestrator.processInvoice run = result at returns returned
  cases returns with
  | unstarted unstarted kept => cases returned
  | @whole room rooms decisions ending _ after starts ends whole packet =>
      obtain rfl := Except.ok.inj returned
      rw [packet] at approved ⊢
      cases ending with
      | completed =>
          exact ⟨.completed, ends, .inl ⟨rfl, length_of_completed ends⟩⟩
      | halted reason => cases approved
      | cut reason => exact absurd rfl (whole reason)
  | @cut room rooms decisions reason after starts ends early kept =>
      obtain rfl := Except.ok.inj returned
      exact ⟨.cut reason, ends, .inr ⟨reason, rfl, early⟩⟩
  | cutLast starts ends late kept => cases returned

variable (σ) in
/-- A signed approval is one of a run that completed all the stages. -/
def FailsClosed : Prop :=
  ∀ (orchestrator : Orchestrator σ) (run : Invocation) (signed : SignedPacket),
    (orchestrator.processInvoice run).1 = .ok signed →
    signed.signatureHex ≠ [] → signed.packet.bbaaarOutcome = .approve →
    Debates run orchestrator.quarantines signed.packet.agentDecisions
      .completed

end

section

open TrustLayer.Themis (KeepingBridge RealBandRoom)

attribute [local instance] sampleFloats sampleHashes sampleCrates
  sampleSigning

/-- The run without an agent returns a signed approval without a decision. -/
theorem bareRun_processInvoice {orchestrator : Orchestrator
      (RealBandRoom KeepingBridge)}
    (known : orchestrator.tenants "stark".toList ≠ none) :
    ∃ after, Kept orchestrator after ∧
      orchestrator.processInvoice (sampleRun noAgents) =
        (.ok (after.signedAs (samplePacket []) "stark".toList),
          after.record (.signed (after.signedAs (samplePacket [])
            "stark".toList).signatureHex)) := by
  obtain ⟨room, rooms, starts⟩ := @exists_starts orchestrator
    (sampleRun noAgents) known
  exact processInvoice_of_cut starts (bareRun_debates _) (by decide)

/-- The run without the agent of the fourth stage is cut there. -/
theorem unclassifiedRun_cut :
    ∃ upstream, upstream.length = 3 ∧
      Passes (answer (sampleRun (agentsWithout "gaap_classifier".toList))
        sampleOrchestrator.quarantines) gate (stages.take 3) [] upstream ∧
      answer (sampleRun (agentsWithout "gaap_classifier".toList))
        sampleOrchestrator.quarantines
        ⟨"gaap_classifier".toList, .classifying⟩ upstream =
          .error (missingAgent "gaap_classifier".toList) := by
  obtain ⟨upstream, passes⟩ := @exists_passes_without "gaap_classifier".toList
    sampleOrchestrator.quarantines 3 (fun _ _ => rfl) (by decide)
  exact ⟨upstream, passes.length, passes, rfl⟩

theorem unclassifiedRun_approved :
    ∃ signed,
      (sampleOrchestrator.processInvoice
        (sampleRun (agentsWithout "gaap_classifier".toList))).1 = .ok signed ∧
      signed.packet.bbaaarOutcome = .approve ∧
      signed.packet.agentDecisions.length = 3 ∧
      ∃ ending,
        Debates (sampleRun (agentsWithout "gaap_classifier".toList))
          sampleOrchestrator.quarantines signed.packet.agentDecisions ending ∧
        (ending = .completed ∧ signed.packet.agentDecisions.length = 8 ∨
          ∃ reason, ending = .cut reason ∧
            signed.packet.agentDecisions.length < 7) := by
  obtain ⟨upstream, three, passes, fails⟩ := unclassifiedRun_cut
  obtain ⟨room, rooms, starts⟩ := @exists_starts sampleOrchestrator
    (sampleRun (agentsWithout "gaap_classifier".toList)) nofun
  obtain ⟨after, -, result⟩ := processInvoice_of_cut starts (.cut passes fails)
    (three ▸ by decide)
  have returned := congrArg Prod.fst result
  exact ⟨_, returned, rfl, three, debates_of_approve returned rfl⟩

theorem bareRun_not_failsClosed :
    ¬ FailsClosed (RealBandRoom KeepingBridge) := by
  intro closed
  obtain ⟨after, -, result⟩ := @bareRun_processInvoice sampleOrchestrator nofun
  have completes := closed sampleOrchestrator (sampleRun noAgents) _
    (congrArg Prod.fst result) (signedAs_signatureHex_ne_nil _ _ _) rfl
  have nothing : ([] : List AgentDecision).length = 8 :=
    length_of_completed completes
  cases nothing

end

end Orchestrator

namespace Orchestrator

section

variable {σ : Type} [BandRoom σ]
variable [FloatTexts] [Blake3] [Crates] [Signing]
variable {orchestrator : Orchestrator σ} {run : Invocation} {room : RoomId}
variable {rooms : σ} {decisions : List AgentDecision}

/-! ## Records of failed stages -/

/-- The run returns a signed packet with exactly the decisions, and its machine
ends halted. -/
def Audited (orchestrator : Orchestrator σ) (run : Invocation)
    (upstream : List AgentDecision) : Prop :=
  ∃ signed progress after, orchestrator.processInvoiceLocals run =
      (.ok signed, some progress, after) ∧
    signed.packet.agentDecisions = upstream ∧
    signed.signatureHex = (SignerService.fromSeed run.tenantId
      (TlVerify.seedForTenant run.tenantId)).signHex
        signed.packet.toCanonicalJson ∧
    progress.machine.current = .halted

omit [BandRoom σ] [Blake3] [Crates] [Signing] in
/-- The last stage is the eighth. -/
theorem length_lt_iff {quarantined : Str → Bool} {passed later : List Stage}
    {stage : Stage} {upstream : List AgentDecision}
    (split : stages = passed ++ stage :: later)
    (earlier : Passes (answer run quarantined) gate passed [] upstream) :
    upstream.length < 7 ↔ later ≠ [] := by
  have total := congrArg List.length split
  rw [show stages.length = 8 from rfl, List.length_append, List.length_cons]
    at total
  have count := earlier.length
  rw [List.length_nil] at count
  rw [ne_eq, ← List.length_eq_zero_iff]
  omega

/-- A stage that cuts the run leaves a record exactly when it is not the
last. -/
theorem audited_iff {passed later : List Stage} {stage : Stage}
    {upstream : List AgentDecision} {reason : Str}
    (starts : Starts orchestrator run room rooms)
    (split : stages = passed ++ stage :: later)
    (earlier : Passes (answer run orchestrator.quarantines) gate passed []
      upstream)
    (fails : answer run orchestrator.quarantines stage upstream =
      .error reason) :
    Audited orchestrator run upstream ↔ later ≠ [] := by
  have ends : Debates run orchestrator.quarantines upstream (.cut reason) := by
    rw [Debates, split]
    exact .cut earlier fails
  rw [← inRooms_quarantines orchestrator rooms] at ends
  rw [← length_lt_iff split earlier, Audited,
    processInvoiceLocals_of_starts starts]
  constructor
  · intro audited
    by_contra late
    obtain ⟨left, after, -, debated⟩ := debate_of_cut_last room ends late
    obtain ⟨signed, progress, after, result, -⟩ := audited
    rw [debated] at result
    cases (Prod.mk.inj result).1
  · intro early
    obtain ⟨left, after, -, state, debated⟩ := debate_of_cut room ends early
    rw [debated]
    exact ⟨_, left, _, rfl, rfl, rfl, state⟩

variable (σ) in
/-- Every failed stage leaves a record. -/
def LeavesRecords : Prop :=
  ∀ (orchestrator : Orchestrator σ) (run : Invocation) (room : RoomId)
    (rooms : σ) (passed later : List Stage) (stage : Stage)
    (upstream : List AgentDecision) (reason : Str),
    Starts orchestrator run room rooms → stages = passed ++ stage :: later →
    Passes (answer run orchestrator.quarantines) gate passed [] upstream →
    answer run orchestrator.quarantines stage upstream = .error reason →
    Audited orchestrator run upstream

end

section

open TrustLayer.Themis (KeepingBridge RealBandRoom)

attribute [local instance] sampleFloats sampleHashes sampleCrates
  sampleSigning

theorem unclassifiedRun_audited :
    ∃ upstream, upstream.length = 3 ∧
      Audited sampleOrchestrator
        (sampleRun (agentsWithout "gaap_classifier".toList)) upstream := by
  obtain ⟨upstream, three, passes, fails⟩ := unclassifiedRun_cut
  obtain ⟨room, rooms, starts⟩ := @exists_starts sampleOrchestrator
    (sampleRun (agentsWithout "gaap_classifier".toList)) nofun
  have last : stages.drop 4 ≠ [] := by decide
  exact ⟨upstream, three, (audited_iff starts rfl passes fails).mpr last⟩

/-- The error of the last agent drops the decisions of the others. -/
theorem unwatchedRun_not_leavesRecords :
    ¬ LeavesRecords (RealBandRoom KeepingBridge) := by
  intro recorded
  let run := sampleRun (agentsWithout "audit_watchdog".toList)
  obtain ⟨room, rooms, starts⟩ := @exists_starts sampleOrchestrator run nofun
  obtain ⟨upstream, passes⟩ := @exists_passes_without "audit_watchdog".toList
    sampleOrchestrator.quarantines 7 (fun _ _ => rfl) (by decide)
  have cut : answer run sampleOrchestrator.quarantines
      ⟨"audit_watchdog".toList, .done⟩ upstream =
        .error (missingAgent "audit_watchdog".toList) := rfl
  have ends : Debates run (sampleOrchestrator.inRooms rooms).quarantines
      upstream (.cut (missingAgent "audit_watchdog".toList)) :=
    .cut passes cut
  obtain ⟨left, after, -, debated⟩ := debate_of_cut_last room ends
    (by rw [passes.length]; decide)
  obtain ⟨signed, progress, last, result, -⟩ :=
    recorded _ _ room rooms (stages.take 7) [] _ upstream _ starts rfl passes
      cut
  rw [processInvoiceLocals_of_starts starts, debated] at result
  cases (Prod.mk.inj result).1

end

end Orchestrator

end TrustLayer.ThemisOrchestrator
