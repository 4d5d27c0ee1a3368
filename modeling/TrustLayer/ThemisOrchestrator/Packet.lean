import TrustLayer.ThemisAgents
import TrustLayer.ThemisEvidence.Packet

/-!
# Evidence packets

The record of a run, and the envelope with its signature and its hash.
-/

namespace TrustLayer.ThemisOrchestrator

open TrustLayer.Library hiding Json
open TrustLayer.AgentGuard (Json)
open TrustLayer.Baaar (BaaarReason Outcome)
open TrustLayer.SerdeJson (integer)
open TrustLayer.ThemisAgents (AgentDecision FloatTexts)
open TrustLayer.ThemisEvidence (RekorEntry)
open TrustLayer.TlChain (Blake3)

structure FrameworkMappings where
  doraArt9 : Bool
  doraArt10 : Bool
  doraArt17 : Bool
  euAiActArt12 : Bool
  euAiActArt26 : Bool
  nistAiRmf : Bool
  owaspAgentic : Bool
  deriving DecidableEq

def FrameworkMappings.default : FrameworkMappings :=
  { doraArt9 := true, doraArt10 := true, doraArt17 := true
    euAiActArt12 := true, euAiActArt26 := true, nistAiRmf := true
    owaspAgentic := true }

structure PeerVerdict where
  agent : Str
  riskScore : F64
  findings : List Str
  recommendation : Str
  timestampMs : Int
  deriving DecidableEq

structure EvidencePacket where
  packetId : Vector UInt8 16
  tenantId : Str
  invoiceId : Str
  agentDecisions : List AgentDecision
  generatedAtMs : Int
  bbaaarOutcome : Outcome
  frameworkMappings : FrameworkMappings
  peerVerdicts : List PeerVerdict

/-- The envelope. -/
structure SignedPacket where
  packet : EvidencePacket
  signatureHex : Str
  publicKeyHex : Str
  blake3HashHex : Str
  rekorEntry : Option RekorEntry

/-! ## Canonical JSON -/

/-- The text of a UUID. -/
def hyphenated (uuid : Vector UInt8 16) : Str :=
  let hex := toHex uuid.toList
  hex.take 8 ++ '-' :: (hex.drop 8).take 4 ++ '-' :: (hex.drop 12).take 4 ++
    '-' :: (hex.drop 16).take 4 ++ '-' :: hex.drop 20

def reasonTag : BaaarReason → Str
  | .riskScoreExceeded => "risk_score_exceeded".toList
  | .secretLeakDetected => "secret_leak_detected".toList
  | .coherenceTooLow => "coherence_too_low".toList
  | .maxDebateRoundsReached => "max_debate_rounds_reached".toList
  | .explicitHaltRequested => "explicit_halt_requested".toList

def outcomeValue : Outcome → Json
  | .approve => .string "approve".toList
  | .halt reason => .object [("halt".toList, .string (reasonTag reason))]

def FrameworkMappings.value (mappings : FrameworkMappings) : Json :=
  .object [
    ("dora_art_9".toList, .bool mappings.doraArt9),
    ("dora_art_10".toList, .bool mappings.doraArt10),
    ("dora_art_17".toList, .bool mappings.doraArt17),
    ("eu_ai_act_art_12".toList, .bool mappings.euAiActArt12),
    ("eu_ai_act_art_26".toList, .bool mappings.euAiActArt26),
    ("nist_ai_rmf".toList, .bool mappings.nistAiRmf),
    ("owasp_agentic".toList, .bool mappings.owaspAgentic)]

section

variable [FloatTexts]

def decisionValue (decision : AgentDecision) : Json :=
  .object [
    ("agent_id".toList, .string decision.agentId),
    ("tenant_id".toList, .string decision.tenantId),
    ("invoice_id".toList, .string decision.invoiceId),
    ("decision_type".toList, .string decision.decisionType.asStr),
    ("confidence".toList, FloatTexts.ofF32 decision.confidence),
    ("reasoning".toList, .string decision.reasoning),
    ("timestamp_ms".toList, integer decision.timestampMs),
    ("payload".toList, decision.payload)]

def verdictValue (verdict : PeerVerdict) : Json :=
  .object [
    ("agent".toList, .string verdict.agent),
    ("risk_score".toList, FloatTexts.ofF64 verdict.riskScore),
    ("findings".toList, .array (verdict.findings.map .string)),
    ("recommendation".toList, .string verdict.recommendation),
    ("timestamp_ms".toList, integer verdict.timestampMs)]

namespace EvidencePacket

omit [FloatTexts] in
def new (tenantId invoiceId : Str) (decisions : List AgentDecision)
    (outcome : Outcome) (packetId : Vector UInt8 16) (now : Int) :
    EvidencePacket :=
  { packetId, tenantId, invoiceId, agentDecisions := decisions
    generatedAtMs := now, bbaaarOutcome := outcome
    frameworkMappings := .default, peerVerdicts := [] }

/-- The fields in the order of the structure; no verdict, no field. -/
def value (packet : EvidencePacket) : Json :=
  .object ([
    ("packet_id".toList, Json.string (hyphenated packet.packetId)),
    ("tenant_id".toList, .string packet.tenantId),
    ("invoice_id".toList, .string packet.invoiceId),
    ("agent_decisions".toList,
      .array (packet.agentDecisions.map decisionValue)),
    ("generated_at_ms".toList, integer packet.generatedAtMs),
    ("bbaaar_outcome".toList, outcomeValue packet.bbaaarOutcome),
    ("framework_mappings".toList, packet.frameworkMappings.value)] ++
    if packet.peerVerdicts = [] then []
    else [("peer_verdicts".toList,
      .array (packet.peerVerdicts.map verdictValue))])

/-- `to_canonical_json`. -/
def toCanonicalJson (packet : EvidencePacket) : List UInt8 :=
  SerdeJson.toVec packet.value

/-- The JSON text of the packet. -/
def toText (packet : EvidencePacket) : Str :=
  SerdeJson.print SerdeJson.compact 0 packet.value

def blake3Hash [Blake3] (packet : EvidencePacket) : Str :=
  toHex (Blake3.hash packet.toCanonicalJson).toList

end EvidencePacket

namespace SignedPacket

variable [Blake3]

def wrap (packet : EvidencePacket) (signatureHex publicKeyHex : Str) :
    SignedPacket :=
  { packet, signatureHex, publicKeyHex, blake3HashHex := packet.blake3Hash
    rekorEntry := none }

def wrapWithRekor (packet : EvidencePacket) (signatureHex publicKeyHex : Str)
    (rekorEntry : RekorEntry) : SignedPacket :=
  { packet, signatureHex, publicKeyHex, blake3HashHex := packet.blake3Hash
    rekorEntry := some rekorEntry }

end SignedPacket

end

end TrustLayer.ThemisOrchestrator
