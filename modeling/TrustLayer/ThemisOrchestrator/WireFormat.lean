import TrustLayer.ThemisOrchestrator.Outcomes
import TrustLayer.TlVerify.Reading

/-!
# The wire format of packets

A signed packet is flattened into the file that the offline verifier reads.  The
file carries the exact bytes that were signed.
-/

namespace TrustLayer.ThemisOrchestrator

open TrustLayer.AgentGuard (Json)
open TrustLayer.Baaar (Outcome)
open TrustLayer.Library hiding Json
open TrustLayer.SerdeJson (Layout Parser integer readOption readVec)
open TrustLayer.ThemisAgents (AgentDecision FloatTexts)
open TrustLayer.ThemisEvidence (RekorEntry SealedPacket SignerService Signing)
open TrustLayer.TlChain (Blake3)
open TrustLayer.TlVerify (Chrono Crates PacketFile Seed)

/-! ## Data -/

structure AgentOutputWire where
  agentId : Str
  verdict : Str
  summary : Str
  riskScore : Option F32

/-- `None::<()>` is null on the wire, and so is its only value. -/
structure FlattenedPacketWireFormat where
  caseId : Str
  tenantId : Str
  decisionId : Str
  inputData : Str
  startTime : Option Str
  endTime : Option Str
  policyVersion : Str
  referenceDatabase : Str
  naturalPersonId : Option Str
  hashChainPrev : Str
  hashChainLink : Option Unit
  agentOutputs : List AgentOutputWire
  hash : Str
  signatureHex : Str
  publicKeyHex : Str
  signedPayloadB64 : Str
  rfc3161TsDerHex : Option Unit
  rfc3161TsaUrl : Option Str
  c2paManifest : Option Unit
  rekorEntry : Option Json

/-- `to_value` of an entry, with the fields by key. -/
def rekorValue (entry : RekorEntry) : Json :=
  .object [
    ("body_b64".toList, .string entry.bodyB64),
    ("bundle_url".toList, .string entry.bundleUrl),
    ("integrated_time".toList, integer entry.integratedTime.toInt),
    ("log_index".toList, integer entry.logIndex.toNat),
    ("signed_entry_timestamp".toList, .string entry.signedEntryTimestamp),
    ("uuid".toList, .string entry.uuid)]

def unit (_ : Option Unit) : Json :=
  .null

section

variable [FloatTexts]

def AgentOutputWire.value (output : AgentOutputWire) : Json :=
  .object [
    ("agent_id".toList, .string output.agentId),
    ("verdict".toList, .string output.verdict),
    ("summary".toList, .string output.summary),
    ("risk_score".toList,
      match output.riskScore with
      | none => .null
      | some score => FloatTexts.ofF32 score)]

namespace FlattenedPacketWireFormat

/-- The fields in the order of the structure; two are left out when empty. -/
def value (wire : FlattenedPacketWireFormat) : Json :=
  .object ([
    ("case_id".toList, .string wire.caseId),
    ("tenant_id".toList, .string wire.tenantId),
    ("decision_id".toList, .string wire.decisionId),
    ("input_data".toList, .string wire.inputData),
    ("start_time".toList, TlVerify.optional wire.startTime),
    ("end_time".toList, TlVerify.optional wire.endTime),
    ("policy_version".toList, .string wire.policyVersion),
    ("reference_database".toList, .string wire.referenceDatabase)] ++
    (match wire.naturalPersonId with
      | none => []
      | some email => [("natural_person_id".toList, .string email)]) ++ [
    ("hash_chain_prev".toList, .string wire.hashChainPrev),
    ("hash_chain_link".toList, unit wire.hashChainLink),
    ("agent_outputs".toList,
      .array (wire.agentOutputs.map AgentOutputWire.value)),
    ("hash".toList, .string wire.hash),
    ("signature_hex".toList, .string wire.signatureHex),
    ("public_key_hex".toList, .string wire.publicKeyHex),
    ("signed_payload_b64".toList, .string wire.signedPayloadB64),
    ("rfc3161_ts_der_hex".toList, unit wire.rfc3161TsDerHex),
    ("rfc3161_tsa_url".toList, TlVerify.optional wire.rfc3161TsaUrl),
    ("c2pa_manifest".toList, unit wire.c2paManifest)] ++
    match wire.rekorEntry with
      | none => []
      | some entry => [("rekor_entry".toList, entry)])

/-- The JSON text of the file. -/
def toText (layout : Layout) (wire : FlattenedPacketWireFormat) : Str :=
  SerdeJson.print layout 0 wire.value

/-! ## Flattening -/

omit [FloatTexts] in
def mapAgentOutputs (decisions : List AgentDecision) (verdict : Str) :
    List AgentOutputWire :=
  decisions.map fun decision =>
    { agentId := decision.agentId
      verdict
      summary := decision.reasoning
      riskScore := some decision.confidence }

omit [FloatTexts] in
def verdictStr : Outcome → Str
  | .approve => "approve".toList
  | .halt _ => "halt".toList

omit [FloatTexts] in
/-- What is left of `VOUCH_OPERATOR_EMAIL`. -/
def naturalPerson (operatorEmail : Option Str) : Option Str :=
  (operatorEmail.map trim).filter fun email => email ≠ []

variable [Chrono]

omit [FloatTexts] in
def toIso (ms : Int) : Option Str :=
  (Chrono.fromTimestampMillis ms).map Chrono.rfc3339Secs

/-- `from_signed`, with the environment variable of the operator's email. -/
def fromSigned (operatorEmail : Option Str) (packet : SignedPacket)
    (sealed_ : Option SealedPacket) : FlattenedPacketWireFormat :=
  let p := packet.packet
  let endMs := p.generatedAtMs
  let startMs := endMs - 90000
  { caseId := p.tenantId ++ ':' :: p.invoiceId
    tenantId := p.tenantId
    decisionId := hyphenated p.packetId
    inputData := p.invoiceId
    startTime := toIso startMs
    endTime := toIso endMs
    policyVersion := "apohara-vouch-1".toList
    referenceDatabase := "stanford-invoicenet-50".toList
    naturalPersonId := naturalPerson operatorEmail
    hashChainPrev := List.replicate 64 '0'
    hashChainLink := none
    agentOutputs :=
      mapAgentOutputs p.agentDecisions (verdictStr p.bbaaarOutcome)
    hash := packet.blake3HashHex
    signatureHex := packet.signatureHex
    publicKeyHex := packet.publicKeyHex
    signedPayloadB64 := Base64.b64encode p.toCanonicalJson
    rfc3161TsDerHex := none
    rfc3161TsaUrl :=
      (sealed_.map fun sealed_ => sealed_.timestamp.tsaUrl).filter
        fun url => url ≠ []
    c2paManifest := none
    rekorEntry := packet.rekorEntry.map rekorValue }

/-! ## What the verifier reads -/

/-- The file of a wire, given what its times are read as. -/
def asPacketFile (wire : FlattenedPacketWireFormat)
    (startTime endTime : Option Int) : PacketFile where
  caseId := some wire.caseId
  tenantId := some wire.tenantId
  agentOutputs := some (wire.agentOutputs.map AgentOutputWire.value)
  hashChainLink := none
  referenceDatabase := some wire.referenceDatabase
  policyVersion := some wire.policyVersion
  naturalPersonId := wire.naturalPersonId
  decisionId := some wire.decisionId
  hashChainPrev := some wire.hashChainPrev
  startTime
  endTime
  inputData := some wire.inputData
  hash := some wire.hash
  signatureHex := some wire.signatureHex
  publicKeyHex := some wire.publicKeyHex
  c2paManifest := none
  rfc3161TsDerHex := none
  rfc3161TsaUrl := wire.rfc3161TsaUrl
  signedPayloadB64 := some wire.signedPayloadB64

omit [Chrono] in
/-- Every name that the verifier asks for is the name of a field. -/
theorem fields_value (wire : FlattenedPacketWireFormat) :
    PacketFile.fields wire.value = some [
      some (.string wire.caseId), some (.string wire.tenantId),
      some (.array (wire.agentOutputs.map AgentOutputWire.value)),
      some .null, some (.string wire.referenceDatabase),
      some (.string wire.policyVersion),
      wire.naturalPersonId.map Json.string,
      some (.string wire.decisionId), some (.string wire.hashChainPrev),
      some (TlVerify.optional wire.startTime), some (TlVerify.optional wire.endTime),
      some (.string wire.inputData), some (.string wire.hash),
      some (.string wire.signatureHex), some (.string wire.publicKeyHex),
      some .null, some .null, some (TlVerify.optional wire.rfc3161TsaUrl),
      some (.string wire.signedPayloadB64)] := by
  rw [value]
  cases wire.naturalPersonId with
  | none =>
      cases wire.rekorEntry with
      | none => rfl
      | some entry => rfl
  | some email =>
      cases wire.rekorEntry with
      | none => rfl
      | some entry => rfl

omit [FloatTexts] [Chrono] in
theorem readOption_optional (text : Option Str) :
    readOption Json.asStr (some (TlVerify.optional text)) = some text := by
  cases text with
  | none => rfl
  | some text => rfl

omit [FloatTexts] [Chrono] in
theorem readOption_map (text : Option Str) :
    readOption Json.asStr (text.map Json.string) = some text := by
  cases text with
  | none => rfl
  | some text => rfl

omit [FloatTexts] [Chrono] in
theorem readVec_some (items : List Json) :
    readVec some (.array items) = some items := by
  rw [readVec]
  exact (List.mapM_pure (m := Option) (f := id)).trans (by simp)

omit [FloatTexts] [Chrono] in
theorem bind_eq_some {α β : Type} {first : Option α} {next : α → Option β}
    {value : α} {result : β} (found : first = some value)
    (rest : next value = some result) : (first >>= next) = some result := by
  rw [found]
  exact rest

/-- A text on the wire is read as a time, and a null as none. -/
def ReadsTime (text : Option Str) (time : Option Int) : Prop :=
  readOption PacketFile.readTime (some (TlVerify.optional text)) = some time

theorem read_value {wire : FlattenedPacketWireFormat}
    {startTime endTime : Option Int}
    (startRead : ReadsTime wire.startTime startTime)
    (endRead : ReadsTime wire.endTime endTime) :
    PacketFile.read wire.value =
      some (wire.asPacketFile startTime endTime) := by
  refine bind_eq_some (fields_value wire) ?_
  iterate 2 refine bind_eq_some rfl ?_
  refine bind_eq_some (congrArg (Option.map some) (readVec_some _)) ?_
  iterate 3 refine bind_eq_some rfl ?_
  refine bind_eq_some (readOption_map wire.naturalPersonId) ?_
  iterate 2 refine bind_eq_some rfl ?_
  refine bind_eq_some startRead ?_
  refine bind_eq_some endRead ?_
  iterate 6 refine bind_eq_some rfl ?_
  refine bind_eq_some (readOption_optional wire.rfc3161TsaUrl) ?_
  refine bind_eq_some rfl ?_
  rfl

/-! ## Signed packets -/

variable [Blake3] [Crates] [Signing]

/-- What is relied on of the other crates for a packet: its signature verifies
under the key of its signer, its bytes are decoded again, and the times that are
written for it are read. -/
structure Dependable (packet : EvidencePacket) : Prop where
  signature : ∃ key,
    Crates.fromBytes
      (Crates.publicKey (TlVerify.seedForTenant packet.tenantId)).toList =
        .ok key ∧
    Crates.verify key packet.toCanonicalJson
      (Signing.sign (TlVerify.seedForTenant packet.tenantId)
        packet.toCanonicalJson).toList = true
  base64 : Crates.base64Decode (Base64.b64encode packet.toCanonicalJson) =
    some packet.toCanonicalJson
  times : ∀ ms, ms = packet.generatedAtMs ∨ ms = packet.generatedAtMs - 90000 →
    ∀ time, Chrono.fromTimestampMillis ms = some time →
      ∃ read, Chrono.parse (Chrono.rfc3339Secs time) = some read

omit [FloatTexts] [Blake3] [Crates] [Signing] in
theorem exists_readsTime {ms : Int}
    (parses : ∀ time, Chrono.fromTimestampMillis ms = some time →
      ∃ read, Chrono.parse (Chrono.rfc3339Secs time) = some read) :
    ∃ time, ReadsTime (toIso ms) time ∧
      time.isSome = (Chrono.fromTimestampMillis ms).isSome := by
  unfold toIso
  cases inRange : Chrono.fromTimestampMillis ms with
  | none => exact ⟨none, rfl, rfl⟩
  | some time =>
      obtain ⟨read, parsed⟩ := parses time inRange
      exact ⟨some read, congrArg (Option.map some) parsed, rfl⟩

variable {σ : Type} {orchestrator : Orchestrator σ} {packet : EvidencePacket}
  {tenant : Tenant} {operatorEmail : Option Str}
  {sealed_ : Option SealedPacket} {startTime endTime : Option Int}

/-- The registry has the key that the signer derives. -/
structure Registered (orchestrator : Orchestrator σ) (tenantId : Str)
    (tenant : Tenant) : Prop where
  found : orchestrator.tenants tenantId = some tenant
  derived : tenant.ed25519PublicKeyHex =
    (SignerService.fromSeed tenantId
      (TlVerify.seedForTenant tenantId)).publicKeyHex

omit [Chrono] in
theorem signedAs_publicKeyHex
    (registered : Registered orchestrator packet.tenantId tenant) :
    (orchestrator.signedAs packet packet.tenantId).publicKeyHex =
      TlVerify.publicKeyHexOf (TlVerify.seedForTenant packet.tenantId) := by
  change ((orchestrator.tenants packet.tenantId).map
    Tenant.ed25519PublicKeyHex).getD [] = _
  rw [registered.found]
  exact registered.derived

omit [FloatTexts] [Chrono] [Blake3] [Crates] [Signing] in
theorem byteLen_toHex (bytes : List UInt8) :
    byteLen (toHex bytes) = 2 * bytes.length := by
  rw [byteLen, asBytes_of_ascii (toHex_ascii bytes), toHex_length]

omit [Blake3] [Crates] [Signing] in
/-- Six fields are always there, the end of the window among them. -/
theorem coverageStep_fine_iff {signed : SignedPacket} (ended : endTime.isSome) :
    (TlVerify.coverageStep ((fromSigned operatorEmail signed sealed_).asPacketFile
        startTime endTime)).fine = true ↔
      startTime.isSome ∨ (naturalPerson operatorEmail).isSome := by
  have identified : TlVerify.filled (some (hyphenated signed.packet.packetId)) =
      true := by
    simp [TlVerify.filled, hyphenated]
  have named : TlVerify.filled (some (signed.packet.tenantId ++
      ':' :: signed.packet.invoiceId)) = true := by
    simp [TlVerify.filled]
  have count : TlVerify.populated ((fromSigned operatorEmail signed
      sealed_).asPacketFile startTime endTime) =
        [startTime.isSome, true, true, true,
          (naturalPerson operatorEmail).isSome, true, true, true].count
            true := by
    simp only [TlVerify.populated, asPacketFile, fromSigned, ended, identified,
      named, Bool.or_true]
    rfl
  rw [TlVerify.coverageStep, count]
  cases startTime.isSome <;> cases (naturalPerson operatorEmail).isSome <;>
    decide

theorem signature_succeeds
    (registered : Registered orchestrator packet.tenantId tenant)
    (dependable : Dependable packet) :
    let signed := orchestrator.signedAs packet packet.tenantId
    TlVerify.Succeeds (TlVerify.signatureStep
      ((fromSigned operatorEmail signed sealed_).asPacketFile startTime endTime)
      signed.blake3HashHex signed.signatureHex signed.publicKeyHex) := by
  intro signed
  obtain ⟨key, read, verified⟩ := dependable.signature
  have publicKey := signedAs_publicKeyHex registered
  refine TlVerify.signatureStep_succeeds_iff.mpr ⟨key,
    (Crates.publicKey (TlVerify.seedForTenant packet.tenantId)).toList,
    (Blake3.hash packet.toCanonicalJson).toList,
    (Signing.sign (TlVerify.seedForTenant packet.tenantId)
      packet.toCanonicalJson).toList, ?_⟩
  constructor
  · exact (byteLen_toHex _).trans (by simp)
  · rw [publicKey]
    exact (byteLen_toHex _).trans (by simp)
  · exact (byteLen_toHex _).trans (by simp)
  · exact TlVerify.hexDecode_toHex _
  · rw [publicKey]
    exact TlVerify.hexDecode_toHex _
  · exact read
  · exact TlVerify.hexDecode_toHex _
  · exact TlVerify.verifiesAny_iff.mpr
      ⟨_, .payload dependable.base64, verified⟩

variable [Parser]

omit [Blake3] [Crates] [Signing] in
/-- The wire of a packet is read as a file, with the times that are in range. -/
theorem exists_fromText {layout : Layout} {signed : SignedPacket}
    (parses : ∀ ms, ms = signed.packet.generatedAtMs ∨
      ms = signed.packet.generatedAtMs - 90000 →
      ∀ time, Chrono.fromTimestampMillis ms = some time →
        ∃ read, Chrono.parse (Chrono.rfc3339Secs time) = some read)
    (readBack : Parser.tree
        ((fromSigned operatorEmail signed sealed_).toText layout) =
      some (fromSigned operatorEmail signed sealed_).value) :
    ∃ startTime endTime,
      PacketFile.fromText
          ((fromSigned operatorEmail signed sealed_).toText layout) =
        .ok ((fromSigned operatorEmail signed sealed_).asPacketFile startTime
          endTime) ∧
      startTime.isSome = (Chrono.fromTimestampMillis
        (signed.packet.generatedAtMs - 90000)).isSome ∧
      endTime.isSome =
        (Chrono.fromTimestampMillis signed.packet.generatedAtMs).isSome := by
  obtain ⟨startTime, startRead, started⟩ :=
    exists_readsTime (parses _ (.inr rfl))
  obtain ⟨endTime, endRead, ended⟩ := exists_readsTime (parses _ (.inl rfl))
  refine ⟨startTime, endTime, ?_, started, ended⟩
  refine SerdeJson.fromStr_eq_ok_iff.mpr ?_
  rw [readBack]
  exact read_value startRead endRead

omit [Parser] in
theorem exists_verify
    (registered : Registered orchestrator packet.tenantId tenant)
    (dependable : Dependable packet) (ended : endTime.isSome) :
    ∃ steps, TlVerify.verify ((fromSigned operatorEmail
        (orchestrator.signedAs packet packet.tenantId) sealed_).asPacketFile
          startTime endTime) = .ok steps ∧
      ((∀ step ∈ steps, step.fine = true) ↔
        startTime.isSome ∨ (naturalPerson operatorEmail).isSome) := by
  have tenantKey := signedAs_publicKeyHex registered
  have signed : TlVerify.Succeeds (TlVerify.signatureStep
      ((fromSigned operatorEmail (orchestrator.signedAs packet packet.tenantId)
        sealed_).asPacketFile startTime endTime) _ _ _) :=
    signature_succeeds registered dependable
  have stamped : TlVerify.Succeeds (TlVerify.timestampStep
      ((fromSigned operatorEmail (orchestrator.signedAs packet packet.tenantId)
        sealed_).asPacketFile startTime endTime)) := by
    apply TlVerify.timestampStep_succeeds_iff.mpr
    rintro _ ⟨⟩
  have owned : TlVerify.Succeeds (TlVerify.tenantStep
      ((fromSigned operatorEmail (orchestrator.signedAs packet packet.tenantId)
        sealed_).asPacketFile startTime endTime)
      (orchestrator.signedAs packet packet.tenantId).publicKeyHex) := by
    apply TlVerify.tenantStep_succeeds_iff.mpr
    rintro _ ⟨⟩
    exact tenantKey.symm
  obtain ⟨steps, reached, fine⟩ :=
    TlVerify.verify_of_succeeds rfl rfl rfl signed stamped owned
  refine ⟨steps, reached, fine.trans ?_⟩
  rw [coverageStep_fine_iff ended]
  have format : (TlVerify.hashFormatStep
      (orchestrator.signedAs packet packet.tenantId).blake3HashHex).fine =
        true := by
    have length : byteLen (orchestrator.signedAs packet
        packet.tenantId).blake3HashHex = 64 :=
      (byteLen_toHex _).trans (by simp)
    rw [TlVerify.hashFormatStep, if_neg (not_not.mpr length)]
    rfl
  have prev : (TlVerify.chainPrevStep ((fromSigned operatorEmail
      (orchestrator.signedAs packet packet.tenantId) sealed_).asPacketFile
        startTime endTime)).fine = true := by
    rfl
  simp only [format, prev, true_and]

/-- Every packet of the orchestrator gets through the verifier. -/
def PacketsPass (σ : Type) : Prop :=
  ∀ (orchestrator : Orchestrator σ) (packet : EvidencePacket) (tenant : Tenant)
    (layout : Layout) (operatorEmail : Option Str)
    (sealed_ : Option SealedPacket) (signed : SignedPacket),
    Registered orchestrator packet.tenantId tenant → Dependable packet →
    (Chrono.fromTimestampMillis packet.generatedAtMs).isSome →
    (orchestrator.sign packet packet.tenantId).1 = .ok signed →
    Parser.tree ((fromSigned operatorEmail signed sealed_).toText layout) =
      some (fromSigned operatorEmail signed sealed_).value →
    ∃ file steps, PacketFile.fromText
        ((fromSigned operatorEmail signed sealed_).toText layout) = .ok file ∧
      TlVerify.verify file = .ok steps ∧ ∀ step ∈ steps, step.fine = true

/-- The file of a packet is read, and the verifier goes through all its steps.
None of them fails exactly when the file has the start of the window or an
operator. -/
theorem verify_fromSigned
    (registered : Registered orchestrator packet.tenantId tenant)
    (dependable : Dependable packet)
    (inRange : (Chrono.fromTimestampMillis packet.generatedAtMs).isSome)
    (layout : Layout) (operatorEmail : Option Str)
    (sealed_ : Option SealedPacket) :
    ∃ signed, (orchestrator.sign packet packet.tenantId).1 = .ok signed ∧
      (Parser.tree ((fromSigned operatorEmail signed sealed_).toText layout) =
          some (fromSigned operatorEmail signed sealed_).value →
        ∃ file steps, PacketFile.fromText
            ((fromSigned operatorEmail signed sealed_).toText layout) =
              .ok file ∧
          TlVerify.verify file = .ok steps ∧
          ((∀ step ∈ steps, step.fine = true) ↔
            (Chrono.fromTimestampMillis
              (packet.generatedAtMs - 90000)).isSome ∨
            (naturalPerson operatorEmail).isSome)) := by
  refine ⟨orchestrator.signedAs packet packet.tenantId, rfl, ?_⟩
  intro readBack
  obtain ⟨startTime, endTime, read, started, ended⟩ :=
    exists_fromText dependable.times readBack
  have whole : endTime.isSome := ended.trans inRange
  obtain ⟨steps, reached, fine⟩ := exists_verify registered dependable whole
  refine ⟨_, steps, read, reached, fine.trans ?_⟩
  rw [started]
  rfl

end FlattenedPacketWireFormat

end

/-! ## The first moment of the calendar -/

section

open FlattenedPacketWireFormat
open TrustLayer.TlVerify (starkPublic starkSeed zeroBytes)

attribute [local instance] sampleFloats

/-- The packet with the decisions of all stages. -/
def quietPacket : EvidencePacket :=
  samplePacket quietDecisions

/-- A packet without a decision, at the first moment that `chrono` knows. -/
def edgePacket : EvidencePacket :=
  { samplePacket [] with
    packetId := Vector.replicate 16 0
    generatedAtMs := -8334601228800000 }

/-- BLAKE3 of that packet, in canonical JSON. -/
def edgeHash : Vector UInt8 32 :=
  #v[0xb5, 0x0b, 0xb5, 0xeb, 0x3d, 0xa3, 0xbc, 0xe8, 0x21, 0x5b, 0x0e, 0x70,
    0x41, 0xb2, 0x06, 0x02, 0xe3, 0x68, 0xfb, 0x0a, 0x6b, 0x46, 0x4d, 0xaf,
    0xd6, 0x47, 0xb0, 0x3f, 0xf4, 0x9a, 0x65, 0x2f]

/-- The signature of `stark` on that packet. -/
def edgeSignature : Vector UInt8 64 :=
  #v[0xa0, 0x24, 0x7f, 0x77, 0xfb, 0x97, 0x8a, 0xce, 0x07, 0x4a, 0x37, 0x86,
    0x76, 0x51, 0x11, 0xa8, 0xf5, 0xd3, 0x1a, 0xdb, 0x60, 0xe9, 0xa4, 0xb1,
    0x11, 0xd2, 0x8c, 0x68, 0x7e, 0x4e, 0xeb, 0xb5, 0xbe, 0x65, 0x13, 0x8a,
    0x31, 0x35, 0x69, 0x10, 0x71, 0x69, 0xc2, 0xd6, 0xd2, 0x17, 0x32, 0x66,
    0x29, 0x75, 0xb0, 0x1b, 0x55, 0x03, 0x30, 0xcd, 0x7c, 0x73, 0xc8, 0x51,
    0x2d, 0x6f, 0x21, 0x07]

/-- Two packets, with their signatures. -/
def recordedSignatures : List (List UInt8 × Vector UInt8 64) := [
  (quietPacket.toCanonicalJson, quietSignature),
  (edgePacket.toCanonicalJson, edgeSignature)]

/-- The moments of the two packets and the start of the one window. -/
def recordedTimes : List (Int × Str) := [
  (1781783910000000000, "2026-06-18T11:58:30Z".toList),
  (1781784000000000000, "2026-06-18T12:00:00Z".toList),
  (-8334601228800000000000, "-262143-01-01T00:00:00Z".toList)]

@[reducible] def wireHashes : Blake3 where
  hash input :=
    if input = quietPacket.toCanonicalJson then quietHash
    else if input = edgePacket.toCanonicalJson then edgeHash
    else Vector.replicate 32 0xff

@[reducible] def wireSigning : Signing where
  sign seed message :=
    if seed = starkSeed then
      (recordedSignatures.lookup message).getD (Vector.replicate 64 0)
    else Vector.replicate 64 0

@[reducible] def wireCrates : Crates where
  fromBytes bytes := .ok { bytes }
  verify key message signature :=
    decide (key.bytes = starkPublic.toList) &&
      decide ((recordedSignatures.lookup message).map Vector.toList =
        some signature)
  publicKey seed := if seed = starkSeed then starkPublic else zeroBytes
  hkdfSha256 _ _ _ := zeroBytes
  base64Decode text := (recordedSignatures.map Prod.fst).find?
    fun payload => decide (Base64.b64encode payload = text)
  toVec := SerdeJson.valueToVec
  rfc3339 _ := []

/-- The calendar as it is, and the texts of a few moments. -/
@[reducible] def wireChrono : Chrono where
  fromTimestampMillis ms :=
    if -8334601228800000 ≤ ms ∧ ms ≤ 8210266876799999 then some (ms * 1000000)
    else none
  rfc3339Secs time := (recordedTimes.lookup time).getD []
  parse text := (recordedTimes.map Prod.swap).lookup text

attribute [local instance] wireHashes wireSigning wireCrates wireChrono

/-- The parser, on the file of one packet without a seal. -/
@[reducible] def wireParser (signed : SignedPacket) : Parser where
  tree text :=
    let wire := fromSigned none signed none
    if text = wire.toText SerdeJson.pretty then some wire.value else none
  textError _ _ := []
  valueError _ _ := []

theorem starkTenant_registered :
    Registered sampleOrchestrator "stark".toList ⟨toHex starkPublic.toList⟩ :=
  ⟨rfl, rfl⟩

theorem edge_ne_quiet :
    edgePacket.toCanonicalJson ≠ quietPacket.toCanonicalJson := by
  decide +kernel

theorem quietText_ne_edgeText :
    Base64.b64encode quietPacket.toCanonicalJson ≠
      Base64.b64encode edgePacket.toCanonicalJson := by
  decide +kernel

theorem quiet_recorded :
    recordedSignatures.lookup quietPacket.toCanonicalJson =
      some quietSignature :=
  List.lookup_cons_self

theorem edge_recorded :
    recordedSignatures.lookup edgePacket.toCanonicalJson =
      some edgeSignature := by
  rw [recordedSignatures, List.lookup_cons, beq_false_of_ne edge_ne_quiet]
  exact List.lookup_cons_self

theorem quiet_decoded :
    Crates.base64Decode (Base64.b64encode quietPacket.toCanonicalJson) =
      some quietPacket.toCanonicalJson :=
  List.find?_cons_of_pos (decide_eq_true rfl)

theorem edge_decoded :
    Crates.base64Decode (Base64.b64encode edgePacket.toCanonicalJson) =
      some edgePacket.toCanonicalJson := by
  change List.find? _ (quietPacket.toCanonicalJson :: _) = _
  rw [List.find?_cons_of_neg (by simpa using quietText_ne_edgeText)]
  exact List.find?_cons_of_pos (decide_eq_true rfl)

theorem exists_key_of_recorded {packet : EvidencePacket}
    {signature : Vector UInt8 64} (own : packet.tenantId = "stark".toList)
    (recorded : recordedSignatures.lookup packet.toCanonicalJson =
      some signature) :
    ∃ key, Crates.fromBytes
        (Crates.publicKey (TlVerify.seedForTenant packet.tenantId)).toList =
          .ok key ∧
      Crates.verify key packet.toCanonicalJson
        (Signing.sign (TlVerify.seedForTenant packet.tenantId)
          packet.toCanonicalJson).toList = true := by
  have seed : TlVerify.seedForTenant packet.tenantId = starkSeed := by
    rw [own]
    rfl
  rw [seed]
  refine ⟨_, rfl, ?_⟩
  simp only [Crates.verify, Crates.publicKey, Signing.sign, if_true, recorded,
    Option.map_some, Option.getD_some, decide_true, Bool.and_self]

theorem quiet_dependable : Dependable quietPacket := by
  refine ⟨exists_key_of_recorded rfl quiet_recorded, quiet_decoded, ?_⟩
  rintro ms (rfl | rfl) time found
  · obtain rfl := Option.some.inj found
    exact ⟨_, rfl⟩
  · obtain rfl := Option.some.inj found
    exact ⟨_, rfl⟩

theorem edge_dependable : Dependable edgePacket := by
  refine ⟨exists_key_of_recorded rfl edge_recorded, edge_decoded, ?_⟩
  rintro ms (rfl | rfl) time found
  · obtain rfl := Option.some.inj found
    exact ⟨_, rfl⟩
  · cases found

theorem wireParser_tree (signed : SignedPacket) :
    @Parser.tree (wireParser signed)
        ((fromSigned none signed none).toText SerdeJson.pretty) =
      some (fromSigned none signed none).value :=
  if_pos rfl

/-- The packet of a run with eight decisions passes. -/
theorem quietPacket_verified : ∃ signed,
    (sampleOrchestrator.sign quietPacket "stark".toList).1 =
      .ok signed ∧
    ∃ file steps, @PacketFile.fromText _ (wireParser signed)
        ((fromSigned none signed none).toText SerdeJson.pretty) = .ok file ∧
      TlVerify.verify file = .ok steps ∧
      ∀ step ∈ steps, step.fine = true := by
  obtain ⟨signed, isSigned, verified⟩ := @verify_fromSigned _ _ _ _ _ _
    sampleOrchestrator quietPacket _
    (wireParser (sampleOrchestrator.signedAs quietPacket "stark".toList))
    starkTenant_registered quiet_dependable rfl SerdeJson.pretty none none
  obtain rfl := Except.ok.inj isSigned
  obtain ⟨file, steps, read, reached, fine⟩ := verified (wireParser_tree _)
  exact ⟨_, isSigned, file, steps, read, reached, fine.mpr (.inl rfl)⟩

def edgeSigned : SignedPacket :=
  sampleOrchestrator.signedAs edgePacket "stark".toList

/-- The window of the first packet has no start. -/
theorem edgePacket_fails :
    ¬ @PacketsPass _ _ _ _ _ (wireParser edgeSigned)
      (Themis.RealBandRoom Themis.KeepingBridge) := by
  intro passes
  obtain ⟨file, steps, read, reached, fine⟩ := passes sampleOrchestrator
    edgePacket _ SerdeJson.pretty none none edgeSigned starkTenant_registered
    edge_dependable rfl rfl (wireParser_tree edgeSigned)
  obtain ⟨startTime, endTime, readAs, started, ended⟩ :=
    @exists_fromText _ _ none none (wireParser edgeSigned) SerdeJson.pretty
      edgeSigned edge_dependable.times (wireParser_tree edgeSigned)
  obtain rfl := Except.ok.inj (read.symm.trans readAs)
  have whole : endTime.isSome := ended.trans rfl
  obtain ⟨others, reachedToo, fine_iff⟩ :=
    exists_verify starkTenant_registered edge_dependable whole
  obtain rfl := Except.ok.inj (reached.symm.trans reachedToo)
  rcases fine_iff.mp fine with start | operator
  · rw [started] at start
    cases start
  · cases operator

end

end TrustLayer.ThemisOrchestrator
