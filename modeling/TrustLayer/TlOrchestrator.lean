import TrustLayer.SerdeJson
import TrustLayer.ThemisEvidence.Signer
import TrustLayer.TlChain

/-!
# The seal endpoint

`POST /seal` signs a JSON payload that it builds from the request and the
clock, and answers with the hash and the signature.  The packet file that the
offline verifier reads holds the fields of the request and of the response.
-/

namespace TrustLayer.TlOrchestrator

open TrustLayer.Library hiding Json
open TrustLayer.AgentGuard (Json)
open TrustLayer.SerdeJson
open TrustLayer.ThemisEvidence (SignerError SignerService Signing)
open TrustLayer.TlChain (Blake3 Chain)
open TrustLayer.TlVerify (Crates PacketFile VerifyingKey hexDecode optional
  signatureStep)

/-! ## Requests and responses -/

/-- The risk score is kept as the bits of an `f32`. -/
structure AgentOutputHttp where
  agentId : Str
  verdict : Str
  summary : Str
  riskScore : Option UInt32
  deriving DecidableEq

structure SealRequest where
  caseId : Str
  tenantId : Str
  agentOutputs : List AgentOutputHttp
  hashChainLink : Option Str
  referenceDatabase : Str
  policyVersion : Str
  naturalPersonId : Option Str
  deriving DecidableEq

structure C2paManifest where
  version : Str
  vendor : Str
  claimGenerator : Str
  claimHex : Str
  algorithm : Str
  issuedAt : Str
  upstreamManifestId : Option Str
  deriving DecidableEq

structure SealResponse where
  hash : Str
  signatureHex : Str
  publicKeyHex : Str
  decisionId : Str
  c2paManifest : C2paManifest
  sealedAt : Str
  chainRoot : Str
  deriving DecidableEq

inductive SealError where
  | badRequest (detail : Str)
  | missingField (field : String)
  | signer (error : SignerError)
  | internal (detail : Str)
  deriving DecidableEq

/-- The chain of each tenant. -/
abbrev ChainRegistry := Str → Option Chain

/-- What one request meets: three readings of the clock, and a fresh id. -/
structure SealEnv where
  payloadNow : Int
  manifestNow : Int
  responseNow : Int
  decisionId : Str

/-- `Value::from` of an `f32`, and the text of a time as `to_rfc3339` writes
it. -/
class Texts where
  ofF32 : UInt32 → Json
  ofF32_wellFormed : ∀ bits, WellFormed (ofF32 bits)
  toRfc3339 : Int → Str

def euAiActArt12Fields : List String :=
  ["start_time", "end_time", "reference_database", "input_data",
    "natural_person_id", "decision_id", "policy_version", "hash_chain_prev"]

/-! ## The handler -/

section

variable [Texts]

def outputValue (output : AgentOutputHttp) : Json :=
  .object [
    ("agent_id".toList, .string output.agentId),
    ("verdict".toList, .string output.verdict),
    ("summary".toList, .string output.summary),
    ("risk_score".toList, (output.riskScore.map Texts.ofF32).getD .null)]

/-- The fields of the payload that is signed. -/
def payloadFields (request : SealRequest) (sealedAt : Str) :
    List (Str × Json) := [
  ("case_id".toList, .string request.caseId),
  ("tenant_id".toList, .string request.tenantId),
  ("agent_outputs".toList, .array (request.agentOutputs.map outputValue)),
  ("hash_chain_link".toList, optional request.hashChainLink),
  ("reference_database".toList, .string request.referenceDatabase),
  ("policy_version".toList, .string request.policyVersion),
  ("natural_person_id".toList, optional request.naturalPersonId),
  ("sealed_at".toList, .string sealedAt),
  ("eu_ai_act_art12_fields".toList,
    .array (euAiActArt12Fields.map fun field => .string field.toList))]

def C2paManifest.build (claimGenerator claimHex : Str)
    (upstreamManifestId : Option Str) (now : Int) : C2paManifest :=
  { version := "2.1".toList
    vendor := "apohara-vouch-v1".toList
    claimGenerator
    claimHex
    algorithm := "Ed25519+BLAKE3".toList
    issuedAt := Texts.toRfc3339 now
    upstreamManifestId }

variable [Blake3] [Crates] [Signing]

omit [Texts] [Crates] [Signing] in
/-- `ChainRegistry::append`, with the root of the longer chain. -/
def append (registry : ChainRegistry) (tenantId payload : Str) :
    Str × ChainRegistry :=
  let chain := ((registry tenantId).getD Chain.new).append payload
  (chain.root, fun other =>
    if other = tenantId then some chain else registry other)

/-- The bytes that are hashed and signed. -/
def canonicalBytes (request : SealRequest) (env : SealEnv) : List UInt8 :=
  Crates.toVec (.object
    (payloadFields request (Texts.toRfc3339 env.payloadNow)))

/-- The `seal` handler. -/
def sealRequest (registry : ChainRegistry) (request : SealRequest)
    (env : SealEnv) : Except SealError SealResponse × ChainRegistry :=
  if request.caseId = [] then (.error (.missingField "case_id"), registry)
  else if request.tenantId = [] then
    (.error (.missingField "tenant_id"), registry)
  else if request.agentOutputs = [] then
    (.error (.missingField "agent_outputs"), registry)
  else
    let canonicalBytes := canonicalBytes request env
    let hashHex := toHex (Blake3.hash canonicalBytes).toList
    match SignerService.forTenant request.tenantId with
    | .error error => (.error (.signer error), registry)
    | .ok signer =>
        let signatureHex := signer.signHex canonicalBytes
        let publicKeyHex := signer.publicKeyHex
        let (chainRoot, registry) := append registry request.tenantId hashHex
        (.ok
          { hash := hashHex
            signatureHex
            publicKeyHex
            decisionId := env.decisionId
            c2paManifest := C2paManifest.build "vouch-orchestrator".toList
              signatureHex request.hashChainLink env.manifestNow
            sealedAt := Texts.toRfc3339 env.responseNow
            chainRoot },
          registry)

end

/-! ## The packet file -/

def manifestValue (manifest : C2paManifest) : Json :=
  .object [
    ("version".toList, .string manifest.version),
    ("vendor".toList, .string manifest.vendor),
    ("claim_generator".toList, .string manifest.claimGenerator),
    ("claim_hex".toList, .string manifest.claimHex),
    ("algorithm".toList, .string manifest.algorithm),
    ("issued_at".toList, .string manifest.issuedAt),
    ("upstream_manifest_id".toList, optional manifest.upstreamManifestId)]

/-- The fields of the request and of the response in one file, with the agent
outputs as they are written there. -/
def packetFile (request : SealRequest) (response : SealResponse)
    (agentOutputs : List Json) : PacketFile where
  caseId := some request.caseId
  tenantId := some request.tenantId
  agentOutputs := some agentOutputs
  hashChainLink := request.hashChainLink
  referenceDatabase := some request.referenceDatabase
  policyVersion := some request.policyVersion
  naturalPersonId := request.naturalPersonId
  decisionId := some response.decisionId
  hashChainPrev := none
  startTime := none
  endTime := none
  inputData := none
  hash := some response.hash
  signatureHex := some response.signatureHex
  publicKeyHex := some response.publicKeyHex
  c2paManifest := some (manifestValue response.c2paManifest)
  rfc3161TsDerHex := none
  rfc3161TsaUrl := none
  signedPayloadB64 := none

/-- The `ed25519_signature` step of the verifier on the packet file. -/
def fileSignatureStep [Crates] (request : SealRequest) (response : SealResponse)
    (agentOutputs : List Json) : Except TlVerify.Stop TlVerify.Step :=
  signatureStep (packetFile request response agentOutputs) response.hash
    response.signatureHex response.publicKeyHex

/-! ## What is signed is not what is verified -/

section

variable [Texts]

theorem wellFormed_outputValue (output : AgentOutputHttp) :
    WellFormed (outputValue output) := by
  have score : WellFormed ((output.riskScore.map Texts.ofF32).getD .null) := by
    cases output.riskScore with
    | none => trivial
    | some bits => exact Texts.ofF32_wellFormed bits
  simpa [outputValue] using score

omit [Texts] in
theorem wellFormed_optional (text : Option Str) :
    WellFormed (optional text) := by
  cases text <;> trivial

theorem wellFormed_payload (request : SealRequest) (sealedAt : Str) :
    WellFormed (.object (payloadFields request sealedAt)) := by
  simp [payloadFields, wellFormed_outputValue, wellFormed_optional]

variable [Blake3] [Crates] [Signing]

omit [Texts] [Blake3] [Signing] in
theorem wellFormed_canonical {request : SealRequest} {response : SealResponse}
    {agentOutputs : List Json}
    (outputs : ∀ output ∈ agentOutputs, WellFormed output) :
    WellFormed (TlVerify.canonical
      (packetFile request response agentOutputs)) := by
  simpa [TlVerify.canonical, packetFile, wellFormed_optional,
    TlVerify.optionalValues, TlVerify.optionalTime] using outputs

/-- `to_vec` of a `Value` is the compact printer. -/
def PrintsValues : Prop :=
  ∀ value, Crates.toVec value = valueToVec value

omit [Blake3] [Signing] in
/-- The payload that is re-derived has no `sealed_at`. -/
theorem canonicalBytes_ne_canonical (prints : PrintsValues)
    {request : SealRequest} {env : SealEnv} {response : SealResponse}
    {agentOutputs : List Json}
    (outputs : ∀ output ∈ agentOutputs, WellFormed output) :
    canonicalBytes request env ≠ Crates.toVec
      (TlVerify.canonical (packetFile request response agentOutputs)) := by
  intro same
  rw [canonicalBytes, prints, prints] at same
  have keys := keys_perm_of_valueToVec (wellFormed_payload request _)
    (wellFormed_canonical outputs) same
  have sealedAt := keys.subset
    (show "sealed_at".toList ∈ (payloadFields request _).map Prod.fst by
      simp [payloadFields])
  simp at sealedAt

omit [Blake3] [Signing] in
/-- The payload is longer than a hash. -/
theorem length_lt_canonicalBytes (prints : PrintsValues)
    (request : SealRequest) (env : SealEnv) :
    32 < (canonicalBytes request env).length := by
  have keys := keys_le_valueToVec
    (payloadFields request (Texts.toRfc3339 env.payloadNow))
  rw [canonicalBytes, prints]
  exact Nat.lt_of_lt_of_le (by simp [payloadFields]) keys

/-- What a response takes from the payload. -/
structure SealedBy (request : SealRequest) (env : SealEnv)
    (response : SealResponse) : Prop where
  hash : response.hash =
    toHex (Blake3.hash (canonicalBytes request env)).toList
  signature : response.signatureHex =
    (SignerService.fromSeed request.tenantId
      (TlVerify.seedForTenant request.tenantId)).signHex
        (canonicalBytes request env)
  publicKey : response.publicKeyHex =
    TlVerify.publicKeyHexOf (TlVerify.seedForTenant request.tenantId)

theorem sealedBy_of_sealRequest {registry next : ChainRegistry}
    {request : SealRequest} {env : SealEnv} {response : SealResponse}
    (accepted : sealRequest registry request env = (.ok response, next)) :
    SealedBy request env response := by
  unfold sealRequest at accepted
  split_ifs at accepted with caseId tenantId agentOutputs
  · cases (Prod.ext_iff.mp accepted).1
  · cases (Prod.ext_iff.mp accepted).1
  · cases (Prod.ext_iff.mp accepted).1
  · obtain rfl := Except.ok.inj (Prod.ext_iff.mp accepted).1
    constructor <;> rfl

/-- The signature on the message, under the key of the seed, verifies that
message and no other one. -/
structure SignsOnly (seed : TlVerify.Seed) (message : List UInt8) : Prop where
  verifies : ∀ key, Crates.fromBytes (Crates.publicKey seed).toList = .ok key →
    Crates.verify key message (Signing.sign seed message).toList = true
  binds : ∀ key other, Crates.verify key message
      (Signing.sign seed message).toList = true →
    Crates.verify key other (Signing.sign seed message).toList = true →
    other = message

/-- The messages that the verifier tries are not the payload. -/
theorem not_succeeds_of_sealedBy {request : SealRequest} {env : SealEnv}
    {response : SealResponse} {agentOutputs : List Json}
    (prints : PrintsValues) (sealed : SealedBy request env response)
    (signs : SignsOnly (TlVerify.seedForTenant request.tenantId)
      (canonicalBytes request env))
    (outputs : ∀ output ∈ agentOutputs, WellFormed output) :
    ¬ TlVerify.Succeeds (fileSignatureStep request response agentOutputs) := by
  intro succeeds
  obtain ⟨key, pkBytes, hashBytes, sig, holds⟩ :=
    TlVerify.signatureStep_succeeds_iff.mp succeeds
  obtain ⟨message, signedMessage, verified⟩ :=
    TlVerify.verifiesAny_iff.mp holds.verified
  -- the key is the tenant's, and the signature the one on the payload
  have keyRead := holds.keyRead
  have pkDecoded := holds.pkDecoded
  rw [sealed.publicKey, TlVerify.publicKeyHexOf, TlVerify.hexDecode_toHex]
    at pkDecoded
  obtain rfl := Except.ok.inj pkDecoded
  have sigDecoded := holds.sigDecoded
  rw [sealed.signature, SignerService.hexDecode_signHex] at sigDecoded
  obtain rfl := Except.ok.inj sigDecoded
  have isPayload : message = canonicalBytes request env :=
    signs.binds key message (signs.verifies key keyRead) verified
  cases signedMessage with
  | hash =>
      have hashDecoded := holds.hashDecoded
      rw [sealed.hash, TlVerify.hexDecode_toHex] at hashDecoded
      obtain rfl := Except.ok.inj hashDecoded
      have longer := length_lt_canonicalBytes prints request env
      rw [← isPayload, Vector.length_toList] at longer
      exact absurd longer (lt_irrefl 32)
  | payload attached => cases attached
  | canonical =>
      exact canonicalBytes_ne_canonical prints outputs isPayload.symm

/-- No file of an accepted request has a signature that the verifier
accepts. -/
theorem not_fileSignatureStep_succeeds {registry next : ChainRegistry}
    {request : SealRequest} {env : SealEnv} {response : SealResponse}
    {agentOutputs : List Json} (prints : PrintsValues)
    (accepted : sealRequest registry request env = (.ok response, next))
    (signs : SignsOnly (TlVerify.seedForTenant request.tenantId)
      (canonicalBytes request env))
    (outputs : ∀ output ∈ agentOutputs, WellFormed output) :
    ¬ TlVerify.Succeeds (fileSignatureStep request response agentOutputs) := by
  have sealed := sealedBy_of_sealRequest accepted
  exact not_succeeds_of_sealedBy prints sealed signs outputs

/-- The file of every accepted request has a signature that the verifier
accepts. -/
def FilesVerify : Prop :=
  ∀ registry request env response next, PrintsValues →
    sealRequest registry request env = (.ok response, next) →
    SignsOnly (TlVerify.seedForTenant request.tenantId)
      (canonicalBytes request env) →
    TlVerify.Succeeds (fileSignatureStep request response
      (request.agentOutputs.map outputValue))

end

/-! ### One accepted request -/

open TrustLayer.TlVerify (starkSeed starkPublic zeroBytes)

def sampleRequest : SealRequest where
  caseId := "case-001".toList
  tenantId := "stark".toList
  agentOutputs := [
    { agentId := "fraud-auditor".toList
      verdict := "halt".toList
      summary := "secret detected".toList
      riskScore := some 0x3f6b851f }]
  hashChainLink := none
  referenceDatabase := "stanford-invoicenet-50".toList
  policyVersion := "apohara-vouch-1".toList
  naturalPersonId := none

/-- One instant at all three readings of the clock. -/
def sampleEnv : SealEnv where
  payloadNow := 1781784000000000000
  manifestNow := 1781784000000000000
  responseNow := 1781784000000000000
  decisionId := "6f1c8a52-3d0e-4b7f-9a64-0d5be2c7f913".toList

/-- The payload that is signed. -/
def samplePayload : Str :=
  "\x7b\"agent_outputs\":[\x7b\"agent_id\":\"fraud-auditor\",".toList ++
  "\"risk_score\":0.9200000166893005,".toList ++
  "\"summary\":\"secret detected\",".toList ++
  "\"verdict\":\"halt\"\x7d],\"case_id\":\"case-001\",".toList ++
  "\"eu_ai_act_art12_fields\":[\"start_time\",".toList ++
  "\"end_time\",\"reference_database\",".toList ++
  "\"input_data\",\"natural_person_id\",".toList ++
  "\"decision_id\",\"policy_version\",".toList ++
  "\"hash_chain_prev\"],\"hash_chain_link\":null,".toList ++
  "\"natural_person_id\":null,".toList ++
  "\"policy_version\":\"apohara-vouch-1\",".toList ++
  "\"reference_database\":\"stanford-invoicenet-50\",".toList ++
  "\"sealed_at\":\"2026-06-18T12:00:00+00:00\",".toList ++
  "\"tenant_id\":\"stark\"\x7d".toList

/-- BLAKE3 of `samplePayload`. -/
def sampleHash : Vector UInt8 32 :=
  #v[0xd8, 0xd4, 0x24, 0x5d, 0x8c, 0x68, 0xd9, 0xdd, 0xb3, 0x4d, 0xfe, 0x7c,
    0x40, 0x60, 0xf8, 0xaf, 0x3a, 0x39, 0xde, 0xa6, 0xc4, 0x1e, 0xf5, 0x85,
    0x73, 0x06, 0x95, 0x9d, 0x3d, 0x4d, 0x28, 0x36]

/-- BLAKE3 of the first entry of a chain, with that hash as its payload. -/
def sampleEntryHash : Vector UInt8 32 :=
  #v[0x16, 0xfd, 0x3a, 0xc0, 0xc1, 0x71, 0x29, 0x33, 0x9b, 0xd9, 0x07, 0xd1,
    0x46, 0x14, 0x55, 0x2f, 0x72, 0xe7, 0x5c, 0x59, 0x5e, 0xfd, 0xf8, 0x6e,
    0x1b, 0xd5, 0xa1, 0x26, 0xd0, 0xbb, 0xd6, 0xf8]

/-- The signature of `stark` on `samplePayload`. -/
def sampleSignature : Vector UInt8 64 :=
  #v[0x91, 0x4f, 0xc7, 0xca, 0xd8, 0x3c, 0x52, 0x73, 0x13, 0xf5, 0xfe, 0x06,
    0xeb, 0x33, 0xb6, 0x2f, 0x85, 0xfe, 0xed, 0x8c, 0x09, 0x91, 0x08, 0x00,
    0xec, 0x1d, 0x1b, 0xdb, 0x81, 0x6f, 0xd1, 0x92, 0xe9, 0xf2, 0xe2, 0x6e,
    0x47, 0x81, 0x24, 0xbd, 0xea, 0xd7, 0xb9, 0xc7, 0xa9, 0xd1, 0x2a, 0x27,
    0x27, 0x77, 0x69, 0xcc, 0x8b, 0xe6, 0x28, 0xcf, 0xc0, 0x07, 0x0c, 0x93,
    0x8d, 0xaf, 0xd0, 0x08]

@[reducible] def sampleTexts : Texts where
  ofF32 bits :=
    if bits = 0x3f6b851f then .number "0.9200000166893005".toList else .null
  ofF32_wellFormed bits := by
    split
    · constructor
      · decide
      · simp [Numeral, isAsciiDigit]
    · trivial
  toRfc3339 now :=
    if now = 1781784000000000000 then "2026-06-18T12:00:00+00:00".toList
    else []

@[reducible] def sampleHashes : Blake3 where
  hash input :=
    if input = utf8Bytes samplePayload then sampleHash
    else if input = TlChain.hashInput 0 TlChain.genesisPrevHash
      (toHex sampleHash.toList)
    then sampleEntryHash
    else Vector.replicate 32 0xff

@[reducible] def sampleSigning : Signing where
  sign seed message :=
    if seed = starkSeed ∧ message = utf8Bytes samplePayload then
      sampleSignature
    else Vector.replicate 64 0

@[reducible] def sampleCrates : Crates where
  fromBytes bytes := .ok { bytes }
  verify key message signature :=
    decide (key.bytes = starkPublic.toList) &&
      decide (message = utf8Bytes samplePayload) &&
      decide (signature = sampleSignature.toList)
  publicKey seed := if seed = starkSeed then starkPublic else zeroBytes
  hkdfSha256 _ _ _ := zeroBytes
  base64Decode _ := none
  toVec := valueToVec
  rfc3339 _ := []

def sampleResponse : SealResponse where
  hash := toHex sampleHash.toList
  signatureHex := toHex sampleSignature.toList
  publicKeyHex := toHex starkPublic.toList
  decisionId := sampleEnv.decisionId
  c2paManifest := @C2paManifest.build sampleTexts
    "vouch-orchestrator".toList (toHex sampleSignature.toList) none
    sampleEnv.manifestNow
  sealedAt := "2026-06-18T12:00:00+00:00".toList
  chainRoot := toHex sampleEntryHash.toList

theorem sample_canonicalBytes :
    @canonicalBytes sampleTexts sampleCrates sampleRequest sampleEnv =
      utf8Bytes samplePayload := by
  unfold canonicalBytes payloadFields outputValue sampleRequest samplePayload
    euAiActArt12Fields
  simp only [List.map_cons, List.map_nil, -String.reduceToList]
  -- A literal read through its characters is not decoded by the kernel.
  repeat rw [String.toList_ofList]
  apply congrArg utf8Bytes
  decide +kernel

/-- The chain of the tenant behind the request. -/
def sampleRegistry : ChainRegistry :=
  (@append sampleHashes (fun _ => none) sampleRequest.tenantId
    (toHex sampleHash.toList)).2

theorem sample_seed :
    @TlVerify.seedForTenant sampleCrates sampleRequest.tenantId =
      starkSeed := by
  decide +kernel

theorem sample_sealRequest :
    @sealRequest sampleTexts sampleHashes sampleCrates sampleSigning
      (fun _ => none) sampleRequest sampleEnv =
        (.ok sampleResponse, sampleRegistry) := by
  have own : sampleCrates.publicKey starkSeed = starkPublic := if_pos rfl
  have hashed : sampleHashes.hash (utf8Bytes samplePayload) = sampleHash :=
    if_pos rfl
  have signed : sampleSigning.sign starkSeed (utf8Bytes samplePayload) =
      sampleSignature :=
    if_pos ⟨rfl, rfl⟩
  have root : (@append sampleHashes (fun _ => none) sampleRequest.tenantId
      (toHex sampleHash.toList)).1 = toHex sampleEntryHash.toList := by
    decide +kernel
  simp only [sealRequest, sample_canonicalBytes, hashed,
    SignerService.forTenant, sample_seed, SignerService.signHex,
    SignerService.publicKeyHex, SignerService.fromSeed, signed, root,
    TlVerify.publicKeyHexOf, own]
  rfl

theorem sample_signsOnly :
    @SignsOnly sampleCrates sampleSigning
      (@TlVerify.seedForTenant sampleCrates sampleRequest.tenantId)
      (@canonicalBytes sampleTexts sampleCrates sampleRequest sampleEnv) := by
  have verify_iff (key : VerifyingKey) (message signature : List UInt8) :
      sampleCrates.verify key message signature = true ↔
        key.bytes = starkPublic.toList ∧
          message = utf8Bytes samplePayload ∧
          signature = sampleSignature.toList := by
    change (decide (key.bytes = starkPublic.toList) &&
      decide (message = utf8Bytes samplePayload) &&
      decide (signature = sampleSignature.toList)) = true ↔ _
    simp [and_assoc]
  have signed : sampleSigning.sign starkSeed (utf8Bytes samplePayload) =
      sampleSignature :=
    if_pos ⟨rfl, rfl⟩
  have own : sampleCrates.publicKey starkSeed = starkPublic := if_pos rfl
  rw [sample_canonicalBytes, sample_seed]
  apply @SignsOnly.mk sampleCrates sampleSigning
  · intro key read
    obtain rfl := Except.ok.inj read
    rw [signed, own]
    exact (verify_iff _ _ _).mpr ⟨rfl, rfl, rfl⟩
  · intro key other verified otherVerified
    exact ((verify_iff _ _ _).mp otherVerified).2.1

/-- The file of the request, with its outputs as they were sent. -/
theorem sample_not_verified :
    ¬ TlVerify.Succeeds (@fileSignatureStep sampleCrates sampleRequest
      sampleResponse
      (sampleRequest.agentOutputs.map (@outputValue sampleTexts))) := by
  apply @not_fileSignatureStep_succeeds sampleTexts sampleHashes sampleCrates
    sampleSigning
  · exact fun value => rfl
  · exact sample_sealRequest
  · exact sample_signsOnly
  · intro output member
    obtain ⟨written, -, rfl⟩ := List.mem_map.mp member
    exact @wellFormed_outputValue sampleTexts written

theorem sample_disagrees :
    ¬ @FilesVerify sampleTexts sampleHashes sampleCrates sampleSigning := by
  intro agree
  have succeeds := agree (fun _ => none) sampleRequest sampleEnv sampleResponse
    sampleRegistry (fun value => rfl) sample_sealRequest sample_signsOnly
  refine @not_succeeds_of_sealedBy sampleTexts sampleHashes sampleCrates
    sampleSigning _ _ _ _ (fun value => rfl)
    (@sealedBy_of_sealRequest sampleTexts sampleHashes sampleCrates
      sampleSigning _ _ _ _ _ sample_sealRequest) sample_signsOnly ?_ succeeds
  intro output member
  obtain ⟨written, -, rfl⟩ := List.mem_map.mp member
  exact @wellFormed_outputValue sampleTexts written

end TrustLayer.TlOrchestrator
