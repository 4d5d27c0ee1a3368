import TrustLayer.SerdeJson.Derive
import TrustLayer.ThemisOrchestrator.Packet

/-!
# Provenance

The signer seals the upstream decisions: their JSON, its hash, and a signature
on the hash, beside the public key.  The regression tester checks such a seal
against itself; it compares neither the key nor the JSON with anything outside
the seal.
-/

namespace TrustLayer.ThemisAgents

open TrustLayer.Library hiding Json
open TrustLayer.AgentGuard (Json)
open TrustLayer.SerdeJson (Parser decimal fromValue structFields)
open TrustLayer.ThemisEvidence (ErrorTexts Signing StrictVerifying)
open TrustLayer.ThemisOrchestrator (decisionValue)
open TrustLayer.TlChain (Blake3)
open TrustLayer.TlVerify (Crates Seed VerifyingKey hexDecode)

/-! ## Keys and seals -/

structure Ed25519Keypair where
  tenantId : Str
  keyId : Str
  signingKey : Seed

def Ed25519Keypair.publicKeyHex [Crates] (keypair : Ed25519Keypair) : Str :=
  toHex (Crates.publicKey keypair.signingKey).toList

def Ed25519Keypair.sign [Signing] (keypair : Ed25519Keypair)
    (message : List UInt8) : Str :=
  toHex (Signing.sign keypair.signingKey message).toList

structure ProvenanceOutput where
  blake3HashHex : Str
  signatureHex : Str
  publicKeyHex : Str
  keyId : Str
  tenantId : Str
  canonicalPayloadHex : Str
  deriving DecidableEq

namespace ProvenanceOutput

/-- `to_value`, with the fields by key. -/
def value (output : ProvenanceOutput) : Json :=
  .object [
    ("blake3_hash_hex".toList, .string output.blake3HashHex),
    ("canonical_payload_hex".toList, .string output.canonicalPayloadHex),
    ("key_id".toList, .string output.keyId),
    ("public_key_hex".toList, .string output.publicKeyHex),
    ("signature_hex".toList, .string output.signatureHex),
    ("tenant_id".toList, .string output.tenantId)]

def read (json : Json) : Option ProvenanceOutput := do
  match ← structFields ["blake3_hash_hex".toList, "signature_hex".toList,
      "public_key_hex".toList, "key_id".toList, "tenant_id".toList,
      "canonical_payload_hex".toList] json with
  | [some blake3HashHex, some signatureHex, some publicKeyHex, some keyId,
      some tenantId, some canonicalPayloadHex] =>
      return {
        blake3HashHex := ← blake3HashHex.asStr
        signatureHex := ← signatureHex.asStr
        publicKeyHex := ← publicKeyHex.asStr
        keyId := ← keyId.asStr
        tenantId := ← tenantId.asStr
        canonicalPayloadHex := ← canonicalPayloadHex.asStr }
  | _ => none

theorem read_value (output : ProvenanceOutput) :
    read output.value = some output := by
  rfl

end ProvenanceOutput

/-! ## The signer -/

namespace ProvenanceSigner

section

variable [FloatTexts] [Blake3] [Crates] [Signing]

omit [Blake3] [Crates] [Signing] in
/-- `serde_json::to_vec` of the decisions. -/
def canonical (decisions : List AgentDecision) : List UInt8 :=
  SerdeJson.toVec (.array (decisions.map decisionValue))

def output (keypair : Ed25519Keypair) (decisions : List AgentDecision) :
    ProvenanceOutput :=
  let hash := Blake3.hash (canonical decisions)
  { blake3HashHex := toHex hash.toList
    signatureHex := keypair.sign hash.toList
    publicKeyHex := keypair.publicKeyHex
    keyId := keypair.keyId
    tenantId := keypair.tenantId
    canonicalPayloadHex := toHex (canonical decisions) }

def reasoning (decisions : List AgentDecision) (output : ProvenanceOutput) :
    Str :=
  "Signed ".toList ++ decimal decisions.length ++
    " upstream decisions (BLAKE3=".toList ++ output.blake3HashHex.take 16 ++
    "…".toList ++ decimal output.blake3HashHex.length ++ ", sig=".toList ++
    output.signatureHex.take 16 ++ "…)".toList

/-- `process`, at a time. -/
def process (keypair : Ed25519Keypair) (now : Int) (ctx : AgentContext) :
    Except AgentError AgentDecision :=
  if ctx.upstreamDecisions = [] then
    .error (.invalidInput
      "ProvenanceSigner: upstream_decisions is empty".toList)
  else
    let output := output keypair ctx.upstreamDecisions
    .ok {
      agentId := "provenance_signer".toList
      tenantId := ctx.tenantId
      invoiceId := ctx.invoiceId
      decisionType := .provenanceSigned
      confidence := ⟨0x3F800000⟩
      reasoning := reasoning ctx.upstreamDecisions output
      timestampMs := now
      payload := output.value }

end

end ProvenanceSigner

/-! ## The tester -/

structure RegressionResult where
  verified : Bool
  signatureValid : Bool
  hashChainValid : Bool
  reason : Str

def RegressionResult.value (result : RegressionResult) : Json :=
  .object [
    ("hash_chain_valid".toList, .bool result.hashChainValid),
    ("reason".toList, .string result.reason),
    ("signature_valid".toList, .bool result.signatureValid),
    ("verified".toList, .bool result.verified)]

namespace RegressionTester

section

variable [Crates] [StrictVerifying]

/-- `verify_ed25519`: whatever does not decode is not valid. -/
def verifyEd25519 (publicKeyHex : Str) (message : List UInt8)
    (signatureHex : Str) : Bool :=
  match hexDecode publicKeyHex with
  | .error _ => false
  | .ok pkBytes =>
      if pkBytes.length ≠ 32 then false
      else
        match Crates.fromBytes pkBytes with
        | .error _ => false
        | .ok pk =>
            match hexDecode signatureHex with
            | .error _ => false
            | .ok sigBytes =>
                if sigBytes.length ≠ 64 then false
                else StrictVerifying.verifyStrict pk message sigBytes

def boolText (value : Bool) : Str :=
  if value then "true".toList else "false".toList

variable [Blake3]

def check (prov : ProvenanceOutput) (canonical : List UInt8) :
    RegressionResult :=
  let hashChainValid :=
    decide (toHex (Blake3.hash canonical).toList = prov.blake3HashHex)
  let signatureValid :=
    match hexDecode prov.blake3HashHex with
    | .ok rawHash => verifyEd25519 prov.publicKeyHex rawHash prov.signatureHex
    | .error _ => false
  { verified := hashChainValid && signatureValid
    signatureValid, hashChainValid
    reason :=
      if hashChainValid && signatureValid then
        "Signature + hash chain both valid".toList
      else
        "verification failed: hash_chain=".toList ++ boolText hashChainValid ++
          ", signature=".toList ++ boolText signatureValid }

/-- The first entry of the signer. -/
def signedEntry (upstream : List AgentDecision) : Option AgentDecision :=
  upstream.find? fun decision =>
    decide (decision.decisionType = .provenanceSigned)

def conclude (ctx : AgentContext) (now : Int) (result : RegressionResult) :
    AgentDecision :=
  { agentId := "regression_tester".toList
    tenantId := ctx.tenantId
    invoiceId := ctx.invoiceId
    decisionType := .regressionResult
    confidence := ⟨0x3F800000⟩
    reasoning := result.reason
    timestampMs := now
    payload := result.value }

/-- A seal that fits itself. -/
def Genuine (prov : ProvenanceOutput) : Prop :=
  ∃ canonical, hexDecode prov.canonicalPayloadHex = .ok canonical ∧
    prov.blake3HashHex = toHex (Blake3.hash canonical).toList ∧
    verifyEd25519 prov.publicKeyHex (Blake3.hash canonical).toList
      prov.signatureHex = true

theorem check_verified_iff {prov : ProvenanceOutput} {canonical : List UInt8} :
    (check prov canonical).verified = true ↔
      prov.blake3HashHex = toHex (Blake3.hash canonical).toList ∧
        verifyEd25519 prov.publicKeyHex (Blake3.hash canonical).toList
          prov.signatureHex = true := by
  simp only [check, Bool.and_eq_true, decide_eq_true_eq]
  rw [eq_comm]
  refine and_congr_right fun same => ?_
  rw [same, TlVerify.hexDecode_toHex]

variable [Parser] [ErrorTexts]

/-- `process`, at a time. -/
def process (now : Int) (ctx : AgentContext) :
    Except AgentError AgentDecision :=
  match signedEntry ctx.upstreamDecisions with
  | none =>
      .error (.invalidInput
        ("RegressionTester: no ProvenanceSigned in " ++
          "upstream_decisions").toList)
  | some signed =>
      match fromValue "ProvenanceOutput".toList ProvenanceOutput.read
          signed.payload with
      | .error error =>
          .error (.llmMalformedPayload
            (("RegressionTester: upstream ProvenanceSigned payload is not " ++
              "ProvenanceOutput: ").toList ++ error))
      | .ok prov =>
          match hexDecode prov.canonicalPayloadHex with
          | .error error =>
              .error (.internal
                ("RegressionTester: hex decode canonical: ".toList ++
                  ErrorTexts.fromHexError error))
          | .ok canonical =>
              .ok (conclude ctx now (check prov canonical))

/-! ## What a positive answer shows -/

def ReportsVerified (now : Int) (ctx : AgentContext) : Prop :=
  ∃ result, process now ctx = .ok result ∧
    result.payload.get "verified".toList = some (.bool true)

omit [Crates] [StrictVerifying] [Blake3] [Parser] [ErrorTexts] in
/-- The seal under test. -/
def Carries (ctx : AgentContext) (prov : ProvenanceOutput) : Prop :=
  ∃ signed, signedEntry ctx.upstreamDecisions = some signed ∧
    ProvenanceOutput.read signed.payload = some prov

theorem process_eq_ok_iff {now : Int} {ctx : AgentContext}
    {result : AgentDecision} :
    process now ctx = .ok result ↔ ∃ prov canonical, Carries ctx prov ∧
      hexDecode prov.canonicalPayloadHex = .ok canonical ∧
      result = conclude ctx now (check prov canonical) := by
  constructor
  · intro decided
    unfold process at decided
    split at decided
    next => cases decided
    next signed found =>
      split at decided
      next => cases decided
      next prov parsed =>
        have read := SerdeJson.fromValue_eq_ok_iff.mp parsed
        split at decided
        next => cases decided
        next canonical decoded =>
          cases decided
          exact ⟨prov, canonical, ⟨signed, found, read⟩, decoded, rfl⟩
  · rintro ⟨prov, canonical, ⟨signed, found, read⟩, decoded, rfl⟩
    have parsed : fromValue "ProvenanceOutput".toList ProvenanceOutput.read
        signed.payload = .ok prov :=
      SerdeJson.fromValue_eq_ok_iff.mpr read
    simp only [process, found, parsed, decoded]

omit [Parser] [ErrorTexts] in
theorem conclude_verified_iff {now : Int} {ctx : AgentContext}
    {prov : ProvenanceOutput} {canonical : List UInt8} :
    (conclude ctx now (check prov canonical)).payload.get "verified".toList =
        some (.bool true) ↔
      (check prov canonical).verified = true := by
  have stored : (conclude ctx now (check prov canonical)).payload.get
      "verified".toList = some (.bool (check prov canonical).verified) := rfl
  rw [stored, Option.some.injEq, AgentGuard.Json.bool.injEq]

theorem reportsVerified_iff {now : Int} {ctx : AgentContext} :
    ReportsVerified now ctx ↔ ∃ prov, Carries ctx prov ∧ Genuine prov := by
  constructor
  · rintro ⟨result, decided, verified⟩
    obtain ⟨prov, canonical, carries, decoded, rfl⟩ :=
      process_eq_ok_iff.mp decided
    have genuine := check_verified_iff.mp (conclude_verified_iff.mp verified)
    exact ⟨prov, carries, canonical, decoded, genuine⟩
  · rintro ⟨prov, carries, canonical, decoded, genuine⟩
    exact ⟨_, process_eq_ok_iff.mpr ⟨prov, canonical, carries, decoded, rfl⟩,
      conclude_verified_iff.mpr (check_verified_iff.mpr genuine)⟩

/-- Signatures and hashes as they should be, for one seal: the key signs the
hashes of what it sealed. -/
structure Ideal [FloatTexts] (keypair : Ed25519Keypair)
    (released : List (List AgentDecision)) (prov : ProvenanceOutput) : Prop where
  unforgeable : ∀ key message signature,
    Crates.fromBytes (Crates.publicKey keypair.signingKey).toList = .ok key →
    StrictVerifying.verifyStrict key message signature = true →
    ∃ decisions ∈ released,
      message = (Blake3.hash (ProvenanceSigner.canonical decisions)).toList
  collisionFree : ∀ canonical, hexDecode prov.canonicalPayloadHex = .ok canonical →
    ∀ decisions ∈ released,
      Blake3.hash canonical = Blake3.hash (ProvenanceSigner.canonical decisions) →
      canonical = ProvenanceSigner.canonical decisions

omit [Blake3] [Parser] [ErrorTexts] in
theorem verifyStrict_of_verifyEd25519 {bytes message : List UInt8}
    {signatureHex : Str}
    (verified : verifyEd25519 (toHex bytes) message signatureHex = true) :
    ∃ key signature, Crates.fromBytes bytes = .ok key ∧
      StrictVerifying.verifyStrict key message signature = true := by
  unfold verifyEd25519 at verified
  rw [TlVerify.hexDecode_toHex] at verified
  simp only at verified
  split at verified
  next => cases verified
  next =>
    split at verified
    next => cases verified
    next key read =>
      split at verified
      next => cases verified
      next signature decoded =>
        split at verified
        next => cases verified
        next => exact ⟨key, signature, read, verified⟩

omit [Parser] [ErrorTexts] in
/-- Under the own key, what is carried was sealed. -/
theorem Genuine.released [FloatTexts] {keypair : Ed25519Keypair}
    {released : List (List AgentDecision)} {prov : ProvenanceOutput}
    (genuine : Genuine prov) (own : prov.publicKeyHex = keypair.publicKeyHex)
    (ideal : Ideal keypair released prov) :
    ∃ decisions ∈ released, hexDecode prov.canonicalPayloadHex =
      .ok (ProvenanceSigner.canonical decisions) := by
  obtain ⟨canonical, decoded, -, verified⟩ := genuine
  rw [own, Ed25519Keypair.publicKeyHex] at verified
  obtain ⟨key, signature, read, accepted⟩ :=
    verifyStrict_of_verifyEd25519 verified
  obtain ⟨decisions, member, hashes⟩ :=
    ideal.unforgeable key _ signature read accepted
  have same := ideal.collisionFree canonical decoded decisions member
    (Vector.toList_inj.mp hashes)
  exact ⟨decisions, member, same ▸ decoded⟩

omit [Crates] [StrictVerifying] [Blake3] [Parser] [ErrorTexts] in
theorem Carries.unique {ctx : AgentContext} {first second : ProvenanceOutput}
    (left : Carries ctx first) (right : Carries ctx second) : first = second := by
  obtain ⟨signed, found, read⟩ := left
  obtain ⟨other, otherFound, otherRead⟩ := right
  obtain rfl := Option.some.inj (found.symm.trans otherFound)
  exact Option.some.inj (read.symm.trans otherRead)

omit [Parser] [ErrorTexts] in
/-- What the signer emits fits itself. -/
theorem genuine_output [FloatTexts] [Signing] {keypair : Ed25519Keypair}
    {decisions : List AgentDecision} {key : VerifyingKey}
    (read : Crates.fromBytes (Crates.publicKey keypair.signingKey).toList =
      .ok key)
    (correct : StrictVerifying.verifyStrict key
      (Blake3.hash (ProvenanceSigner.canonical decisions)).toList
      (Signing.sign keypair.signingKey
        (Blake3.hash (ProvenanceSigner.canonical decisions)).toList).toList =
      true) :
    Genuine (ProvenanceSigner.output keypair decisions) := by
  refine ⟨_, TlVerify.hexDecode_toHex _, rfl, ?_⟩
  simp only [verifyEd25519, ProvenanceSigner.output, Ed25519Keypair.sign,
    Ed25519Keypair.publicKeyHex, TlVerify.hexDecode_toHex, Vector.length_toList,
    read, correct]
  rfl

/-- The answer is positive exactly on a seal that fits itself, whatever stands
around it; under a tenant's key, that tenant sealed what it carries. -/
theorem process_verified_spec [FloatTexts] (now : Int) (ctx : AgentContext) :
    (ReportsVerified now ctx ↔ ∃ prov, Carries ctx prov ∧ Genuine prov) ∧
    ∀ prov keypair released, Carries ctx prov →
      prov.publicKeyHex = keypair.publicKeyHex → Ideal keypair released prov →
      ReportsVerified now ctx →
      ∃ decisions ∈ released, hexDecode prov.canonicalPayloadHex =
        .ok (ProvenanceSigner.canonical decisions) := by
  refine ⟨reportsVerified_iff, ?_⟩
  intro prov keypair released carries own ideal verified
  obtain ⟨other, otherCarries, genuine⟩ := reportsVerified_iff.mp verified
  obtain rfl := otherCarries.unique carries
  exact genuine.released own ideal

omit [Parser] [ErrorTexts] in
/-- The seal is under the tenant's key, and of the decisions in front of it. -/
def SealsPrefix [FloatTexts] (keypair : Ed25519Keypair) (ctx : AgentContext)
    (prov : ProvenanceOutput) : Prop :=
  prov.publicKeyHex = keypair.publicKeyHex ∧
    ∃ earlier signed later, ctx.upstreamDecisions = earlier ++ signed :: later ∧
      signed.decisionType = .provenanceSigned ∧
      hexDecode prov.canonicalPayloadHex =
        .ok (ProvenanceSigner.canonical earlier)

/-- A positive answer means the chain in front of the seal is as it was. -/
def DetectsTampering [FloatTexts] : Prop :=
  ∀ now ctx keypair released prov, keypair.tenantId = ctx.tenantId →
    Carries ctx prov → Ideal keypair released prov → ReportsVerified now ctx →
    SealsPrefix keypair ctx prov

end

/-! ### A decision dropped behind the seal -/

section

@[reducible] def sealFloats : FloatTexts where
  asF64 _ := ⟨0⟩
  ofF32 number :=
    if number = ⟨0x3F666666⟩ then .number "0.9".toList else .null
  ofF64 _ := .null

attribute [local instance] sealFloats

def sealedDecision : AgentDecision where
  agentId := "extractor".toList
  tenantId := "stark".toList
  invoiceId := "inv-001".toList
  decisionType := .extracted
  confidence := ⟨0x3F666666⟩
  reasoning := "x".toList
  timestampMs := 0
  payload := .object [("v".toList, .number ['1'])]

def sealHash : Vector UInt8 32 :=
  #v[0xc2, 0xa7, 0xab, 0xce, 0x85, 0x4b, 0x32, 0xb7, 0xee, 0x4a, 0xa4, 0x9c,
    0x8a, 0x0e, 0xea, 0xa1, 0xf5, 0x29, 0xf7, 0x7a, 0x3a, 0xbf, 0x60, 0x85,
    0x12, 0x49, 0xab, 0x7e, 0x65, 0xc0, 0x01, 0xea]

def sealSignature : Vector UInt8 64 :=
  #v[0x92, 0x89, 0x55, 0x54, 0x38, 0xcc, 0xa8, 0x77, 0x25, 0xdb, 0xae, 0x46,
    0xe9, 0x7a, 0x46, 0x68, 0x17, 0x93, 0x91, 0x9f, 0xb7, 0xae, 0x3c, 0xd4,
    0x9c, 0x76, 0x31, 0x5e, 0xca, 0xf9, 0x97, 0xbb, 0x80, 0x25, 0xd1, 0xac,
    0x8f, 0xcf, 0x7b, 0x0e, 0xe8, 0x05, 0xf5, 0x44, 0xed, 0x52, 0x91, 0x57,
    0x3c, 0x3b, 0x89, 0x14, 0xda, 0xf6, 0x9c, 0x9a, 0x54, 0xd5, 0x7f, 0x02,
    0xbe, 0x27, 0x6d, 0x04]

/-- BLAKE3 of the JSON of the one decision. -/
@[reducible] def sealBlake3 : Blake3 where
  hash input :=
    if input = ProvenanceSigner.canonical [sealedDecision] then sealHash
    else Vector.replicate 32 0

@[reducible] def sealKeys : Crates where
  fromBytes bytes := .ok { bytes }
  verify _ _ _ := false
  publicKey seed :=
    if seed = TlVerify.starkSeed then TlVerify.starkPublic
    else TlVerify.zeroBytes
  hkdfSha256 _ _ _ := TlVerify.zeroBytes
  base64Decode _ := none
  toVec := SerdeJson.toVec
  rfc3339 _ := []

@[reducible] def sealSigning : Signing where
  sign seed message :=
    if seed = TlVerify.starkSeed ∧ message = sealHash.toList then sealSignature
    else Vector.replicate 64 0

@[reducible] def sealStrict : StrictVerifying where
  verifyStrict key message signature :=
    decide (key.bytes = TlVerify.starkPublic.toList ∧
      message = sealHash.toList ∧ signature = sealSignature.toList)

@[reducible] def sealParser : Parser where
  tree _ := none
  textError _ _ := []
  valueError _ _ := []

@[reducible] def sealTexts : ErrorTexts where
  debug text := text
  fromHexError _ := []
  signatureError := []

attribute [local instance] sealBlake3 sealKeys sealSigning sealStrict sealParser
  sealTexts

def starkKeypair : Ed25519Keypair where
  tenantId := "stark".toList
  keyId := "stark-2b5e93db".toList
  signingKey := TlVerify.starkSeed

theorem sealBlake3_hash :
    Blake3.hash (ProvenanceSigner.canonical [sealedDecision]) = sealHash :=
  if_pos rfl

theorem starkKeypair_signs :
    Signing.sign starkKeypair.signingKey sealHash.toList = sealSignature :=
  if_pos ⟨rfl, rfl⟩

theorem starkKeypair_genuine :
    Genuine (ProvenanceSigner.output starkKeypair [sealedDecision]) := by
  apply @genuine_output _ _ _ _ _ starkKeypair [sealedDecision]
    ⟨TlVerify.starkPublic.toList⟩ rfl
  rw [sealBlake3_hash, starkKeypair_signs]
  exact decide_eq_true ⟨rfl, rfl, rfl⟩

/-- The chain holds the seal, and no longer the decision that it seals. -/
def droppedContext : AgentContext :=
  { AgentContext.new "stark".toList "inv-001".toList with
    upstreamDecisions := [
      { sealedDecision with
        agentId := "provenance_signer".toList
        decisionType := .provenanceSigned
        payload :=
          (ProvenanceSigner.output starkKeypair [sealedDecision]).value }] }

theorem droppedContext_carries :
    Carries droppedContext
      (ProvenanceSigner.output starkKeypair [sealedDecision]) :=
  ⟨_, rfl, ProvenanceOutput.read_value _⟩

theorem starkKeypair_ideal :
    Ideal starkKeypair [[sealedDecision]]
      (ProvenanceSigner.output starkKeypair [sealedDecision]) := by
  constructor
  · intro key message signature _ accepted
    obtain ⟨-, same, -⟩ := of_decide_eq_true accepted
    exact ⟨_, List.mem_cons_self, by rw [sealBlake3_hash, same]⟩
  · intro canonical decoded decisions member _
    obtain rfl := List.mem_singleton.mp member
    exact Except.ok.inj (decoded.symm.trans (TlVerify.hexDecode_toHex _))

theorem droppedDecision_not_detected : ¬ DetectsTampering := by
  intro detects
  obtain ⟨-, earlier, signed, later, chain, -, decoded⟩ :=
    detects 0 droppedContext starkKeypair _ _ rfl droppedContext_carries
      starkKeypair_ideal
      (reportsVerified_iff.mpr ⟨_, droppedContext_carries, starkKeypair_genuine⟩)
  have nothing : earlier = [] := by
    have length := congrArg List.length chain
    simp only [droppedContext, List.length_append, List.length_cons,
      List.length_nil] at length
    exact List.eq_nil_of_length_eq_zero (by omega)
  rw [nothing] at decoded
  have same : ProvenanceSigner.canonical [sealedDecision] =
      ProvenanceSigner.canonical [] :=
    Except.ok.inj ((TlVerify.hexDecode_toHex _).symm.trans decoded)
  revert same
  decide

end

end RegressionTester

end TrustLayer.ThemisAgents
