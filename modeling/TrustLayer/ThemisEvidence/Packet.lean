import TrustLayer.Library.Base64
import TrustLayer.SerdeJson
import TrustLayer.ThemisEvidence
import TrustLayer.ThemisEvidence.Signer

/-!
# Sealed packets

`seal` signs the hash of a payload, appends the payload to the service's chain
and has the hash timestamped.  `verify` takes the key it verifies with from the
packet, and checks the service's own chain without looking the packet up in it.
-/

namespace TrustLayer.ThemisEvidence

open TrustLayer.Library
open TrustLayer.TlChain (Blake3 genesisPrevHash)
open TrustLayer.TlVerify (Crates FromHexError Unforgeable VerifyingKey hexDecode)

/-! ## Data -/

structure Timestamp where
  time : Int64
  accuracyMs : Int64
  tsaUrl : Str
  deriving DecidableEq

structure TimestampResponse where
  time : Int64
  accuracyMs : Int64
  rawDer : List UInt8
  deriving DecidableEq

/-- The timeout is in nanoseconds. -/
inductive TsError where
  | transport (detail : Str)
  | invalidResponse (detail : Str)
  | timeout (after : Nat)
  deriving DecidableEq

structure DsseSignature where
  keyid : Str
  sig : Str
  deriving DecidableEq

structure DsseEnvelope where
  payloadType : Str
  payload : Str
  signatures : List DsseSignature
  deriving DecidableEq

structure RekorEntry where
  uuid : Str
  logIndex : UInt64
  bodyB64 : Str
  integratedTime : Int64
  signedEntryTimestamp : Str
  bundleUrl : Str
  deriving DecidableEq

structure SealedPacket where
  packetId : Vector UInt8 16
  tenantId : Str
  invoiceId : Str
  payloadCanonicalJson : List UInt8
  blake3HashHex : Str
  signatureHex : Str
  publicKeyHex : Str
  timestamp : Timestamp
  chainLength : UInt64
  dsseEnvelope : Option DsseEnvelope
  rekorEntry : Option RekorEntry
  iso42001 : Option AgentGuard.Json
  euRegistrationId : Option Str

inductive EvError where
  | signer (error : SignerError)
  | chain (error : ChainError)
  | ts (error : TsError)
  | verifyFailed (detail : Str)
  deriving DecidableEq

/-- The texts that come from other crates. -/
class ErrorTexts where
  /-- The debug text of a string. -/
  debug : Str → Str
  fromHexError : FromHexError → Str
  /-- The text of a signature that does not verify. -/
  signatureError : Str

/-- The timestamp authority is known by its URL. -/
structure EvidenceService where
  signer : SignerService
  chain : HashChain
  tsaUrl : Str
  retention : RetentionPolicy
  jurisdiction : Str
  deriving DecidableEq

/-- What one call of `seal` meets: the two readings of the clock, the answers of
the timestamp authority, and the fresh id. -/
structure SealEnv where
  retentionNowMs : Int64
  appendNowMs : Int64
  stamp : Except TsError TimestampResponse
  stampVerifies : Bool
  packetId : Vector UInt8 16

namespace EvidenceService

/-- Every constructor begins with an empty chain. -/
def fromSigner (signer : SignerService) (tsaUrl : Str)
    (retention : RetentionPolicy) : EvidenceService :=
  { signer, chain := HashChain.new, tsaUrl, retention
    jurisdiction := "EU".toList }

/-! ## Sealing -/

/-- The canonical JSON of a payload: a quoted text. -/
def canonicalJson (payload : Str) : List UInt8 :=
  SerdeJson.toVec (.string payload)

/-- The static claims, with the keys sorted. -/
def iso42001 : AgentGuard.Json :=
  .object [
    ("impact_assessment_ref".toList,
      .string "themis-compliance v0.1.0".toList),
    ("improvement_cycle".toList,
      .string "post-hackathon sprint (vNext roadmap)".toList),
    ("lifecycle_stage".toList, .string "production".toList),
    ("monitoring_mechanism".toList,
      .string "BAAAR-gate + 310+-test suite".toList),
    ("risk_assessment_conducted".toList, .bool true)]

section

variable [Blake3] [Crates] [Signing]

/-- The `dsse_envelope` of a packet. -/
def dsseEnvelope (payloadCanonicalJson signature : List UInt8)
    (publicKeyHex : Str) : DsseEnvelope :=
  { payloadType := "application/vnd.apohara.themis.entry+json".toList
    payload := Base64.urlsafeUnpadded payloadCanonicalJson
    signatures := [{ keyid := publicKeyHex.take 16
                     sig := Base64.urlsafeUnpadded signature }] }

/-- The packet that `seal` returns once the payload is on the chain. -/
def sealedPacket (service : EvidenceService) (invoiceId payload : Str)
    (rekorEntry : Option RekorEntry) (response : TimestampResponse)
    (packetId : Vector UInt8 16) : SealedPacket :=
  let payloadCanonicalJson := canonicalJson payload
  let hash := Blake3.hash payloadCanonicalJson
  let signatureHex := service.signer.signHex hash.toList
  { packetId
    tenantId := service.signer.tenantId
    invoiceId
    payloadCanonicalJson
    blake3HashHex := toHex hash.toList
    signatureHex
    publicKeyHex := service.signer.publicKeyHex
    timestamp :=
      { time := response.time, accuracyMs := response.accuracyMs
        tsaUrl := service.tsaUrl }
    chainLength := UInt64.ofNat service.chain.entries.length
    dsseEnvelope := some (dsseEnvelope payloadCanonicalJson
      ((hexDecode signatureHex).toOption.getD [])
      service.signer.publicKeyHex)
    rekorEntry
    iso42001 := some iso42001
    euRegistrationId := none }

/-- `EvidenceService::seal`. -/
def sealPacket (service : EvidenceService) (invoiceId payload : Str)
    (rekorEntry : Option RekorEntry) (env : SealEnv) :
    Except EvError SealedPacket × EvidenceService :=
  match service.chain.enforceRetention service.retention env.retentionNowMs
      service.signer.tenantId service.jurisdiction with
  | .error error => (.error (.chain error), service)
  | .ok () =>
      let service :=
        { service with
          chain := service.chain.appendWithTimestamp payload env.appendNowMs }
      -- the payload stays on the chain when the authority fails
      match env.stamp with
      | .error error => (.error (.ts error), service)
      | .ok response =>
          if env.stampVerifies = false then
            (.error (.verifyFailed "TSA rejected its own response".toList),
              service)
          else
            (.ok (sealedPacket service invoiceId payload rekorEntry response
              env.packetId), service)

end

/-! ## Verifying -/

section

variable [Blake3] [Crates] [ErrorTexts]

omit [Blake3] [Crates] in
def decode (label : String) (text : Str) : Except EvError (List UInt8) :=
  (hexDecode text).mapError fun error =>
    .verifyFailed (label.toList ++ ErrorTexts.fromHexError error)

/-- The key that the packet carries. -/
def packetKey (packet : SealedPacket) : Except EvError VerifyingKey := do
  let pkBytes ← decode "decode pubkey: " packet.publicKeyHex
  if pkBytes.length ≠ 32 then
    .error (.verifyFailed "pubkey not 32 bytes".toList)
  else
    (Crates.fromBytes pkBytes).mapError fun detail =>
      .verifyFailed ("parse pubkey: ".toList ++ detail)

omit [Blake3] [Crates] in
def packetSignature (packet : SealedPacket) : Except EvError (List UInt8) := do
  let sigBytes ← decode "decode sig: " packet.signatureHex
  if sigBytes.length ≠ 64 then
    .error (.verifyFailed "sig not 64 bytes".toList)
  else .ok sigBytes

def verify (service : EvidenceService) (packet : SealedPacket) :
    Except EvError Unit :=
  if packet.tenantId ≠ service.signer.tenantId then
    .error (.verifyFailed
      ("cross-tenant verify denied: this service is for tenant ".toList ++
        ErrorTexts.debug service.signer.tenantId ++ ", packet is for ".toList ++
        ErrorTexts.debug packet.tenantId))
  else if toHex (Blake3.hash packet.payloadCanonicalJson).toList ≠
      packet.blake3HashHex then
    .error (.verifyFailed "BLAKE3 hash mismatch".toList)
  else do
    let pk ← packetKey packet
    let sig ← packetSignature packet
    let rawHash ← decode "decode blake3 hash: " packet.blake3HashHex
    if Crates.verify pk rawHash sig then
      service.chain.verify.mapError .chain
    else
      .error (.verifyFailed
        ("signature: ".toList ++ ErrorTexts.signatureError))

/-! ### What is checked -/

omit [ErrorTexts] in
/-- The signature is on the hash, under a key that is written as `keyHex`. -/
def SignedUnder (keyHex : Str) (packet : SealedPacket) : Prop :=
  ∃ pkBytes key sig, hexDecode keyHex = .ok pkBytes ∧ pkBytes.length = 32 ∧
    Crates.fromBytes pkBytes = .ok key ∧
    hexDecode packet.signatureHex = .ok sig ∧ sig.length = 64 ∧
    Crates.verify key (Blake3.hash packet.payloadCanonicalJson).toList sig =
      true

omit [ErrorTexts] in
/-- What `verify` finds out about the packet itself. -/
structure Genuine (tenantId : Str) (packet : SealedPacket) : Prop where
  tenant : packet.tenantId = tenantId
  hash : packet.blake3HashHex =
    toHex (Blake3.hash packet.payloadCanonicalJson).toList
  signed : SignedUnder packet.publicKeyHex packet

omit [Blake3] [Crates] in
theorem decode_eq_ok_iff {label : String} {text : Str} {bytes : List UInt8} :
    decode label text = .ok bytes ↔ hexDecode text = .ok bytes := by
  unfold decode
  cases hexDecode text <;> simp [Except.mapError]

omit [Blake3] in
theorem packetKey_eq_ok_iff {packet : SealedPacket} {key : VerifyingKey} :
    packetKey packet = .ok key ↔
      ∃ pkBytes, hexDecode packet.publicKeyHex = .ok pkBytes ∧
        pkBytes.length = 32 ∧ Crates.fromBytes pkBytes = .ok key := by
  rw [packetKey, bind_eq_ok_iff]
  simp only [decode_eq_ok_iff]
  refine exists_congr fun pkBytes => and_congr_right fun _ => ?_
  by_cases length : pkBytes.length = 32
  · cases Crates.fromBytes pkBytes <;> simp [length, Except.mapError]
  · simp [length]

omit [Blake3] [Crates] in
theorem packetSignature_eq_ok_iff {packet : SealedPacket}
    {sig : List UInt8} :
    packetSignature packet = .ok sig ↔
      hexDecode packet.signatureHex = .ok sig ∧ sig.length = 64 := by
  rw [packetSignature, bind_eq_ok_iff]
  simp only [decode_eq_ok_iff]
  constructor
  · rintro ⟨sigBytes, decoded, checked⟩
    split_ifs at checked with length
    obtain rfl := Except.ok.inj checked
    exact ⟨decoded, not_not.mp length⟩
  · intro holds
    exact ⟨sig, holds.1, by simp [holds.2]⟩

/-- Accepted is what is genuine, while the service's own chain verifies. -/
theorem verify_eq_ok_iff {service : EvidenceService} {packet : SealedPacket} :
    service.verify packet = .ok () ↔
      Genuine service.signer.tenantId packet ∧ service.chain.verify = .ok () := by
  unfold verify
  by_cases tenant : packet.tenantId = service.signer.tenantId
  · by_cases hash : toHex (Blake3.hash packet.payloadCanonicalJson).toList =
        packet.blake3HashHex
    · rw [if_neg (not_not.mpr tenant), if_neg (not_not.mpr hash)]
      simp only [bind_eq_ok_iff, packetKey_eq_ok_iff, packetSignature_eq_ok_iff,
        decode_eq_ok_iff, ← hash, TlVerify.hexDecode_toHex]
      constructor
      · rintro ⟨key, ⟨pkBytes, decoded, length, read⟩, sig,
          ⟨sigDecoded, sigLength⟩, rawHash, raw, checked⟩
        obtain rfl := Except.ok.inj raw
        split_ifs at checked with verified
        have chain : service.chain.verify = .ok () := by
          cases own : service.chain.verify with
          | error error => simp [own, Except.mapError] at checked
          | ok => rfl
        exact ⟨⟨tenant, hash.symm, pkBytes, key, sig, decoded, length, read,
          sigDecoded, sigLength, verified⟩, chain⟩
      · rintro ⟨⟨-, -, pkBytes, key, sig, decoded, length, read, sigDecoded,
          sigLength, verified⟩, chain⟩
        refine ⟨key, ⟨pkBytes, decoded, length, read⟩, sig,
          ⟨sigDecoded, sigLength⟩, _, rfl, ?_⟩
        rw [if_pos verified, chain]
        rfl
    · rw [if_neg (not_not.mpr tenant), if_pos hash]
      exact iff_of_false nofun fun holds => hash holds.1.hash.symm
  · rw [if_pos tenant]
    exact iff_of_false nofun fun holds => tenant holds.1.tenant

end

/-! ## Runs of seals -/

structure SealCall where
  invoiceId : Str
  payload : Str
  rekorEntry : Option RekorEntry
  env : SealEnv

section

variable [Blake3] [Crates] [Signing]

/-- The service after the calls, and the packets that were returned. -/
def sealAll (service : EvidenceService) :
    List SealCall → EvidenceService × List SealedPacket
  | [] => (service, [])
  | call :: calls =>
      let (result, next) := service.sealPacket call.invoiceId call.payload
        call.rekorEntry call.env
      let (final, packets) := sealAll next calls
      (final, result.toOption.toList ++ packets)

omit [Crates] [Signing] in
/-- The service with the payload on its chain. -/
def appended (service : EvidenceService) (call : SealCall) : EvidenceService :=
  { service with
    chain :=
      service.chain.appendWithTimestamp call.payload call.env.appendNowMs }

/-- How a call of `seal` ends: refused, failed behind the append, or with a
packet. -/
theorem sealPacket_cases (service : EvidenceService) (call : SealCall) :
    (∃ error, service.sealPacket call.invoiceId call.payload call.rekorEntry
        call.env = (.error error, service)) ∨
      (∃ error, service.sealPacket call.invoiceId call.payload call.rekorEntry
        call.env = (.error error, service.appended call)) ∨
      ∃ response, service.sealPacket call.invoiceId call.payload
        call.rekorEntry call.env =
          (.ok ((service.appended call).sealedPacket call.invoiceId
            call.payload call.rekorEntry response call.env.packetId),
            service.appended call) := by
  cases window : service.chain.enforceRetention service.retention
      call.env.retentionNowMs service.signer.tenantId service.jurisdiction with
  | error error =>
      left
      exact ⟨.chain error, by simp only [sealPacket, window]⟩
  | ok =>
      right
      cases stamp : call.env.stamp with
      | error error =>
          left
          exact ⟨.ts error, by simp only [sealPacket, window, stamp]; rfl⟩
      | ok response =>
          cases verifies : call.env.stampVerifies with
          | false =>
              left
              exact ⟨_, by
                simp only [sealPacket, window, stamp, verifies, if_true]; rfl⟩
          | true =>
              right
              exact ⟨response, by
                simp only [sealPacket, window, stamp, verifies,
                  Bool.true_eq_false, if_false]; rfl⟩

omit [Crates] [Signing] in
/-- The chain holds the payload of the packet, at the place that the packet's
chain length names. -/
def Backed (chain : HashChain) (packet : SealedPacket) : Prop :=
  packet.blake3HashHex =
      toHex (Blake3.hash packet.payloadCanonicalJson).toList ∧
    ∃ index entry, chain.entries[index]? = some entry ∧
      packet.payloadCanonicalJson = canonicalJson entry.payload ∧
      packet.chainLength = UInt64.ofNat (index + 1)

/-- What a run of seals does to a service. -/
structure Sealed (service final : EvidenceService)
    (released : List SealedPacket) : Prop where
  signer : final.signer = service.signer
  extends_ : service.chain.entries <+: final.chain.entries
  backed : ∀ packet ∈ released, Backed final.chain packet

omit [Crates] [Signing] in
theorem Backed.mono {chain larger : HashChain} {packet : SealedPacket}
    (backed : Backed chain packet)
    (extends_ : chain.entries <+: larger.entries) : Backed larger packet := by
  obtain ⟨hash, index, entry, found, payload, length⟩ := backed
  refine ⟨hash, index, entry, ?_, payload, length⟩
  obtain ⟨later, same⟩ := extends_
  rw [← same]
  exact List.getElem?_append_left (List.getElem?_eq_some_iff.mp found).1 ▸ found

theorem sealedPacket_backed (service : EvidenceService) (call : SealCall)
    (response : TimestampResponse) :
    Backed (service.appended call).chain
      ((service.appended call).sealedPacket call.invoiceId call.payload
        call.rekorEntry response call.env.packetId) := by
  refine ⟨rfl, service.chain.entries.length, _,
    List.getElem?_concat_length, rfl, ?_⟩
  simp [sealedPacket, appended, HashChain.appendWithTimestamp]

omit [Crates] [Signing] in
theorem appended_extends (service : EvidenceService) (call : SealCall) :
    service.chain.entries <+: (service.appended call).chain.entries :=
  List.prefix_append _ _

/-- One call, and the packet that it may return. -/
theorem sealPacket_sealed (service : EvidenceService) (call : SealCall) :
    Sealed service
      (service.sealPacket call.invoiceId call.payload call.rekorEntry
        call.env).2
      (service.sealPacket call.invoiceId call.payload call.rekorEntry
        call.env).1.toOption.toList := by
  rcases sealPacket_cases service call with ⟨error, same⟩ | ⟨error, same⟩ |
    ⟨response, same⟩ <;> rw [same]
  · constructor
    · rfl
    · exact List.prefix_rfl
    · exact nofun
  · constructor
    · rfl
    · exact appended_extends service call
    · exact nofun
  · constructor
    · rfl
    · exact appended_extends service call
    · intro packet member
      obtain rfl := List.mem_singleton.mp member
      exact sealedPacket_backed service call response

theorem sealAll_sealed (service : EvidenceService) (calls : List SealCall) :
    Sealed service (service.sealAll calls).1 (service.sealAll calls).2 := by
  induction calls generalizing service with
  | nil =>
      constructor
      · rfl
      · exact List.prefix_rfl
      · exact nofun
  | cons call calls induction =>
      have first := sealPacket_sealed service call
      have later := induction (service.sealPacket call.invoiceId call.payload
        call.rekorEntry call.env).2
      constructor
      · exact later.signer.trans first.signer
      · exact first.extends_.trans later.extends_
      · intro packet member
        rcases List.mem_append.mp member with now | then_
        · exact (first.backed packet now).mono later.extends_
        · exact later.backed packet then_

/-- The chain of the service verifies after every run, as long as no entry
hashes to the genesis value. -/
theorem sealAll_verify (service : EvidenceService) (calls : List SealCall)
    (verified : service.chain.verify = .ok ())
    (nonzero : ∀ entry ∈ (service.sealAll calls).1.chain.entries,
      entry.blake3Hash ≠ genesisPrevHash) :
    (service.sealAll calls).1.chain.verify = .ok () := by
  induction calls generalizing service with
  | nil => exact verified
  | cons call calls induction =>
      have extends_ := (sealPacket_sealed service call).extends_.trans
        (sealAll_sealed _ calls).extends_
      have grown : (service.appended call).chain.verify = .ok () := by
        apply HashChain.verify_appendWithTimestamp_iff.mpr
        constructor
        · exact verified
        · apply HashChain.extensible_of_forall
          intro entry member
          exact nonzero entry (extends_.subset member)
      have next : (service.sealPacket call.invoiceId call.payload
          call.rekorEntry call.env).2.chain.verify = .ok () := by
        rcases sealPacket_cases service call with ⟨error, same⟩ |
          ⟨error, same⟩ | ⟨response, same⟩ <;> rw [same]
        · exact verified
        · exact grown
        · exact grown
      exact induction _ next nonzero

/-! ## What a verified packet shows -/

/-- The tenant's key signs the hashes of the packets that were returned. -/
def ReleasedBy (signer : SignerService) (released : List SealedPacket)
    (seed : TlVerify.Seed) (message _ : List UInt8) : Prop :=
  seed = signer.seed →
    ∃ packet ∈ released, hexDecode packet.blake3HashHex = .ok message

/-- Signatures and hashes as they should be, for one packet after a run. -/
structure Ideal (signer : SignerService) (released : List SealedPacket)
    (packet : SealedPacket) : Prop where
  unforgeable : Unforgeable (ReleasedBy signer released)
  collisionFree : ∀ other ∈ released,
    Blake3.hash packet.payloadCanonicalJson =
        Blake3.hash other.payloadCanonicalJson →
      packet.payloadCanonicalJson = other.payloadCanonicalJson

omit [Signing] in
/-- A payload that was signed with the tenant's own key is on the chain. -/
theorem exists_entry_of_signedUnder {signer : SignerService}
    {chain : HashChain} {released : List SealedPacket} {packet : SealedPacket}
    (backed : ∀ other ∈ released, Backed chain other)
    (ideal : Ideal signer released packet) {keyHex : Str}
    (own : hexDecode keyHex = .ok (Crates.publicKey signer.seed).toList)
    (signed : SignedUnder keyHex packet) :
    ∃ entry ∈ chain.entries,
      packet.payloadCanonicalJson = canonicalJson entry.payload := by
  obtain ⟨pkBytes, key, sig, decoded, -, read, -, -, verified⟩ := signed
  obtain rfl := Except.ok.inj (own.symm.trans decoded)
  obtain ⟨other, member, sameHash⟩ :=
    ideal.unforgeable signer.seed key _ sig read verified rfl
  obtain ⟨otherHash, index, entry, found, payload, -⟩ := backed other member
  rw [otherHash, TlVerify.hexDecode_toHex] at sameHash
  have hashes := Vector.toList_inj.mp (Except.ok.inj sameHash)
  refine ⟨entry, List.mem_of_getElem? found, ?_⟩
  rw [ideal.collisionFree other member hashes.symm, payload]

/-- After any run a packet is accepted exactly when it is genuine under the key
that it carries; under the tenant's own key, its payload is on the chain. -/
theorem verify_sealAll [ErrorTexts] {signer : SignerService} {tsaUrl : Str}
    {retention : RetentionPolicy} (calls : List SealCall)
    (packet : SealedPacket)
    (nonzero : ∀ entry ∈
        ((fromSigner signer tsaUrl retention).sealAll calls).1.chain.entries,
      entry.blake3Hash ≠ genesisPrevHash)
    (ideal : Ideal signer
      ((fromSigner signer tsaUrl retention).sealAll calls).2 packet) :
    let service := ((fromSigner signer tsaUrl retention).sealAll calls).1
    (service.verify packet = .ok () ↔ Genuine signer.tenantId packet) ∧
      (service.verify packet = .ok () →
        hexDecode packet.publicKeyHex =
            .ok (Crates.publicKey signer.seed).toList →
        ∃ entry ∈ service.chain.entries,
          packet.payloadCanonicalJson = canonicalJson entry.payload) := by
  intro service
  have run := sealAll_sealed (fromSigner signer tsaUrl retention) calls
  have chain : service.chain.verify = .ok () :=
    sealAll_verify _ calls rfl nonzero
  have accepted : service.verify packet = .ok () ↔
      Genuine signer.tenantId packet := by
    rw [verify_eq_ok_iff, run.signer]
    exact and_iff_left chain
  constructor
  · exact accepted
  · intro verified own
    exact exists_entry_of_signedUnder run.backed ideal own
      (accepted.mp verified).signed

/-- An accepted packet was signed with the tenant's own key, and the chain holds
its payload where the packet says. -/
def VouchesForChain [ErrorTexts] : Prop :=
  ∀ signer tsaUrl retention calls service released packet,
    (fromSigner signer tsaUrl retention).sealAll calls = (service, released) →
    Ideal signer released packet → service.verify packet = .ok () →
    SignedUnder signer.publicKeyHex packet ∧
      ∃ entry, service.chain.entries[packet.chainLength.toNat - 1]? =
          some entry ∧
        packet.payloadCanonicalJson = canonicalJson entry.payload

end

/-! ### A packet of the tenant's, and one of a stranger's -/

open TrustLayer.TlVerify (starkSeed starkPublic strangerPublic zeroBytes)

/-- BLAKE3 of the canonical JSON of `hello world`. -/
def helloHash : Vector UInt8 32 :=
  #v[0x09, 0x2a, 0x0a, 0xb8, 0x79, 0x7a, 0x9d, 0xbd, 0x26, 0x63, 0xcf, 0xc6,
    0x03, 0xf1, 0x6b, 0x18, 0x8a, 0x70, 0xee, 0xde, 0x09, 0x91, 0xff, 0x97,
    0xbb, 0x2d, 0x85, 0x06, 0xf7, 0xb6, 0xf1, 0x9c]

/-- BLAKE3 of the canonical JSON of `forged`. -/
def forgedHash : Vector UInt8 32 :=
  #v[0xc1, 0x59, 0x73, 0xc8, 0x47, 0x75, 0x7d, 0x83, 0xd6, 0xfc, 0x81, 0xab,
    0x31, 0xb8, 0x1a, 0x24, 0x6e, 0xeb, 0x22, 0xd1, 0x12, 0x52, 0x88, 0xfe,
    0xa3, 0x2e, 0xae, 0x5d, 0x62, 0x7c, 0x73, 0x50]

/-- BLAKE3 of the first entry of a chain, with payload `hello world`. -/
def entryHash : Vector UInt8 32 :=
  #v[0x71, 0x68, 0x1c, 0x93, 0xf7, 0xa4, 0xd0, 0xa7, 0x70, 0x62, 0x95, 0x6b,
    0x54, 0xce, 0x20, 0x55, 0xc2, 0xb4, 0x51, 0x04, 0xb8, 0x1f, 0x04, 0xa3,
    0x66, 0x95, 0xe6, 0x03, 0x68, 0xc8, 0xde, 0x46]

/-- The signature of `stark` on `helloHash`. -/
def helloSignature : Vector UInt8 64 :=
  #v[0xea, 0xd5, 0xed, 0xb4, 0xd8, 0x00, 0x92, 0xd7, 0x5e, 0xc5, 0x6b, 0x88,
    0x37, 0xb6, 0xb2, 0x1d, 0x3f, 0x99, 0xa8, 0x76, 0x76, 0x95, 0x2e, 0x28,
    0x6a, 0x18, 0xde, 0xde, 0xb4, 0xc1, 0xa7, 0x83, 0xb7, 0x7e, 0xb3, 0x2e,
    0x70, 0x13, 0xe3, 0x85, 0x28, 0x58, 0xf3, 0xe9, 0x80, 0xda, 0xb6, 0x01,
    0xfa, 0x85, 0x69, 0xe7, 0x87, 0x6c, 0xe1, 0x74, 0xcc, 0xf1, 0xe1, 0x55,
    0x70, 0x7c, 0xde, 0x0b]

/-- The stranger's signature on `forgedHash`. -/
def forgedSignature : Vector UInt8 64 :=
  #v[0xe3, 0xe1, 0xa3, 0xb1, 0x45, 0xcc, 0x7c, 0x85, 0x3c, 0xdd, 0xf5, 0x78,
    0xa6, 0x9e, 0x43, 0x43, 0xf6, 0xcb, 0x40, 0x74, 0xf9, 0xb8, 0x18, 0xd8,
    0x42, 0x0e, 0xf2, 0xf3, 0x2c, 0x6c, 0x0c, 0x9e, 0xa9, 0x37, 0xf9, 0x9f,
    0xd0, 0x26, 0x03, 0x50, 0xc3, 0x06, 0xdb, 0x9f, 0xdd, 0xad, 0x9f, 0xcb,
    0xea, 0x3d, 0x14, 0xd8, 0xc7, 0x9f, 0xb2, 0xa1, 0xf4, 0x1c, 0x93, 0xe4,
    0xc0, 0x91, 0x0a, 0x0d]

@[reducible] def recordedHashes : Blake3 where
  hash input :=
    if input = canonicalJson "hello world".toList then helloHash
    else if input = canonicalJson "forged".toList then forgedHash
    else if input = TlChain.hashInput 0 genesisPrevHash "hello world".toList
    then entryHash
    else Vector.replicate 32 0xff

@[reducible] def recordedSigning : Signing where
  sign seed message :=
    if seed = starkSeed ∧ message = helloHash.toList then helloSignature
    else Vector.replicate 64 0

/-- Two signatures are there: one of `stark`, one of the stranger. -/
@[reducible] def recordedKeys : Crates where
  fromBytes bytes := .ok { bytes }
  verify key message signature :=
    (decide (key.bytes = starkPublic.toList) &&
      decide (message = helloHash.toList) &&
      decide (signature = helloSignature.toList)) ||
    (decide (key.bytes = strangerPublic.toList) &&
      decide (message = forgedHash.toList) &&
      decide (signature = forgedSignature.toList))
  publicKey seed :=
    if seed = starkSeed then starkPublic
    else if seed = TlVerify.strangerSeed then strangerPublic
    else zeroBytes
  hkdfSha256 _ _ _ := zeroBytes
  base64Decode _ := none
  toVec := SerdeJson.toVec
  rfc3339 _ := []

@[reducible] def noTexts : ErrorTexts where
  debug text := text
  fromHexError _ := []
  signatureError := []

def starkSigner : SignerService :=
  .fromSeed "stark".toList starkSeed

def helloCall : SealCall where
  invoiceId := "inv-001".toList
  payload := "hello world".toList
  rekorEntry := none
  env :=
    { retentionNowMs := 1781784000000, appendNowMs := 1781784000000
      stamp := .ok { time := 1781784000, accuracyMs := 1000, rawDer := [] }
      stampVerifies := true
      packetId := Vector.replicate 16 0 }

/-- The service of `stark` after one seal. -/
def helloRun : EvidenceService × List SealedPacket :=
  @sealAll recordedHashes recordedKeys recordedSigning
    (fromSigner starkSigner "https://mock.tsa.local".toList .default)
    [helloCall]

def helloPacket : SealedPacket :=
  @sealedPacket recordedHashes recordedKeys recordedSigning
    (@appended recordedHashes
      (fromSigner starkSigner "https://mock.tsa.local".toList .default)
      helloCall) "inv-001".toList "hello world".toList none
    { time := 1781784000, accuracyMs := 1000, rawDer := [] }
    (Vector.replicate 16 0)

/-- A packet that names `stark`, under the stranger's key. -/
def forgedPacket : SealedPacket :=
  { helloPacket with
    payloadCanonicalJson := canonicalJson "forged".toList
    blake3HashHex := toHex forgedHash.toList
    signatureHex := toHex forgedSignature.toList
    publicKeyHex := toHex strangerPublic.toList }

theorem helloRun_packets : helloRun.2 = [helloPacket] := rfl

theorem helloRun_nonzero : ∀ entry ∈ helloRun.1.chain.entries,
    entry.blake3Hash ≠ genesisPrevHash := by
  decide +kernel

theorem recorded_verify_iff {key : VerifyingKey}
    {message signature : List UInt8} :
    recordedKeys.verify key message signature = true ↔
      (key.bytes = starkPublic.toList ∧ message = helloHash.toList ∧
        signature = helloSignature.toList) ∨
      (key.bytes = strangerPublic.toList ∧ message = forgedHash.toList ∧
        signature = forgedSignature.toList) := by
  change ((decide (key.bytes = starkPublic.toList) &&
      decide (message = helloHash.toList) &&
      decide (signature = helloSignature.toList)) ||
    (decide (key.bytes = strangerPublic.toList) &&
      decide (message = forgedHash.toList) &&
      decide (signature = forgedSignature.toList))) = true ↔ _
  simp [and_assoc]

theorem recorded_hello : recordedHashes.hash (canonicalJson
    "hello world".toList) = helloHash :=
  if_pos rfl

theorem recorded_forged : recordedHashes.hash (canonicalJson
    "forged".toList) = forgedHash := by
  decide +kernel

theorem starkPublic_ne_strangerPublic :
    starkPublic.toList ≠ strangerPublic.toList := by
  decide

/-- The one signature of `stark` is the one of its packet. -/
theorem helloRun_unforgeable :
    @Unforgeable recordedKeys (ReleasedBy starkSigner helloRun.2) := by
  intro seed key message signature keyRead verified own
  rw [helloRun_packets]
  obtain rfl := Except.ok.inj keyRead
  have isStark : recordedKeys.publicKey seed = starkPublic := by
    rw [own]
    exact if_pos rfl
  rcases recorded_verify_iff.mp verified with ⟨-, messageIs, -⟩ | ⟨keyIs, -⟩
  · refine ⟨helloPacket, List.mem_singleton_self _, ?_⟩
    rw [messageIs]
    exact (congrArg (fun hash => hexDecode (toHex hash.toList))
      recorded_hello).trans (TlVerify.hexDecode_toHex _)
  · rw [isStark] at keyIs
    exact absurd keyIs starkPublic_ne_strangerPublic

theorem helloRun_ideal {packet : SealedPacket}
    (free : recordedHashes.hash packet.payloadCanonicalJson = helloHash →
      packet.payloadCanonicalJson = canonicalJson "hello world".toList) :
    @Ideal recordedHashes recordedKeys starkSigner helloRun.2 packet := by
  apply @Ideal.mk recordedHashes recordedKeys
  · exact helloRun_unforgeable
  · intro other member same
    rw [helloRun_packets] at member
    obtain rfl := List.mem_singleton.mp member
    exact free (same.trans recorded_hello)

/-- The packet of the tenant's own run is accepted, and on the chain. -/
theorem helloPacket_verified :
    @verify recordedHashes recordedKeys noTexts helloRun.1 helloPacket =
        .ok () ∧
      ∃ entry ∈ helloRun.1.chain.entries,
        helloPacket.payloadCanonicalJson = canonicalJson entry.payload := by
  obtain ⟨accepted, backed⟩ := @verify_sealAll recordedHashes recordedKeys
    recordedSigning noTexts starkSigner "https://mock.tsa.local".toList
    .default [helloCall] helloPacket helloRun_nonzero
    (helloRun_ideal fun _ => rfl)
  have genuine : @Genuine recordedHashes recordedKeys starkSigner.tenantId
      helloPacket := by
    refine @Genuine.mk recordedHashes recordedKeys _ _ rfl rfl
      ⟨starkPublic.toList, { bytes := starkPublic.toList },
        helloSignature.toList, ?_, rfl, rfl, ?_, rfl, ?_⟩
    · exact TlVerify.hexDecode_toHex _
    · exact TlVerify.hexDecode_toHex _
    · exact recorded_verify_iff.mpr (.inl ⟨rfl, congrArg _ recorded_hello, rfl⟩)
  have verified := accepted.mpr genuine
  exact ⟨verified, backed verified (TlVerify.hexDecode_toHex _)⟩

/-- The stranger's packet is accepted as well. -/
theorem forgedPacket_verified :
    ¬ @VouchesForChain recordedHashes recordedKeys recordedSigning noTexts := by
  intro law
  have genuine : @Genuine recordedHashes recordedKeys
      helloRun.1.signer.tenantId forgedPacket := by
    refine @Genuine.mk recordedHashes recordedKeys _ _ rfl
      (congrArg (fun hash : Vector UInt8 32 => toHex hash.toList)
        recorded_forged.symm)
      ⟨strangerPublic.toList, { bytes := strangerPublic.toList },
        forgedSignature.toList, ?_, rfl, rfl, ?_, rfl, ?_⟩
    · exact TlVerify.hexDecode_toHex _
    · exact TlVerify.hexDecode_toHex _
    · exact recorded_verify_iff.mpr
        (.inr ⟨rfl, congrArg _ recorded_forged, rfl⟩)
  have chain : @HashChain.verify recordedHashes helloRun.1.chain = .ok () :=
    @sealAll_verify recordedHashes recordedKeys recordedSigning
      (fromSigner starkSigner "https://mock.tsa.local".toList .default)
      [helloCall] rfl helloRun_nonzero
  have verified := (@verify_eq_ok_iff recordedHashes recordedKeys noTexts
    helloRun.1 forgedPacket).mpr ⟨genuine, chain⟩
  have ideal : @Ideal recordedHashes recordedKeys starkSigner helloRun.2
      forgedPacket := by
    apply helloRun_ideal
    intro same
    have hashes : forgedHash ≠ helloHash := by decide
    exact absurd (recorded_forged.symm.trans same) hashes
  obtain ⟨⟨pkBytes, key, sig, decoded, -, read, -, -, signed⟩, -⟩ :=
    law starkSigner "https://mock.tsa.local".toList .default [helloCall]
      helloRun.1 helloRun.2 forgedPacket rfl ideal verified
  have own : key.bytes = starkPublic.toList := by
    rw [@SignerService.hexDecode_publicKeyHex recordedKeys] at decoded
    obtain rfl := Except.ok.inj decoded
    obtain rfl := Except.ok.inj read
    exact congrArg Vector.toList (if_pos rfl)
  have messages : forgedHash.toList ≠ helloHash.toList := by decide
  have message : recordedHashes.hash forgedPacket.payloadCanonicalJson =
      forgedHash := recorded_forged
  rw [message] at signed
  rcases recorded_verify_iff.mp signed with ⟨-, isHello, -⟩ | ⟨stranger, -⟩
  · exact messages isHello
  · exact starkPublic_ne_strangerPublic (own.symm.trans stranger)

end EvidenceService

end TrustLayer.ThemisEvidence
