import TrustLayer.AgentGuard.Hook.Contract
import TrustLayer.Library.Encoding
import TrustLayer.Library.Settling

/-!
# The offline packet verifier

The verifier reads a packet file, in which every field is optional, and runs
seven steps.  A step may be skipped, and a skipped step counts as passed.
-/

namespace TrustLayer.TlVerify

open TrustLayer.Library

/-! ## The packet file -/

/-- Times are nanoseconds since the epoch. -/
structure PacketFile where
  caseId : Option Str
  tenantId : Option Str
  agentOutputs : Option (List AgentGuard.Json)
  hashChainLink : Option Str
  referenceDatabase : Option Str
  policyVersion : Option Str
  naturalPersonId : Option Str
  decisionId : Option Str
  hashChainPrev : Option Str
  startTime : Option Int
  endTime : Option Int
  inputData : Option Str
  hash : Option Str
  signatureHex : Option Str
  publicKeyHex : Option Str
  c2paManifest : Option AgentGuard.Json
  rfc3161TsDerHex : Option Str
  rfc3161TsaUrl : Option Str
  signedPayloadB64 : Option Str

/-! ## Errors and steps -/

inductive FromHexError where
  | invalidHexCharacter (char : Char) (index : Nat)
  | oddLength
  deriving DecidableEq

inductive VerifyError where
  | missingField (field : String)
  | ed25519 (detail : Str)
  | hex (error : FromHexError)
  deriving DecidableEq

/-- What ends the verifier without a list of steps. -/
inductive Stop where
  | error (error : VerifyError)
  | panic
  deriving DecidableEq

inductive Step where
  | pass (label : String)
  | fail (label : String) (detail : Str)
  | skipped (label reason : String)
  deriving DecidableEq

def Step.passed : Step → Bool
  | .pass _ => true
  | .fail _ _ | .skipped _ _ => false

def Step.isSkipped : Step → Bool
  | .skipped _ _ => true
  | .pass _ | .fail _ _ => false

/-! ## Hexadecimal text -/

def hexVal (char : Char) (index : Nat) : Except FromHexError Nat :=
  if 'A' ≤ char ∧ char ≤ 'F' then .ok (char.toNat - 'A'.toNat + 10)
  else if 'a' ≤ char ∧ char ≤ 'f' then .ok (char.toNat - 'a'.toNat + 10)
  else if '0' ≤ char ∧ char ≤ '9' then .ok (char.toNat - '0'.toNat)
  else .error (.invalidHexCharacter char index)

def hexPairs : List Char → (index : Nat) → Except FromHexError (List UInt8)
  | high :: low :: rest, index => do
      let upper ← hexVal high index
      let lower ← hexVal low (index + 1)
      let bytes ← hexPairs rest (index + 2)
      return UInt8.ofNat (upper * 16 + lower) :: bytes
  | _, _ => .ok []

/-- `hex::decode`. -/
def hexDecode (text : Str) : Except FromHexError (List UInt8) :=
  if byteLen text % 2 ≠ 0 then .error .oddLength
  else hexPairs (asBytes text) 0

theorem hexVal_hexDigit {value : Nat} (digit : value < 16) (index : Nat) :
    hexVal (hexDigit value) index = .ok value := by
  have table : ∀ digit : Fin 16,
      ('A' ≤ hexDigit digit ∧ hexDigit digit ≤ 'F' → False) ∧
      (if 'a' ≤ hexDigit digit ∧ hexDigit digit ≤ 'f' then
        (hexDigit digit).toNat - 'a'.toNat + 10 = digit
      else ('0' ≤ hexDigit digit ∧ hexDigit digit ≤ '9') ∧
        (hexDigit digit).toNat - '0'.toNat = digit) := by decide
  obtain ⟨notUpper, found⟩ := table ⟨value, digit⟩
  rw [hexVal, if_neg notUpper]
  split_ifs at found ⊢ with lower numeral
  · rw [found]
  · rw [found.2]
  · exact absurd found.1 numeral

theorem hexPairs_toHex (bytes : List UInt8) (index : Nat) :
    hexPairs (toHex bytes) index = .ok bytes := by
  induction bytes generalizing index with
  | nil => rfl
  | cons byte bytes induction =>
      have bound := byte.toNat_lt
      have joined : byte.toNat / 16 * 16 + byte.toNat % 16 = byte.toNat := by
        omega
      change hexPairs (hexDigit _ :: hexDigit _ :: toHex bytes) index = _
      rw [hexPairs, hexVal_hexDigit (by omega), hexVal_hexDigit (by omega),
        induction]
      simp [bind, Except.bind, pure, Except.pure, joined]

/-- Decoding undoes `hex::encode`. -/
theorem hexDecode_toHex (bytes : List UInt8) :
    hexDecode (toHex bytes) = .ok bytes := by
  have ascii := asBytes_of_ascii (toHex_ascii bytes)
  rw [hexDecode, byteLen, ascii, toHex_length, if_neg (by omega),
    hexPairs_toHex]

/-- `?` on a decoded text. -/
def decoded (text : Str) : Except Stop (List UInt8) :=
  (hexDecode text).mapError fun error => .error (.hex error)

/-- `&text[..limit]`, which panics inside a character. -/
def sliceTo (limit : Nat) (text : Str) : Except Stop Str :=
  if byteLen (prefixWithin limit text) = limit then
    .ok (prefixWithin limit text)
  else .error .panic

/-! ## Keys -/

abbrev Seed := Vector UInt8 32

structure VerifyingKey where
  bytes : List UInt8
  deriving DecidableEq

/-- What the verifier takes from other crates. -/
class Crates where
  /-- `VerifyingKey::from_bytes`, with the debug text of its error. -/
  fromBytes : List UInt8 → Except Str VerifyingKey
  verify : VerifyingKey → (message signature : List UInt8) → Bool
  /-- The public key of a seed. -/
  publicKey : Seed → Vector UInt8 32
  hkdfSha256 : (salt ikm info : List UInt8) → Seed
  /-- The standard engine of the `base64` crate. -/
  base64Decode : Str → Option (List UInt8)
  /-- `serde_json::to_vec` of a value. -/
  toVec : AgentGuard.Json → List UInt8
  /-- The text of a `DateTime<Utc>`. -/
  rfc3339 : Int → Str

def starkSeed : Seed :=
  #v[0x2b, 0x5e, 0x93, 0xdb, 0x7c, 0xf3, 0xc4, 0xfa, 0x44, 0xca, 0x19, 0x6f,
    0x99, 0xc9, 0x54, 0x1f, 0x6d, 0x5e, 0xfb, 0x86, 0xbd, 0xd7, 0xab, 0xc1,
    0x2e, 0xe3, 0xd0, 0xb2, 0xfd, 0x29, 0x12, 0xf1]

def wayneSeed : Seed :=
  #v[0x8d, 0xfa, 0x2e, 0x83, 0x51, 0xc2, 0x68, 0xaf, 0xa2, 0xb4, 0x5f, 0x75,
    0x30, 0xc5, 0xb5, 0x44, 0x94, 0x89, 0xfc, 0x49, 0x3c, 0x35, 0xa7, 0xbd,
    0xc7, 0x3e, 0xe6, 0x47, 0x9c, 0x1c, 0xb3, 0x26]

def masterSeed : Seed :=
  #v[0x54, 0x68, 0x65, 0x6d, 0x69, 0x73, 0x2d, 0x6d, 0x61, 0x73, 0x74, 0x65,
    0x72, 0x2d, 0x73, 0x65, 0x65, 0x64, 0x2d, 0x76, 0x31, 0x2d, 0x6e, 0x6f,
    0x6e, 0x63, 0x65, 0x2d, 0x66, 0x69, 0x78, 0x21]

def hkdfSalt : List UInt8 :=
  utf8Bytes "themis-tenant-v1".toList

section

variable [Crates]

def deriveSaasSeed (tenantId : Str) : Seed :=
  Crates.hkdfSha256 hkdfSalt masterSeed.toList (utf8Bytes tenantId)

/-- The seed that `SignerService::for_tenant` signs with; it is never an
error. -/
def seedForTenant (tenantId : Str) : Seed :=
  if tenantId = "stark".toList then starkSeed
  else if tenantId = "wayne".toList then wayneSeed
  else deriveSaasSeed tenantId

def publicKeyHexOf (seed : Seed) : Str :=
  toHex (Crates.publicKey seed).toList

/-! ## The steps -/

def required (field : String) (value : Option Str) : Except Stop Str :=
  match value with
  | none => .error (.error (.missingField field))
  | some text => .ok text

def number (value : Nat) : Str :=
  (toString value).toList

def hashFormatStep (hashHex : Str) : Step :=
  if byteLen hashHex ≠ 64 then
    .fail "hash_format"
      ("expected 64 chars, got ".toList ++ number (byteLen hashHex))
  else .pass "hash_format"

def optional (text : Option Str) : AgentGuard.Json :=
  match text with
  | none => .null
  | some text => .string text

def optionalTime (time : Option Int) : AgentGuard.Json :=
  match time with
  | none => .null
  | some time => .string (Crates.rfc3339 time)

def optionalValues (values : Option (List AgentGuard.Json)) : AgentGuard.Json :=
  match values with
  | none => .null
  | some values => .array values

/-- The payload re-derived from the fields. -/
def canonical (packet : PacketFile) : AgentGuard.Json :=
  .object [
    ("case_id".toList, optional packet.caseId),
    ("tenant_id".toList, optional packet.tenantId),
    ("agent_outputs".toList, optionalValues packet.agentOutputs),
    ("reference_database".toList, optional packet.referenceDatabase),
    ("policy_version".toList, optional packet.policyVersion),
    ("natural_person_id".toList, optional packet.naturalPersonId),
    ("decision_id".toList, optional packet.decisionId),
    ("start_time".toList, optionalTime packet.startTime),
    ("end_time".toList, optionalTime packet.endTime),
    ("input_data".toList, optional packet.inputData)]

/-- The bytes attached to a packet, if they decode. -/
def signedPayload (packet : PacketFile) : Option (List UInt8) :=
  packet.signedPayloadB64.bind Crates.base64Decode

/-- The three strategies: one verified message is enough. -/
def verifiesAny (packet : PacketFile) (key : VerifyingKey)
    (hashBytes sig : List UInt8) : Bool :=
  Crates.verify key hashBytes sig ||
    (signedPayload packet).any (fun bytes => Crates.verify key bytes sig) ||
    Crates.verify key (Crates.toVec (canonical packet)) sig

def signatureStep (packet : PacketFile)
    (hashHex signatureHex publicKeyHex : Str) : Except Stop Step :=
  if byteLen signatureHex ≠ 128 then
    .ok (.fail "signature_format"
      ("expected 128 hex chars, got ".toList ++ number (byteLen signatureHex)))
  else if byteLen publicKeyHex ≠ 64 then
    .ok (.fail "public_key_format"
      ("expected 64 hex chars, got ".toList ++ number (byteLen publicKeyHex)))
  else if byteLen hashHex ≠ 64 then
    .ok (.fail "ed25519_signature"
      ("hash is ".toList ++ number (byteLen hashHex) ++
        " chars; need 64 to verify".toList))
  else do
    let sig ← decoded signatureHex
    let pkBytes ← decoded publicKeyHex
    let key ← (Crates.fromBytes pkBytes).mapError fun detail =>
      .error (.ed25519 detail)
    let hashBytes ← decoded hashHex
    if verifiesAny packet key hashBytes sig then
      return .pass "ed25519_signature"
    else
      return .fail "ed25519_signature"
        ("signature did not verify against signed_payload, hash bytes, " ++
          "or canonical payload").toList

def chainPrev (packet : PacketFile) : Str :=
  packet.hashChainPrev.getD []

def chainPrevStep (packet : PacketFile) : Step :=
  if chainPrev packet ≠ [] ∧ byteLen (chainPrev packet) ≠ 64 then
    .fail "hash_chain_prev_format"
      ("expected 64 chars, got ".toList ++ number (byteLen (chainPrev packet)))
  else .pass "hash_chain_prev_format"

def filled (text : Option Str) : Bool :=
  text.any fun text => !text.isEmpty

/-- The number of populated fields out of eight. -/
def populated (packet : PacketFile) : Nat :=
  [packet.startTime.isSome, packet.endTime.isSome,
    filled packet.referenceDatabase,
    filled packet.inputData || filled packet.caseId,
    packet.naturalPersonId.isSome, filled packet.decisionId,
    filled packet.policyVersion, !(chainPrev packet).isEmpty].count true

def coverageStep (packet : PacketFile) : Step :=
  if populated packet ≥ 7 then .pass "eu_ai_act_art12_coverage"
  else
    .fail "eu_ai_act_art12_coverage"
      ("only ".toList ++ number (populated packet) ++
        "/8 fields populated".toList)

def timestampStep (packet : PacketFile) : Except Stop Step :=
  match packet.rfc3161TsDerHex with
  | some derHex => do
      let der ← decoded derHex
      if der.isEmpty then return .fail "rfc3161_timestamp" "empty DER".toList
      else return .pass "rfc3161_timestamp"
  | none =>
      .ok (.skipped "rfc3161_timestamp" "no DER block in packet (synthetic)")

def tenantStep (packet : PacketFile) (publicKeyHex : Str) : Except Stop Step :=
  match packet.tenantId with
  | some tenantId =>
      if publicKeyHexOf (seedForTenant tenantId) = publicKeyHex then
        .ok (.pass "tenant_key_match")
      else do
        let front ← sliceTo (min 16 (byteLen publicKeyHex)) publicKeyHex
        return .fail "tenant_key_match"
          ("public key in packet (".toList ++ front ++
            ") does not match tenant ".toList ++ tenantId ++
            "'s derived key".toList)
  | none => .ok (.skipped "tenant_key_match" "no tenant_id in packet")

def verify (packet : PacketFile) : Except Stop (List Step) := do
  let hashHex ← required "hash" packet.hash
  let signatureHex ← required "signature_hex" packet.signatureHex
  let publicKeyHex ← required "public_key_hex" packet.publicKeyHex
  let signature ← signatureStep packet hashHex signatureHex publicKeyHex
  let timestamp ← timestampStep packet
  let tenant ← tenantStep packet publicKeyHex
  return [.pass "structural", hashFormatStep hashHex, signature,
    chainPrevStep packet, coverageStep packet, timestamp, tenant]

inductive Verdict where
  | pass
  | fail
  deriving DecidableEq

/-- The line that `run` prints for a list of steps. -/
def overall (steps : List Step) : Verdict :=
  let allPassed := steps.all fun step => step.passed || step.isSkipped
  let anyFailed := steps.any fun step => !step.passed && !step.isSkipped
  if anyFailed || !allPassed then .fail else .pass

def run (packet : PacketFile) : Except Stop Verdict :=
  (verify packet).map overall

end

/-! ## Steps that succeed -/

def Step.fine (step : Step) : Bool :=
  step.passed || step.isSkipped

@[simp] theorem Step.fine_pass (label : String) :
    (Step.pass label).fine = true := rfl

@[simp] theorem Step.fine_fail (label : String) (detail : Str) :
    (Step.fail label detail).fine = false := rfl

@[simp] theorem Step.fine_skipped (label reason : String) :
    (Step.skipped label reason).fine = true := rfl

/-- The step is reached without an error, and does not fail. -/
def Succeeds (result : Except Stop Step) : Prop :=
  ∃ step, result = .ok step ∧ step.fine = true

theorem overall_eq_pass_iff {steps : List Step} :
    overall steps = .pass ↔ ∀ step ∈ steps, step.fine = true := by
  have failed : (steps.any fun step => !step.passed && !step.isSkipped) =
      !steps.all Step.fine := by
    simp only [List.any_eq_not_all_not, Bool.not_and, Bool.not_not]
    rfl
  have all : (steps.all fun step => step.passed || step.isSkipped) =
      steps.all Step.fine := rfl
  simp only [overall, failed, all, Bool.or_self, Bool.not_eq_true',
    ← List.all_eq_true]
  cases steps.all Step.fine <;> simp

theorem required_eq_ok_iff {field : String} {value : Option Str} {text : Str} :
    required field value = .ok text ↔ value = some text := by
  cases value <;> simp [required]

theorem succeeds_ok {step : Step} :
    Succeeds (.ok step) ↔ step.fine = true := by
  simp [Succeeds]

theorem timestampStep_succeeds_iff {packet : PacketFile} :
    Succeeds (timestampStep packet) ↔
      ∀ derHex ∈ packet.rfc3161TsDerHex, ∃ der,
        hexDecode derHex = .ok der ∧ der ≠ [] := by
  unfold timestampStep
  cases packet.rfc3161TsDerHex with
  | none => simp [succeeds_ok]
  | some derHex =>
      simp only [Option.mem_def, Option.some.injEq, forall_eq', Succeeds,
        decoded, bind_eq_ok_iff, mapError_eq_ok_iff]
      constructor
      · rintro ⟨step, ⟨der, derDecoded, result⟩, fine⟩
        refine ⟨der, derDecoded, ?_⟩
        rintro rfl
        obtain rfl := Except.ok.inj result
        cases fine
      · rintro ⟨der, derDecoded, nonempty⟩
        refine ⟨.pass "rfc3161_timestamp", ⟨der, derDecoded, ?_⟩, rfl⟩
        rw [if_neg (by simpa using nonempty)]
        rfl

/-! ## When a packet passes -/

section

variable [Crates]

/-- The overall result is PASS. -/
def Passes (packet : PacketFile) : Prop :=
  run packet = .ok .pass

/-- A packet passes when its three required fields are there and every step
succeeds. -/
theorem passes_iff {packet : PacketFile} :
    Passes packet ↔
      ∃ hashHex signatureHex publicKeyHex, packet.hash = some hashHex ∧
        packet.signatureHex = some signatureHex ∧
        packet.publicKeyHex = some publicKeyHex ∧
        (hashFormatStep hashHex).fine = true ∧
        Succeeds (signatureStep packet hashHex signatureHex publicKeyHex) ∧
        (chainPrevStep packet).fine = true ∧
        (coverageStep packet).fine = true ∧
        Succeeds (timestampStep packet) ∧
        Succeeds (tenantStep packet publicKeyHex) := by
  have passes : Passes packet ↔ ∃ steps, verify packet = .ok steps ∧
      overall steps = .pass := by
    unfold Passes run
    cases verify packet <;> simp [Except.map]
  simp only [passes, verify, bind_eq_ok_iff, required_eq_ok_iff,
    overall_eq_pass_iff, Succeeds]
  constructor
  · rintro ⟨steps, ⟨hashHex, hash, signatureHex, signature, publicKeyHex,
      publicKey, signed, signedIs, stamped, stampedIs, tenant, tenantIs,
      returned⟩, fine⟩
    obtain rfl := Except.ok.inj returned
    refine ⟨hashHex, signatureHex, publicKeyHex, hash, signature, publicKey,
      fine _ (by simp), ⟨signed, signedIs, fine _ (by simp)⟩, fine _ (by simp),
      fine _ (by simp), ⟨stamped, stampedIs, fine _ (by simp)⟩,
      ⟨tenant, tenantIs, fine _ (by simp)⟩⟩
  · rintro ⟨hashHex, signatureHex, publicKeyHex, hash, signature, publicKey,
      format, ⟨signed, signedIs, signedFine⟩, prev, coverage,
      ⟨stamped, stampedIs, stampedFine⟩, ⟨tenant, tenantIs, tenantFine⟩⟩
    refine ⟨_, ⟨hashHex, hash, signatureHex, signature, publicKeyHex, publicKey,
      signed, signedIs, stamped, stampedIs, tenant, tenantIs, rfl⟩, ?_⟩
    simp [format, signedFine, prev, coverage, stampedFine,
      tenantFine]

/-- Where the steps that may stop are reached and succeed, the others decide. -/
theorem verify_of_succeeds {packet : PacketFile}
    {hashHex signatureHex publicKeyHex : Str} (hash : packet.hash = some hashHex)
    (signature : packet.signatureHex = some signatureHex)
    (publicKey : packet.publicKeyHex = some publicKeyHex)
    (signed : Succeeds (signatureStep packet hashHex signatureHex publicKeyHex))
    (stamped : Succeeds (timestampStep packet))
    (tenant : Succeeds (tenantStep packet publicKeyHex)) :
    ∃ steps, verify packet = .ok steps ∧
      ((∀ step ∈ steps, step.fine = true) ↔
        (hashFormatStep hashHex).fine = true ∧
        (chainPrevStep packet).fine = true ∧
        (coverageStep packet).fine = true) := by
  obtain ⟨signed, signedIs, signedFine⟩ := signed
  obtain ⟨stamped, stampedIs, stampedFine⟩ := stamped
  obtain ⟨tenant, tenantIs, tenantFine⟩ := tenant
  have reached : verify packet = .ok [.pass "structural", hashFormatStep hashHex,
      signed, chainPrevStep packet, coverageStep packet, stamped, tenant] := by
    simp only [verify, bind_eq_ok_iff, required_eq_ok_iff]
    exact ⟨hashHex, hash, signatureHex, signature, publicKeyHex, publicKey,
      signed, signedIs, stamped, stampedIs, tenant, tenantIs, rfl⟩
  refine ⟨_, reached, ?_⟩
  simp [signedFine, stampedFine, tenantFine]

/-- The message that a passing signature is on: the hash, the attached payload
or the re-derived one. -/
inductive SignedMessage (packet : PacketFile) (hashBytes : List UInt8) :
    List UInt8 → Prop where
  | hash : SignedMessage packet hashBytes hashBytes
  | payload {bytes : List UInt8} (attached : signedPayload packet = some bytes) :
      SignedMessage packet hashBytes bytes
  | canonical :
      SignedMessage packet hashBytes (Crates.toVec (canonical packet))

theorem verifiesAny_iff {packet : PacketFile} {key : VerifyingKey}
    {hashBytes sig : List UInt8} :
    verifiesAny packet key hashBytes sig = true ↔
      ∃ message, SignedMessage packet hashBytes message ∧
        Crates.verify key message sig = true := by
  simp only [verifiesAny, Bool.or_eq_true, Option.any_eq_true]
  constructor
  · rintro ((verified | ⟨bytes, attached, verified⟩) | verified)
    · exact ⟨_, .hash, verified⟩
    · exact ⟨_, .payload attached, verified⟩
    · exact ⟨_, .canonical, verified⟩
  · rintro ⟨message, signed, verified⟩
    cases signed with
    | hash => exact .inl (.inl verified)
    | payload attached => exact .inl (.inr ⟨_, attached, verified⟩)
    | canonical => exact .inr verified

/-- The signature step of a packet succeeds. -/
structure SignatureHolds (packet : PacketFile)
    (hashHex signatureHex publicKeyHex : Str) (key : VerifyingKey)
    (pkBytes hashBytes sig : List UInt8) : Prop where
  signatureLen : byteLen signatureHex = 128
  publicKeyLen : byteLen publicKeyHex = 64
  hashLen : byteLen hashHex = 64
  sigDecoded : hexDecode signatureHex = .ok sig
  pkDecoded : hexDecode publicKeyHex = .ok pkBytes
  keyRead : Crates.fromBytes pkBytes = .ok key
  hashDecoded : hexDecode hashHex = .ok hashBytes
  verified : verifiesAny packet key hashBytes sig = true

theorem signatureStep_succeeds_iff {packet : PacketFile}
    {hashHex signatureHex publicKeyHex : Str} :
    Succeeds (signatureStep packet hashHex signatureHex publicKeyHex) ↔
      ∃ key pkBytes hashBytes sig, SignatureHolds packet hashHex signatureHex
        publicKeyHex key pkBytes hashBytes sig := by
  constructor
  · rintro ⟨step, result, fine⟩
    unfold signatureStep at result
    split_ifs at result with signatureLen publicKeyLen hashLen
    · obtain rfl := Except.ok.inj result
      cases fine
    · obtain rfl := Except.ok.inj result
      cases fine
    · obtain rfl := Except.ok.inj result
      cases fine
    · simp only [decoded, bind_eq_ok_iff, mapError_eq_ok_iff] at result
      obtain ⟨sig, sigDecoded, pkBytes, pkDecoded, key, keyRead, hashBytes,
        hashDecoded, result⟩ := result
      split_ifs at result with verified
      · exact ⟨key, pkBytes, hashBytes, sig, not_not.mp signatureLen,
          not_not.mp publicKeyLen, not_not.mp hashLen, sigDecoded, pkDecoded,
          keyRead, hashDecoded, verified⟩
      · obtain rfl := Except.ok.inj result
        cases fine
  · rintro ⟨key, pkBytes, hashBytes, sig, holds⟩
    refine ⟨.pass "ed25519_signature", ?_, rfl⟩
    simp only [signatureStep, holds.signatureLen, holds.publicKeyLen,
      holds.hashLen, ne_eq, not_true_eq_false, if_false, decoded,
      bind_eq_ok_iff, mapError_eq_ok_iff]
    refine ⟨sig, holds.sigDecoded, pkBytes, holds.pkDecoded, key, holds.keyRead,
      hashBytes, holds.hashDecoded, ?_⟩
    rw [if_pos holds.verified]
    rfl

theorem tenantStep_succeeds_iff {packet : PacketFile} {publicKeyHex : Str} :
    Succeeds (tenantStep packet publicKeyHex) ↔
      ∀ tenantId ∈ packet.tenantId,
        publicKeyHexOf (seedForTenant tenantId) = publicKeyHex := by
  unfold tenantStep
  cases packet.tenantId with
  | none => simp [succeeds_ok]
  | some tenantId =>
      simp only [Option.mem_def, Option.some.injEq, forall_eq']
      split_ifs with same
      · simp [succeeds_ok, same]
      · refine iff_of_false ?_ same
        rintro ⟨step, result, fine⟩
        obtain ⟨front, -, returned⟩ := bind_eq_ok_iff.mp result
        obtain rfl := Except.ok.inj returned
        cases fine

/-- The steps ahead of the tenant key succeed. -/
structure OthersSucceed (packet : PacketFile)
    (hashHex signatureHex publicKeyHex : Str) : Prop where
  hash : packet.hash = some hashHex
  signature : packet.signatureHex = some signatureHex
  publicKey : packet.publicKeyHex = some publicKeyHex
  format : (hashFormatStep hashHex).fine = true
  signed : ∃ key pkBytes hashBytes sig, SignatureHolds packet hashHex
    signatureHex publicKeyHex key pkBytes hashBytes sig
  prev : (chainPrevStep packet).fine = true
  coverage : (coverageStep packet).fine = true
  stamped : ∀ derHex ∈ packet.rfc3161TsDerHex, ∃ der,
    hexDecode derHex = .ok der ∧ der ≠ []

theorem passes_iff_others {packet : PacketFile} :
    Passes packet ↔
      ∃ hashHex signatureHex publicKeyHex,
        OthersSucceed packet hashHex signatureHex publicKeyHex ∧
        ∀ tenantId ∈ packet.tenantId,
          publicKeyHexOf (seedForTenant tenantId) = publicKeyHex := by
  simp only [passes_iff, signatureStep_succeeds_iff,
    timestampStep_succeeds_iff, tenantStep_succeeds_iff]
  constructor
  · rintro ⟨hashHex, signatureHex, publicKeyHex, hash, signature, publicKey,
      format, signed, prev, coverage, stamped, tenant⟩
    exact ⟨hashHex, signatureHex, publicKeyHex, ⟨hash, signature, publicKey,
      format, signed, prev, coverage, stamped⟩, tenant⟩
  · rintro ⟨hashHex, signatureHex, publicKeyHex, others, tenant⟩
    exact ⟨hashHex, signatureHex, publicKeyHex, others.hash, others.signature,
      others.publicKey, others.format, others.signed, others.prev,
      others.coverage, others.stamped, tenant⟩

/-! ## Edited packets -/

/-- The fields that a signature should bind. -/
structure SameFields (left right : PacketFile) : Prop where
  hash : left.hash = right.hash
  caseId : left.caseId = right.caseId
  tenantId : left.tenantId = right.tenantId
  agentOutputs : left.agentOutputs = right.agentOutputs
  policyVersion : left.policyVersion = right.policyVersion
  referenceDatabase : left.referenceDatabase = right.referenceDatabase
  naturalPersonId : left.naturalPersonId = right.naturalPersonId
  decisionId : left.decisionId = right.decisionId
  startTime : left.startTime = right.startTime
  endTime : left.endTime = right.endTime
  inputData : left.inputData = right.inputData

/-- A packet that passes under the key and the signature of another one that
passes has its fields. -/
def Bound (packet : PacketFile) : Prop :=
  ∀ edited, Passes packet → Passes edited →
    edited.publicKeyHex = packet.publicKeyHex →
    edited.signatureHex = packet.signatureHex → SameFields packet edited

def editOutputs (packet : PacketFile) : PacketFile :=
  { packet with
    agentOutputs := if packet.agentOutputs.isSome then none else some [] }

def zeroHash : Str := List.replicate 64 '0'

def oneHash : Str := List.replicate 64 '1'

def editHash (packet : PacketFile) : PacketFile :=
  { packet with
    hash := some (if packet.hash = some zeroHash then oneHash else zeroHash) }

omit [Crates] in
theorem editOutputs_agentOutputs_ne (packet : PacketFile) :
    packet.agentOutputs ≠ (editOutputs packet).agentOutputs := by
  cases outputs : packet.agentOutputs <;> simp [editOutputs, outputs]

omit [Crates] in
theorem editHash_hash_ne (packet : PacketFile) :
    packet.hash ≠ (editHash packet).hash := by
  have different : zeroHash ≠ oneHash := by decide
  by_cases zero : packet.hash = some zeroHash
  · simp [editHash, zero, different]
  · simp [editHash, zero]

omit [Crates] in
/-- The new hash is as well formed as any. -/
theorem exists_editHash (packet : PacketFile) :
    ∃ hashHex hashBytes, (editHash packet).hash = some hashHex ∧
      byteLen hashHex = 64 ∧ hexDecode hashHex = .ok hashBytes := by
  by_cases zero : packet.hash = some zeroHash
  · exact ⟨oneHash, List.replicate 32 17, by simp [editHash, zero],
      by decide, by decide⟩
  · exact ⟨zeroHash, List.replicate 32 0, by simp [editHash, zero],
      by decide, by decide⟩

/-- Whichever message the signature is on, some field may be edited. -/
theorem exists_edited {packet : PacketFile} (passes : Passes packet) :
    ∃ edited, Passes edited ∧ edited.publicKeyHex = packet.publicKeyHex ∧
      edited.signatureHex = packet.signatureHex ∧
      ¬ SameFields packet edited := by
  obtain ⟨hashHex, signatureHex, publicKeyHex, others, tenant⟩ :=
    passes_iff_others.mp passes
  obtain ⟨key, pkBytes, hashBytes, sig, holds⟩ := others.signed
  obtain ⟨message, signedMessage, verified⟩ := verifiesAny_iff.mp holds.verified
  -- the outputs are outside the hash and the attached payload, and the hash
  -- is outside the re-derived payload
  have outputsEdited (kept : SignedMessage (editOutputs packet) hashBytes
      message) : Passes (editOutputs packet) := by
    have signed : SignatureHolds (editOutputs packet) hashHex signatureHex
        publicKeyHex key pkBytes hashBytes sig :=
      { holds with
        verified := verifiesAny_iff.mpr ⟨message, kept, verified⟩ }
    exact passes_iff_others.mpr ⟨hashHex, signatureHex, publicKeyHex,
      { others with signed := ⟨key, pkBytes, hashBytes, sig, signed⟩ }, tenant⟩
  cases signedMessage with
  | hash =>
      exact ⟨editOutputs packet, outputsEdited .hash, rfl, rfl, fun same =>
        editOutputs_agentOutputs_ne packet same.agentOutputs⟩
  | payload attached =>
      exact ⟨editOutputs packet, outputsEdited (.payload attached), rfl, rfl,
        fun same => editOutputs_agentOutputs_ne packet same.agentOutputs⟩
  | canonical =>
      obtain ⟨newHex, newBytes, hash, length, decodes⟩ := exists_editHash packet
      have signed : SignatureHolds (editHash packet) newHex signatureHex
          publicKeyHex key pkBytes newBytes sig :=
        { holds with
          hashLen := length
          hashDecoded := decodes
          verified := verifiesAny_iff.mpr ⟨_, .canonical, verified⟩ }
      have format : (hashFormatStep newHex).fine = true := by
        simp [hashFormatStep, length]
      exact ⟨editHash packet, passes_iff_others.mpr ⟨newHex, signatureHex,
        publicKeyHex, { others with
          hash := hash
          format := format
          signed := ⟨key, pkBytes, newBytes, sig, signed⟩ }, tenant⟩, rfl, rfl,
        fun same => editHash_hash_ne packet same.hash⟩

/-- A packet is bound exactly when it does not pass. -/
theorem bound_iff (packet : PacketFile) : Bound packet ↔ ¬ Passes packet := by
  constructor
  · intro bound passes
    obtain ⟨edited, passesEdited, sameKey, sameSignature, differs⟩ :=
      exists_edited passes
    exact differs (bound edited passes passesEdited sameKey sameSignature)
  · intro fails edited passes
    exact absurd passes fails

/-- No edited packet passes, given that a signature verifies one message. -/
def PacketIntegrity : Prop :=
  (∀ key first second signature, Crates.verify key first signature = true →
    Crates.verify key second signature = true → first = second) →
  ∀ packet, Bound packet

end

/-! ### A packet of a fixture tenant -/

/-- BLAKE3 of `hello world`. -/
def helloHash : Str :=
  "d74981efa70a0c880b8d8c1985d075dbcbf679b99a5f9914e5aaf96b831a9e24".toList

def zeroBytes : Vector UInt8 32 := Vector.replicate 32 0

/-- The crates on one recorded signature: of `helloHash`, with one seed. -/
@[reducible] def recordedCrates (seed : Seed) (ownKey : Vector UInt8 32)
    (signatureHex : Str) : Crates where
  fromBytes := fun bytes => .ok { bytes }
  verify := fun key message signature =>
    decide (key.bytes = ownKey.toList) && decide (toHex message = helloHash) &&
      decide (toHex signature = signatureHex)
  publicKey := fun other => if other = seed then ownKey else zeroBytes
  hkdfSha256 := fun _ _ _ => zeroBytes
  base64Decode := fun _ => none
  toVec := fun _ => []
  rfc3339 := fun _ => []

theorem recorded_verify_iff {seed : Seed} {ownKey : Vector UInt8 32}
    {signatureHex : Str} {key : VerifyingKey} {message signature : List UInt8} :
    (recordedCrates seed ownKey signatureHex).verify key message signature =
        true ↔
      key.bytes = ownKey.toList ∧ toHex message = helloHash ∧
        toHex signature = signatureHex := by
  change (decide (key.bytes = ownKey.toList) &&
    decide (toHex message = helloHash) &&
    decide (toHex signature = signatureHex)) = true ↔ _
  simp [and_assoc]

def starkPublic : Vector UInt8 32 :=
  #v[0xc6, 0x76, 0xc9, 0x4e, 0xfe, 0xa5, 0xc5, 0x39, 0x9d, 0xe9, 0xcf, 0x88,
    0x84, 0x1c, 0xff, 0x74, 0x68, 0x07, 0x69, 0x26, 0xdf, 0xd1, 0x14, 0xb0,
    0x70, 0xc7, 0x9f, 0xc5, 0x28, 0xff, 0x59, 0x47]

def starkSignature : Str :=
  ("bbef7d90fcd55a7edab33e962bf4bca5e4bf30a8fd4ef100b7d31e734911c31a" ++
    "a62749f1ef4008978f9a37e29b34afdc75a74b3226c105f692bbc2202fa15f01").toList

@[reducible] def starkCrates : Crates :=
  recordedCrates starkSeed starkPublic starkSignature

/-- A packet signed by `stark` over its hash. -/
def starkPacket : PacketFile where
  caseId := some "case-001".toList
  tenantId := some "stark".toList
  agentOutputs := some []
  hashChainLink := none
  referenceDatabase := some "stanford-invoicenet-50".toList
  policyVersion := some "apohara-vouch-1".toList
  naturalPersonId := some "test-operator@example.com".toList
  decisionId := some "00000000-0000-0000-0000-000000000001".toList
  hashChainPrev := some (List.replicate 64 '0')
  startTime := some 1781784000000000000
  endTime := some 1781784090000000000
  inputData := some "inv-001".toList
  hash := some helloHash
  signatureHex := some starkSignature
  publicKeyHex := some (toHex starkPublic.toList)
  c2paManifest := none
  rfc3161TsDerHex := none
  rfc3161TsaUrl := none
  signedPayloadB64 := none

theorem starkPacket_passes : @Passes starkCrates starkPacket := by
  unfold Passes
  decide +kernel

/-- The packet still passes without its agent outputs. -/
theorem editedOutputs_pass : ¬ @PacketIntegrity starkCrates := by
  intro integrity
  have oneMessage : ∀ key first second signature,
      starkCrates.verify key first signature = true →
      starkCrates.verify key second signature = true → first = second := by
    intro key first second signature firstVerifies secondVerifies
    have firstIs := (recorded_verify_iff.mp firstVerifies).2.1
    have secondIs := (recorded_verify_iff.mp secondVerifies).2.1
    exact toHex_injective (firstIs.trans secondIs.symm)
  have passesEdited : @Passes starkCrates (editOutputs starkPacket) := by
    unfold Passes
    decide +kernel
  have same := @integrity oneMessage starkPacket (editOutputs starkPacket)
    starkPacket_passes passesEdited rfl rfl
  exact editOutputs_agentOutputs_ne starkPacket same.agentOutputs

section

variable [Crates]

/-! ## Whose key signed -/

/-- What ideal signatures promise of `Made`: whatever verifies under the public
key of a seed was made with that seed. -/
def Unforgeable (Made : Seed → (message signature : List UInt8) → Prop) :
    Prop :=
  ∀ seed key message signature,
    Crates.fromBytes (Crates.publicKey seed).toList = .ok key →
    Crates.verify key message signature = true → Made seed message signature

/-- A packet that passes names a tenant, and its signature was made with the key
of that tenant. -/
def TenantAuthentic (Made : Seed → (message signature : List UInt8) → Prop)
    (packet : PacketFile) : Prop :=
  Passes packet → ∃ tenantId ∈ packet.tenantId,
    ∃ signatureHex ∈ packet.signatureHex, ∃ signature message,
      hexDecode signatureHex = .ok signature ∧
      Made (seedForTenant tenantId) message signature

/-- Without a tenant, a packet passes when its other steps succeed. -/
def UnnamedPasses (packet : PacketFile) : Prop :=
  packet.tenantId = none ∧
    ∃ hashHex signatureHex publicKeyHex,
      OthersSucceed packet hashHex signatureHex publicKeyHex

theorem passes_of_unnamed {packet : PacketFile}
    (unnamed : UnnamedPasses packet) : Passes packet := by
  obtain ⟨tenant, hashHex, signatureHex, publicKeyHex, others⟩ := unnamed
  exact passes_iff_others.mpr ⟨hashHex, signatureHex, publicKeyHex, others,
    by simp [tenant]⟩

theorem tenantAuthentic_iff
    {Made : Seed → (message signature : List UInt8) → Prop}
    (unforgeable : Unforgeable Made) (packet : PacketFile) :
    TenantAuthentic Made packet ↔ ¬ UnnamedPasses packet := by
  constructor
  · intro authentic unnamed
    obtain ⟨tenantId, named, -⟩ := authentic (passes_of_unnamed unnamed)
    rw [unnamed.1] at named
    cases named
  · intro named passes
    obtain ⟨hashHex, signatureHex, publicKeyHex, others, tenant⟩ :=
      passes_iff_others.mp passes
    cases tenantIs : packet.tenantId with
    | none =>
        exact absurd ⟨tenantIs, hashHex, signatureHex, publicKeyHex, others⟩
          named
    | some tenantId =>
        obtain ⟨key, pkBytes, hashBytes, sig, holds⟩ := others.signed
        obtain ⟨message, -, verified⟩ := verifiesAny_iff.mp holds.verified
        have pkIs : pkBytes =
            (Crates.publicKey (seedForTenant tenantId)).toList := by
          have decodes := holds.pkDecoded
          rw [← tenant tenantId tenantIs, publicKeyHexOf, hexDecode_toHex]
            at decodes
          exact (Except.ok.inj decodes).symm
        exact ⟨tenantId, rfl, signatureHex, others.signature, sig, message,
          holds.sigDecoded, unforgeable _ key message sig
            (pkIs ▸ holds.keyRead) verified⟩

/-- Only a tenant's key makes a packet that passes. -/
def PacketAuthenticity
    (Made : Seed → (message signature : List UInt8) → Prop) : Prop :=
  Unforgeable Made → ∀ packet, TenantAuthentic Made packet

end

/-- The one signature of the recorded crates was made with their seed. -/
def MadeWith (seed : Seed) (signatureHex : Str) (other : Seed)
    (message signature : List UInt8) : Prop :=
  other = seed ∧ toHex message = helloHash ∧ toHex signature = signatureHex

theorem recorded_unforgeable (seed : Seed) (ownKey : Vector UInt8 32)
    (signatureHex : Str) (nonzero : ownKey ≠ zeroBytes) :
    @Unforgeable (recordedCrates seed ownKey signatureHex)
      (MadeWith seed signatureHex) := by
  intro other key message signature keyRead verified
  obtain ⟨keyIs, messageIs, signatureIs⟩ := recorded_verify_iff.mp verified
  obtain rfl := Except.ok.inj keyRead
  by_cases same : other = seed
  · exact ⟨same, messageIs, signatureIs⟩
  · have zeroKey : (recordedCrates seed ownKey signatureHex).publicKey other =
        zeroBytes := if_neg same
    exact absurd ((Vector.toList_inj.mp keyIs).symm.trans zeroKey) nonzero

theorem starkPublic_ne_zero : starkPublic ≠ zeroBytes := by
  decide

/-- The tenant's own packet passes, and its key signed. -/
theorem starkPacket_authentic :
    @Passes starkCrates starkPacket ∧
      @TenantAuthentic starkCrates (MadeWith starkSeed starkSignature)
        starkPacket := by
  refine ⟨starkPacket_passes, (@tenantAuthentic_iff starkCrates _
    (recorded_unforgeable _ _ _ starkPublic_ne_zero) starkPacket).mpr ?_⟩
  rintro ⟨unnamed, -⟩
  cases unnamed

/-- The seed of somebody who is no tenant. -/
def strangerSeed : Seed :=
  #v[0x9d, 0x61, 0xb1, 0x9d, 0xef, 0xfd, 0x5a, 0x60, 0xba, 0x84, 0x4a, 0xf4,
    0x92, 0xec, 0x2c, 0xc4, 0x44, 0x49, 0xc5, 0x69, 0x7b, 0x32, 0x69, 0x19,
    0x70, 0x3b, 0xac, 0x03, 0x1c, 0xae, 0x7f, 0x60]

def strangerPublic : Vector UInt8 32 :=
  #v[0xd7, 0x5a, 0x98, 0x01, 0x82, 0xb1, 0x0a, 0xb7, 0xd5, 0x4b, 0xfe, 0xd3,
    0xc9, 0x64, 0x07, 0x3a, 0x0e, 0xe1, 0x72, 0xf3, 0xda, 0xa6, 0x23, 0x25,
    0xaf, 0x02, 0x1a, 0x68, 0xf7, 0x07, 0x51, 0x1a]

def strangerSignature : Str :=
  ("65aa9031488ba18ed0f60bb73b4b5d40e94620a15e4afde3b511f6a7f8fe2f32" ++
    "48bdc4b8548eebe337e203a56beb22976b807543add2c4121eb0df37af98730b").toList

@[reducible] def strangerCrates : Crates :=
  recordedCrates strangerSeed strangerPublic strangerSignature

/-- A packet that names no tenant, under a key of the stranger's own. -/
def strangerPacket : PacketFile :=
  { starkPacket with
    tenantId := none
    signatureHex := some strangerSignature
    publicKeyHex := some (toHex strangerPublic.toList) }

/-- A stranger's packet passes. -/
theorem strangerPacket_passes :
    ¬ @PacketAuthenticity strangerCrates
      (MadeWith strangerSeed strangerSignature) := by
  intro authenticity
  have nonzero : strangerPublic ≠ zeroBytes := by decide
  have passes : @Passes strangerCrates strangerPacket := by
    unfold Passes
    decide +kernel
  obtain ⟨tenantId, named, -⟩ := @authenticity
    (recorded_unforgeable _ _ _ nonzero) strangerPacket passes
  cases named

end TrustLayer.TlVerify
