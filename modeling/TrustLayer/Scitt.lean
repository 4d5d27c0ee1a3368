import TrustLayer.TlChain
import TrustLayer.TlVerify

/-!
# SCITT receipts

A receipt repeats what is in its signed COSE envelope: the payload, and a name
for the key.  `verify_offline` compares the payload and the fingerprint of the
key with the envelope; it does not read the name.
-/

namespace TrustLayer.Scitt

open TrustLayer.Library
open TrustLayer.TlChain (Blake3)
open TrustLayer.TlVerify (VerifyingKey)

inductive InclusionProof where
  | none
  deriving DecidableEq

structure SCITTReceipt where
  payload : List UInt8
  coseSign1 : List UInt8
  issuerKid : Str
  issuerPubkeyFingerprint : Vector UInt8 32
  inclusionProof : Option InclusionProof
  issuedAt : UInt64
  registryId : Str
  deriving DecidableEq

inductive SCITTError where
  | invalidSignature
  | keyIdMismatch
  | payloadHashMismatch
  | cborDecodeFailed (detail : Str)
  | coseParseFailed (detail : Str)
  | missingInclusionProof
  deriving DecidableEq

/-- A parsed envelope: the protected header, as encoded, with its key id. -/
structure CoseSign1 where
  protectedHeader : List UInt8
  keyId : List UInt8
  payload : Option (List UInt8)
  signature : List UInt8
  deriving DecidableEq

/-- The `coset` crate, and the strict verification of an Ed25519 signature. -/
class Cose where
  /-- `CoseSign1::from_slice`, with the text of its error. -/
  fromSlice : List UInt8 → Except Str CoseSign1
  /-- The bytes of the `Sig_structure`. -/
  tbsData : CoseSign1 → (aad : List UInt8) → List UInt8
  verifyStrict : VerifyingKey → (message signature : List UInt8) → Bool

section

variable [Blake3] [Cose]

/-- The closure that is given to `verify_signature`. -/
def verifySignature (key : VerifyingKey) (signatureBytes tbsData : List UInt8) :
    Except SCITTError Unit :=
  if signatureBytes.length ≠ 64 then .error .invalidSignature
  else if Cose.verifyStrict key tbsData signatureBytes then .ok ()
  else .error .invalidSignature

def verifyOffline (receipt : SCITTReceipt) (issuerPubkey : VerifyingKey) :
    Except SCITTError Bool :=
  let expectedFingerprint := Blake3.hash issuerPubkey.bytes
  if receipt.issuerPubkeyFingerprint ≠ expectedFingerprint then
    .error .keyIdMismatch
  else
    match Cose.fromSlice receipt.coseSign1 with
    | .error detail => .error (.cborDecodeFailed detail)
    | .ok sign1 =>
        match sign1.payload with
        | none =>
            .error (.coseParseFailed "COSE_Sign1 missing payload field".toList)
        | some cosePayload =>
            if cosePayload ≠ receipt.payload then .error .payloadHashMismatch
            else do
              verifySignature issuerPubkey sign1.signature
                (Cose.tbsData sign1 [])
              match receipt.inclusionProof with
              | some .none | none => return true

/-! ## What is bound -/

/-- The envelope carries the payload under a signature of the key. -/
def Signed (key : VerifyingKey) (cose : List UInt8) (payload : List UInt8) :
    Prop :=
  ∃ sign1, Cose.fromSlice cose = .ok sign1 ∧ sign1.payload = some payload ∧
    sign1.signature.length = 64 ∧
    Cose.verifyStrict key (Cose.tbsData sign1 []) sign1.signature = true

omit [Blake3] in
theorem verifySignature_eq_ok_iff {key : VerifyingKey}
    {signatureBytes tbsData : List UInt8} :
    verifySignature key signatureBytes tbsData = .ok () ↔
      signatureBytes.length = 64 ∧
        Cose.verifyStrict key tbsData signatureBytes = true := by
  unfold verifySignature
  split_ifs with length verified
  · simp [length]
  · simpa [verified] using length
  · simp [verified]

omit [Blake3] in
theorem verifySignature_then {key : VerifyingKey}
    {signatureBytes tbsData : List UInt8} {proof : Option InclusionProof} :
    (do
      verifySignature key signatureBytes tbsData
      match proof with
      | some .none | none => return true) = Except.ok true ↔
      verifySignature key signatureBytes tbsData = .ok () := by
  cases verifySignature key signatureBytes tbsData with
  | error error => exact iff_of_false nofun nofun
  | ok value =>
      rcases proof with _ | ⟨⟨⟩⟩
      · exact iff_of_true rfl rfl
      · exact iff_of_true rfl rfl

/-- A receipt is accepted for the payload of its envelope and the fingerprint of
the key, whatever its other fields are. -/
theorem verifyOffline_eq_ok_iff {receipt : SCITTReceipt} {key : VerifyingKey} :
    verifyOffline receipt key = .ok true ↔
      receipt.issuerPubkeyFingerprint = Blake3.hash key.bytes ∧
        Signed key receipt.coseSign1 receipt.payload := by
  unfold verifyOffline Signed
  by_cases fingerprint :
      receipt.issuerPubkeyFingerprint = Blake3.hash key.bytes
  · cases parsed : Cose.fromSlice receipt.coseSign1 with
    | error detail => simp [fingerprint]
    | ok sign1 =>
        cases carried : sign1.payload with
        | none => simp [fingerprint, carried]
        | some cosePayload =>
            by_cases same : cosePayload = receipt.payload
            · simp only [fingerprint, same, carried, ne_eq, not_true, if_false,
                verifySignature_then, verifySignature_eq_ok_iff]
              simp [carried, same]
            · simp [fingerprint, carried, same]
  · simp [fingerprint]

/-- Two receipts with one envelope that are accepted under one key. -/
structure Rewrapped (key : VerifyingKey) (cose : List UInt8)
    (first second : SCITTReceipt) : Prop where
  firstCose : first.coseSign1 = cose
  secondCose : second.coseSign1 = cose
  firstAccepted : verifyOffline first key = .ok true
  secondAccepted : verifyOffline second key = .ok true

/-- What the envelope binds: the payload and the fingerprint. -/
theorem Rewrapped.payload_eq {key : VerifyingKey} {cose : List UInt8}
    {first second : SCITTReceipt} (rewrapped : Rewrapped key cose first second) :
    first.payload = second.payload ∧
      first.issuerPubkeyFingerprint = second.issuerPubkeyFingerprint := by
  obtain ⟨firstFingerprint, sign1, parsed, carried, -⟩ :=
    verifyOffline_eq_ok_iff.mp rewrapped.firstAccepted
  obtain ⟨secondFingerprint, other, otherParsed, otherCarried, -⟩ :=
    verifyOffline_eq_ok_iff.mp rewrapped.secondAccepted
  rw [rewrapped.firstCose] at parsed
  rw [rewrapped.secondCose, parsed] at otherParsed
  obtain rfl := Except.ok.inj otherParsed
  constructor
  · exact Option.some.inj (carried.symm.trans otherCarried)
  · rw [firstFingerprint, secondFingerprint]

/-- Receipts with this envelope agree in their payload and in the name of the
key, which is the key id of the signed header. -/
def Bound (key : VerifyingKey) (cose : List UInt8) : Prop :=
  ∀ first second, Rewrapped key cose first second →
    first.payload = second.payload ∧ first.issuerKid = second.issuerKid ∧
      ∀ sign1, Cose.fromSlice cose = .ok sign1 →
        utf8Bytes first.issuerKid = sign1.keyId

/-- The receipt of a payload under a name. -/
def wrap (key : VerifyingKey) (cose payload : List UInt8) (kid : Str) :
    SCITTReceipt where
  payload := payload
  coseSign1 := cose
  issuerKid := kid
  issuerPubkeyFingerprint := Blake3.hash key.bytes
  inclusionProof := none
  issuedAt := 0
  registryId := []

theorem wrap_accepted {key : VerifyingKey} {cose payload : List UInt8}
    (signed : Signed key cose payload) (kid : Str) :
    verifyOffline (wrap key cose payload kid) key = .ok true :=
  verifyOffline_eq_ok_iff.mpr ⟨rfl, signed⟩

/-- An envelope binds the name exactly when no receipt with it is accepted. -/
theorem boundEnvelope_iff (key : VerifyingKey) (cose : List UInt8) :
    Bound key cose ↔ ∀ payload, ¬ Signed key cose payload := by
  constructor
  · intro bound payload signed
    have rewrapped : Rewrapped key cose (wrap key cose payload [])
        (wrap key cose payload ['a']) := by
      constructor
      · rfl
      · rfl
      · exact wrap_accepted signed []
      · exact wrap_accepted signed ['a']
    cases (bound _ _ rewrapped).2.1
  · intro unsigned first second rewrapped
    obtain ⟨-, signed⟩ := verifyOffline_eq_ok_iff.mp rewrapped.firstAccepted
    rw [rewrapped.firstCose] at signed
    exact absurd signed (unsigned first.payload)

/-- Every envelope binds the name, given that a signature verifies one
message. -/
def MetadataBound : Prop :=
  (∀ key first second signature,
    Cose.verifyStrict key first signature = true →
    Cose.verifyStrict key second signature = true → first = second) →
  ∀ key cose, Bound key cose

end

/-! ### A receipt under two names -/

def helloPayload : List UInt8 :=
  utf8Bytes "hello, SCITT world".toList

/-- The algorithm EdDSA and the key id `test-kid-1`. -/
def helloHeader : List UInt8 :=
  [0xa2, 0x01, 0x27, 0x04, 0x4a] ++ utf8Bytes "test-kid-1".toList

def helloKey : VerifyingKey where
  bytes := [
    0x68, 0xeb, 0x5e, 0x1c, 0x9b, 0x14, 0x5c, 0x5b, 0x22, 0xdc, 0xd5, 0x97,
    0xbc, 0xb3, 0xc0, 0xee, 0x9b, 0x47, 0x8c, 0x8b, 0xbf, 0x21, 0x6c, 0x76,
    0x76, 0x73, 0x42, 0x21, 0xed, 0x4a, 0xe3, 0x8d]

def helloSignature : List UInt8 := [
  0xd0, 0x67, 0xa6, 0x7d, 0xbd, 0x67, 0x0a, 0x67, 0xc6, 0xd2, 0x8c, 0x3c,
  0x2d, 0x89, 0x0d, 0xc1, 0xbf, 0x1b, 0x5a, 0x75, 0x62, 0xa2, 0x2b, 0x61,
  0x43, 0xbf, 0x58, 0xb1, 0xa0, 0xd2, 0xe3, 0x81, 0x41, 0x49, 0x45, 0x5a,
  0x69, 0xed, 0xca, 0xa4, 0x0d, 0x0a, 0xd8, 0x1e, 0xa3, 0x72, 0x35, 0xdf,
  0xdb, 0x39, 0x2f, 0x70, 0x32, 0x76, 0xf4, 0x51, 0x2d, 0xd5, 0x16, 0xc5,
  0x1a, 0xdd, 0x07, 0x0c]

def helloSign1 : CoseSign1 where
  protectedHeader := helloHeader
  keyId := utf8Bytes "test-kid-1".toList
  payload := some helloPayload
  signature := helloSignature

def helloCose : List UInt8 :=
  [0x84, 0x4f] ++ helloHeader ++ [0xa0, 0x52] ++ helloPayload ++
    [0x58, 0x40] ++ helloSignature

/-- The `Sig_structure` of the envelope. -/
def helloTbs : List UInt8 :=
  [0x84, 0x6a] ++ utf8Bytes "Signature1".toList ++ [0x4f] ++ helloHeader ++
    [0x40, 0x52] ++ helloPayload

/-- The crates on the one envelope. -/
@[reducible] def recordedCose : Cose where
  fromSlice bytes :=
    if bytes = helloCose then .ok helloSign1 else .error "invalid".toList
  tbsData sign1 aad := if sign1 = helloSign1 ∧ aad = [] then helloTbs else []
  verifyStrict key message signature :=
    decide (key = helloKey) && decide (message = helloTbs) &&
      decide (signature = helloSignature)

theorem recorded_verifies :
    recordedCose.verifyStrict helloKey helloTbs helloSignature = true := by
  change (decide (helloKey = helloKey) && decide (helloTbs = helloTbs) &&
    decide (helloSignature = helloSignature)) = true
  simp

theorem recorded_message {key : VerifyingKey} {message signature : List UInt8}
    (verified : recordedCose.verifyStrict key message signature = true) :
    message = helloTbs := by
  change (decide (key = helloKey) && decide (message = helloTbs) &&
    decide (signature = helloSignature)) = true at verified
  simp only [Bool.and_eq_true, decide_eq_true_eq] at verified
  exact verified.1.2

@[reducible] def recordedBlake3 : Blake3 where
  hash input :=
    if input = helloKey.bytes then
      #v[0x30, 0x95, 0xd8, 0x3e, 0xa4, 0x79, 0x60, 0x78, 0xb6, 0x3a, 0x2b, 0xa6,
        0xf4, 0x4b, 0xff, 0x19, 0xea, 0xef, 0xa1, 0xaf, 0x20, 0x13, 0x04, 0x55,
        0x29, 0x00, 0xe5, 0xfb, 0x89, 0xe6, 0x7b, 0xf6]
    else Vector.replicate 32 0

/-- The receipt is still accepted when it names another key. -/
theorem relabelled_accepted : ¬ @MetadataBound recordedBlake3 recordedCose := by
  intro law
  have oneMessage : ∀ key first second signature,
      recordedCose.verifyStrict key first signature = true →
      recordedCose.verifyStrict key second signature = true →
      first = second := by
    intro key first second signature firstVerifies secondVerifies
    rw [recorded_message firstVerifies, recorded_message secondVerifies]
  have signed : @Signed recordedCose helloKey helloCose helloPayload := by
    refine ⟨helloSign1, if_pos rfl, rfl, by decide, ?_⟩
    have tbs : recordedCose.tbsData helloSign1 [] = helloTbs :=
      if_pos ⟨rfl, rfl⟩
    rw [tbs]
    exact recorded_verifies
  have rewrapped : @Rewrapped recordedBlake3 recordedCose helloKey helloCose
      (@wrap recordedBlake3 helloKey helloCose helloPayload
        "test-kid-1".toList)
      (@wrap recordedBlake3 helloKey helloCose helloPayload
        "did:example:other".toList) :=
    @Rewrapped.mk recordedBlake3 recordedCose _ _ _ _ rfl rfl
      (@wrap_accepted recordedBlake3 recordedCose _ _ _ signed _)
      (@wrap_accepted recordedBlake3 recordedCose _ _ _ signed _)
  have names := (law oneMessage helloKey helloCose _ _ rewrapped).2.1
  revert names
  decide

end TrustLayer.Scitt
