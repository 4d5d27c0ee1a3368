import TrustLayer.Library.Base64
import TrustLayer.Library.Json

/-!
# The notary's envelope

The service joins three base64url segments with dots.  The public page decodes
the whole text as one strict base64 string.
-/

namespace TrustLayer.Notary

open TrustLayer.Library

/-! ## The producer -/

/-- The signer behind the service; a call that raises signs nothing. -/
structure HsmSigner where
  algorithm : Str
  keyFingerprint : Str
  sign : List UInt8 → List UInt8

structure NotaryServiceProduction where
  signer : HsmSigner
  issuer : Str
  keyId : Str

/-- `notarizedAt` is in microseconds since the epoch. -/
structure CoseSign1Args where
  certId : Str
  contentHash : Str
  contentType : Str
  aiSystemId : Str
  submittedBy : Str
  notarizedAt : Int
  deriving DecidableEq

/-- `int(notarized_at.timestamp())`. -/
def timestampSeconds (micros : Int) : Int :=
  micros.tdiv 1000000

/-- `base64.urlsafe_b64encode(data).rstrip(b"=").decode()`. -/
def segment (bytes : List UInt8) : Str :=
  Base64.urlsafeUnpadded bytes

structure CoseSign1 where
  coseSign1B64 : Str
  cwtClaims : Json
  primaryKeyFingerprint : Str

namespace NotaryServiceProduction

def cwtClaims (service : NotaryServiceProduction) (args : CoseSign1Args) :
    Json :=
  .obj [
    ("iss".toList, .str service.issuer),
    ("sub".toList, .str (service.issuer ++ ":notary".toList)),
    ("iat".toList, .int (timestampSeconds args.notarizedAt)),
    ("cert_id".toList, .str args.certId),
    ("content_hash".toList, .str args.contentHash),
    ("content_type".toList, .str args.contentType),
    ("ai_system_id".toList, .str args.aiSystemId),
    ("submitted_by".toList, .str args.submittedBy)]

def protectedHeader (service : NotaryServiceProduction) : Json :=
  .obj [
    ("alg".toList, .str service.signer.algorithm),
    ("typ".toList, .str "application/notary+cose".toList),
    ("kid".toList, .str (service.issuer ++ '#' :: service.keyId))]

/-- What the signer signs: the external data between the two zero bytes is
empty. -/
def sigStructure (protectedB64 payloadB64 : Str) : List UInt8 :=
  utf8Bytes ("Signature1".toList ++ '\x00' :: protectedB64 ++
    '\x00' :: '\x00' :: payloadB64)

/-- `_cose_sign1`. -/
def coseSign1 (service : NotaryServiceProduction) (args : CoseSign1Args) :
    CoseSign1 :=
  let claims := service.cwtClaims args
  let protectedB64 := segment (utf8Bytes (service.protectedHeader.dumps false))
  let payloadB64 := segment (utf8Bytes (claims.dumps true))
  let sigB64 := segment (service.signer.sign
    (sigStructure protectedB64 payloadB64))
  { coseSign1B64 := protectedB64 ++ '.' :: payloadB64 ++ '.' :: sigB64
    cwtClaims := claims
    primaryKeyFingerprint := service.signer.keyFingerprint }

end NotaryServiceProduction

/-! ## The public verification page -/

def coseSign1MinBytes : Nat := 2

/-- `_step_cose_sign1` on the `cose_sign1_b64` entry of a certificate. -/
def stepCoseSign1 (coseB64 : Option Str) : Str :=
  match coseB64 with
  | none | some [] => "[ABSENT] COSE_Sign1 envelope not stored".toList
  | some text =>
      match Base64.b64decode true text with
      | .error error =>
          "[ABSENT] COSE_Sign1 base64 decode failed: ".toList ++ error
      | .ok raw =>
          if raw.length < coseSign1MinBytes then
            "[ABSENT] COSE_Sign1 envelope too short to parse".toList
          else
            ("[STRUCTURE_OK] COSE_Sign1 envelope parsed (" ++
              toString raw.length ++
              " bytes); protected header + signature present").toList

example : stepCoseSign1 (some (Base64.b64encode [132, 64])) =
    ("[STRUCTURE_OK] COSE_Sign1 envelope parsed (2 bytes); " ++
      "protected header + signature present").toList := by
  decide

/-! ## Producer and page -/

/-- The page reports the service's own envelope as well formed. -/
def EnvelopeAccepted (service : NotaryServiceProduction)
    (args : CoseSign1Args) : Prop :=
  let report := stepCoseSign1 (some (service.coseSign1 args).coseSign1B64)
  "[STRUCTURE_OK]".toList <+: report ∧ ¬ "[ABSENT]".toList <+: report

theorem dot_mem_coseSign1 (service : NotaryServiceProduction)
    (args : CoseSign1Args) :
    '.' ∈ (service.coseSign1 args).coseSign1B64 := by
  simp [NotaryServiceProduction.coseSign1]

/-- A dot is foreign to base64, and the page's decoder is strict. -/
theorem stepCoseSign1_of_dot {text : Str} (member : '.' ∈ text) :
    ∃ error, stepCoseSign1 (some text) =
      "[ABSENT] COSE_Sign1 base64 decode failed: ".toList ++ error := by
  obtain ⟨error, failed⟩ : ∃ error, Base64.b64decode true text = .error error :=
    Base64.b64decode_foreign member (by decide) (by decide)
  cases text with
  | nil => cases member
  | cons char rest =>
      refine ⟨error, ?_⟩
      unfold stepCoseSign1
      simp only [failed]

theorem not_structureOk_of_absent {report error : Str}
    (absent : report =
      "[ABSENT] COSE_Sign1 base64 decode failed: ".toList ++ error) :
    ¬ "[STRUCTURE_OK]".toList <+: report := by
  subst absent
  rintro ⟨rest, same⟩
  have second := congrArg (·[1]?) same
  simp at second

/-- No envelope of the service is accepted, whatever the claims and the
signature. -/
theorem envelopeAccepted_never (service : NotaryServiceProduction)
    (args : CoseSign1Args) : ¬ EnvelopeAccepted service args := by
  rintro ⟨structureOk, -⟩
  obtain ⟨error, absent⟩ :=
    stepCoseSign1_of_dot (dot_mem_coseSign1 service args)
  exact not_structureOk_of_absent absent structureOk

/-- A signer whose signatures are 64 zero bytes. -/
def zeroSigner : HsmSigner where
  algorithm := "EdDSA".toList
  keyFingerprint := "ed25519:".toList ++ List.replicate 43 '0'
  sign := fun _ => List.replicate 64 0

def devService : NotaryServiceProduction where
  signer := zeroSigner
  issuer := "did:web:apohara.org".toList
  keyId := "notary-key-1".toList

def textArgs : CoseSign1Args where
  certId := "cert_0a1b2c3d_00112233".toList
  contentHash := ("sha256:" ++ String.ofList (List.replicate 64 'a')).toList
  contentType := "text".toList
  aiSystemId := "deepseek-v4-flash".toList
  submittedBy := "acme".toList
  notarizedAt := 1782604800000000

/-- A certificate that is fresh from the service reads as absent. -/
theorem freshCertificate_reportedAbsent :
    ¬ EnvelopeAccepted devService textArgs ∧
      stepCoseSign1 (some (devService.coseSign1 textArgs).coseSign1B64) =
        ("[ABSENT] COSE_Sign1 base64 decode failed: " ++
          "Only base64 data is allowed").toList := by
  have report :
      stepCoseSign1 (some (devService.coseSign1 textArgs).coseSign1B64) =
        "[ABSENT] COSE_Sign1 base64 decode failed: ".toList ++
          "Only base64 data is allowed".toList := by
    decide +kernel
  exact ⟨fun accepted => not_structureOk_of_absent report accepted.1,
    report.trans (by decide)⟩

end TrustLayer.Notary
