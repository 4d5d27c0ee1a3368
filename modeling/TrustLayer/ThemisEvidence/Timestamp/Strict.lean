import TrustLayer.ThemisEvidence.Packet
import TrustLayer.ThemisEvidence.Timestamp.Chain
import TrustLayer.ThemisEvidence.Timestamp.Wrap

/-!
# Strict verification of a timestamp

An accepted token has the hash as its imprint, and a signer whose certificate is
bound to the signed attributes, whose key verifies them, and whose issuer has a
root.  The certificates of the token come before the trusted ones.
-/

namespace TrustLayer.ThemisEvidence.Timestamp.Strict

open TrustLayer.Library

/-! ## Tokens -/

structure Extension where
  extnId : Str
  extnValue : List UInt8
  deriving DecidableEq

/-- A certificate that may be the one of a signer; its encoding may fail. -/
structure SignerCertificate extends Certificate where
  serialNumber : List UInt8
  extensions : Option (List Extension)
  der : Except Str (List UInt8)
  deriving DecidableEq

/-- The values by their contents, without tags and lengths. -/
structure Attribute where
  oid : Str
  values : List (List UInt8)
  deriving DecidableEq

inductive SignerIdentifier where
  | issuerAndSerialNumber (issuer : Name) (serialNumber : List UInt8)
  | subjectKeyIdentifier (ski : List UInt8)
  deriving DecidableEq

structure SignerInfo where
  sid : SignerIdentifier
  signedAttrs : Option (List Attribute)
  signatureAlgorithm : Str
  signature : List UInt8
  deriving DecidableEq

inductive CertificateChoices where
  | certificate (cert : SignerCertificate)
  | other
  deriving DecidableEq

structure SignedData where
  econtent : Option (List UInt8)
  certificates : Option (List CertificateChoices)
  signerInfos : List SignerInfo
  deriving DecidableEq

structure TstInfo where
  hashedMessage : List UInt8
  deriving DecidableEq

structure ContentInfo where
  contentType : Str
  contentTag : UInt8
  content : List UInt8
  deriving DecidableEq

/-- The decoders and encoders of the ASN.1 crates, and SHA-1. -/
class Decoders where
  timeStampResp : List UInt8 → Except Str (Option ContentInfo)
  contentInfoToDer : ContentInfo → Except Str (List UInt8)
  contentInfo : List UInt8 → Except Str ContentInfo
  signedData : List UInt8 → Except Str SignedData
  tstInfo : List UInt8 → Except Str TstInfo
  attributesToDer : List Attribute → Except Str (List UInt8)
  subjectKeyIdentifier : List UInt8 → Option (List UInt8)
  sha1 : List UInt8 → Vector UInt8 20

def idSignedData : Str := "1.2.840.113549.1.7.2".toList

def oidAaSigningCertificate : Str := "1.2.840.113549.1.9.16.2.12".toList

def oidAaSigningCertificateV2 : Str := "1.2.840.113549.1.9.16.2.47".toList

def oidMessageDigest : Str := "1.2.840.113549.1.9.4".toList

def oidEcdsaWithSha512 : Str := "1.2.840.10045.4.3.4".toList

def idCeSubjectKeyIdentifier : Str := "2.5.29.14".toList

/-! ## The checks -/

section

variable {α : Type}

/-- `map_err(wrap)?`. -/
def orError (wrap : Str → TimestampError) :
    Except Str α → Call TimestampError α
  | .ok value => .ok value
  | .error text => .error (.error (wrap text))

/-- `ok_or_else(missing)?`. -/
def orMissing (missing : TimestampError) : Option α → Call TimestampError α
  | some value => .ok value
  | none => .error (.error missing)

def asn1 (what text : Str) : TimestampError :=
  .asn1 (what ++ text)

end

section

variable [Decoders]

def parseSignedData (der : List UInt8) : Call TimestampError SignedData := do
  let resp ← orError (asn1 "TimeStampResp: ".toList)
    (Decoders.timeStampResp der)
  let token ← orMissing (.cms "timeStampToken missing".toList) resp
  let tokenDer ← orError (asn1 "encode ContentInfo: ".toList)
    (Decoders.contentInfoToDer token)
  let ci ← orError (asn1 "inner ContentInfo: ".toList)
    (Decoders.contentInfo tokenDer)
  if ci.contentType ≠ idSignedData then
    .error (.error (.cms ("expected id-signedData, got ".toList ++
      ci.contentType)))
  else
    orError (asn1 "SignedData: ".toList)
      (Decoders.signedData (wrapAsSequence ci.content))

/-- It takes the steps of `parseSignedData` first. -/
def parseTstInfo (der : List UInt8) : Call TimestampError TstInfo := do
  let sd ← parseSignedData der
  let econtent ← orMissing (.cms "encapContentInfo.eContent missing".toList)
    sd.econtent
  orError (asn1 "TstInfo: ".toList) (Decoders.tstInfo econtent)

def verifyStrict (response : TimestampResponse) (hash : List UInt8) :
    Call TimestampError Bool := do
  let tst ← parseTstInfo response.rawDer
  if tst.hashedMessage ≠ hash then return false
  else return true

def extractMessageDigest (attrs : List Attribute) : Option (List UInt8) :=
  attrs.findSome? fun attr =>
    if attr.oid = oidMessageDigest then attr.values.head? else none

def certMatchesSigner (cert : SignerCertificate) (signerInfo : SignerInfo) :
    Bool :=
  match signerInfo.sid with
  | .issuerAndSerialNumber issuer serialNumber =>
      cert.issuer = issuer && cert.serialNumber = serialNumber
  | .subjectKeyIdentifier ski =>
      (cert.extensions.getD []).any fun ext =>
        ext.extnId = idCeSubjectKeyIdentifier &&
          Decoders.subjectKeyIdentifier ext.extnValue = some ski

/-- The certificates among the choices of a token. -/
def embedded (cmsCerts : Option (List CertificateChoices)) :
    List SignerCertificate :=
  (cmsCerts.getD []).filterMap fun
    | .certificate cert => some cert
    | .other => none

def locateSignerCert (cmsCerts : Option (List CertificateChoices))
    (signerInfo : SignerInfo) (trusted : List SignerCertificate) :
    Call TimestampError SignerCertificate :=
  orMissing .signerCertMissing
    ((embedded cmsCerts ++ trusted).find? (certMatchesSigner · signerInfo))

/-- The first of the values that has a hash, as the reader finds it. -/
def firstHash (extract : List UInt8 → Call Unit (List UInt8)) :
    List (List UInt8) → Call TimestampError (Option (List UInt8))
  | [] => .ok none
  | bytes :: rest =>
      match extract bytes with
      | .ok hash => .ok (some hash)
      | .error (.error ()) => firstHash extract rest
      | .error (.panic panic) => .error (.panic panic)

/-- The values of the attributes with the identifier. -/
def valuesOf (oid : Str) (attrs : List Attribute) : List (List UInt8) :=
  (attrs.filter fun attr => attr.oid = oid).flatMap Attribute.values

def checkCertHash (what : Str) (hash computed : List UInt8) :
    Call TimestampError Unit :=
  if computed = hash then .ok ()
  else .error (.error (.essBindingFailed (what ++
    " cert_hash mismatch: attr=".toList ++ toHex hash ++
      " computed=".toList ++ toHex computed)))

variable [Sha2]

def verifyEssSigningCertificate (profile : Profile)
    (signedAttrs : List Attribute) (signerCertDer : List UInt8) :
    Call TimestampError Unit := do
  match ← firstHash (extractEssCertHashV1 profile)
      (valuesOf oidAaSigningCertificate signedAttrs) with
  | some hash =>
      checkCertHash "ESSCertID".toList hash
        (Decoders.sha1 signerCertDer).toList
  | none =>
      match ← firstHash (extractEssCertHashV2 profile)
          (valuesOf oidAaSigningCertificateV2 signedAttrs) with
      | some hash =>
          checkCertHash "ESSCertIDv2".toList hash
            (Sha2.sha256 signerCertDer).toList
      | none =>
          let v1Seen := signedAttrs.any (·.oid = oidAaSigningCertificate)
          let v2Seen := signedAttrs.any (·.oid = oidAaSigningCertificateV2)
          .error (.error (.essBindingFailed
            ("no SigningCertificate(v2) attribute found (v1_seen=".toList ++
              (toString v1Seen).toList ++ " v2_seen=".toList ++
                (toString v2Seen).toList ++ ")".toList)))

/-- The digest with the length of the one that is claimed. -/
def digestOfLength (length : Nat) (econtent : List UInt8) :
    Call TimestampError (List UInt8) :=
  if length = 32 then .ok (Sha2.sha256 econtent).toList
  else if length = 64 then .ok (Sha2.sha512 econtent).toList
  else .error (.error (.essBindingFailed
    ("unsupported messageDigest length: ".toList ++
      (toString length).toList ++ " bytes".toList)))

def checkMessageDigest (signedAttrs : List Attribute)
    (econtent : List UInt8) : Call TimestampError Unit := do
  let messageDigest ← orMissing
    (.cms "messageDigest attribute missing".toList)
      (extractMessageDigest signedAttrs)
  let computed ← digestOfLength messageDigest.length econtent
  if messageDigest ≠ computed then
    .error (.error (.essBindingFailed
      ("messageDigest mismatch: attr=".toList ++ toHex messageDigest ++
        " computed=".toList ++ toHex computed)))
  else .ok ()

variable [P384] [P384Keys]

def verifyCmsSignatureP384Sha512 (profile : Profile)
    (signerInfo : SignerInfo) (message subjectPublicKeyBytes : List UInt8) :
    Call TimestampError Unit :=
  if signerInfo.signatureAlgorithm ≠ oidEcdsaWithSha512 then
    .error (.error (.signatureInvalid
      ("expected ecdsa-with-SHA512, got ".toList ++
        signerInfo.signatureAlgorithm)))
  else if subjectPublicKeyBytes.length ≠ 97 ∨
      subjectPublicKeyBytes.head? ≠ some 0x04 then
    .error (.error (.x509
      ("expected 97-byte SEC1 uncompressed P-384 point, got ".toList ++
        (toString subjectPublicKeyBytes.length).toList ++
          " bytes (prefix 0x".toList ++
            toHex [subjectPublicKeyBytes.head?.getD 0] ++ ")".toList)))
  else do
    let verifyingKey ← orError
      (fun text => .x509 ("p384 VerifyingKey: ".toList ++ text))
        (P384Keys.fromSec1Bytes subjectPublicKeyBytes)
    let sig ← derToEcdsaP384Signature profile signerInfo.signature
    orError (fun text => .signatureInvalid ("verify: ".toList ++ text))
      (P384Keys.verifyPrehash verifyingKey (Sha2.sha512 message).toList sig)

def verifySignedData (profile : Profile) (showName : Name → Str)
    (sd : SignedData) (trustedSignerCerts : List SignerCertificate)
    (trustedRoots : List Certificate) : Call TimestampError Unit := do
  let signerInfo ← orMissing (.cms "signerInfos is empty".toList)
    sd.signerInfos.head?
  let signedAttrs ← orMissing (.cms "signedAttrs missing".toList)
    signerInfo.signedAttrs
  let econtent ← orMissing (.cms "encapContentInfo.eContent missing".toList)
    sd.econtent
  checkMessageDigest signedAttrs econtent
  let signerCert ← locateSignerCert sd.certificates signerInfo
    trustedSignerCerts
  let signerCertDer ← orError .x509 signerCert.der
  verifyEssSigningCertificate profile signedAttrs signerCertDer
  let signedAttrsDer ← orError (asn1 "encode signedAttrs: ".toList)
    (Decoders.attributesToDer signedAttrs)
  let subjectPublicKey ← orMissing
    (.x509 "subject_public_key is not BIT STRING".toList) signerCert.publicKey
  verifyCmsSignatureP384Sha512 profile signerInfo signedAttrsDer
    subjectPublicKey
  verifyChain showName (codeChecks profile) signerCert.toCertificate
    trustedRoots

def verifyStrictWithCerts (profile : Profile) (showName : Name → Str)
    (response : TimestampResponse) (hash : List UInt8)
    (trustedSignerCerts : List SignerCertificate)
    (trustedRoots : List Certificate) : Call TimestampError Bool := do
  let tst ← parseTstInfo response.rawDer
  if tst.hashedMessage ≠ hash then return false
  else
    let sd ← parseSignedData response.rawDer
    verifySignedData profile showName sd trustedSignerCerts trustedRoots
    return true

end

/-! ## What each check lets through -/

variable {profile : Profile} {attrs : List Attribute}
  {content der message key : List UInt8} {info : SignerInfo}

section

variable {α : Type} {value : α}

@[simp] theorem orError_eq_ok_iff {wrap : Str → TimestampError}
    {result : Except Str α} :
    orError wrap result = .ok value ↔ result = .ok value := by
  cases result with
  | ok other => simp [orError]
  | error text => simp [orError]

@[simp] theorem orMissing_eq_ok_iff {missing : TimestampError}
    {found : Option α} :
    orMissing missing found = .ok value ↔ found = some value := by
  cases found with
  | none => simp [orMissing]
  | some other => simp [orMissing]

end

theorem checkCertHash_eq_ok_iff {what : Str} {hash computed : List UInt8} :
    checkCertHash what hash computed = .ok () ↔ computed = hash := by
  unfold checkCertHash
  split_ifs with same
  · exact iff_of_true rfl same
  · exact iff_of_false nofun same

theorem mem_valuesOf {oid : Str} {bytes : List UInt8} :
    bytes ∈ valuesOf oid attrs ↔
      ∃ attr ∈ attrs, attr.oid = oid ∧ bytes ∈ attr.values := by
  simp [valuesOf, and_assoc]

theorem firstHash_eq_none {extract : List UInt8 → Call Unit (List UInt8)}
    {values : List (List UInt8)}
    (refused : ∀ bytes ∈ values, extract bytes = .error (.error ())) :
    firstHash extract values = .ok none := by
  induction values with
  | nil => rfl
  | cons bytes values induction =>
      rw [firstHash, refused bytes List.mem_cons_self]
      exact induction fun other member =>
        refused other (List.mem_cons_of_mem _ member)

section

variable [Sha2]

/-- The message digest of the attributes is one of the content. -/
def Digests (attrs : List Attribute) (content : List UInt8) : Prop :=
  extractMessageDigest attrs = some (Sha2.sha256 content).toList ∨
    extractMessageDigest attrs = some (Sha2.sha512 content).toList

theorem digestOfLength_eq_ok_iff {length : Nat} {digest : List UInt8} :
    digestOfLength length content = .ok digest ↔
      length = 32 ∧ digest = (Sha2.sha256 content).toList ∨
        length = 64 ∧ digest = (Sha2.sha512 content).toList := by
  unfold digestOfLength
  split_ifs with short long
  · subst short
    simp [eq_comm]
  · subst long
    simp [eq_comm]
  · simp [short, long]

theorem checkMessageDigest_of_computes {digest : List UInt8}
    (extracted : extractMessageDigest attrs = some digest)
    (computes : digestOfLength digest.length content = .ok digest) :
    checkMessageDigest attrs content = .ok () := by
  rw [checkMessageDigest, orMissing_eq_ok_iff.mpr extracted, Call.ok_bind,
    computes, Call.ok_bind, if_neg (not_not.mpr rfl)]

theorem checkMessageDigest_eq_ok_iff :
    checkMessageDigest attrs content = .ok () ↔ Digests attrs content := by
  constructor
  · intro checked
    obtain ⟨claimed, extracted, checked⟩ := bind_eq_ok_iff.mp checked
    obtain ⟨computed, digest, checked⟩ := bind_eq_ok_iff.mp checked
    rw [orMissing_eq_ok_iff] at extracted
    split_ifs at checked with differs
    obtain rfl := not_not.mp differs
    rcases digestOfLength_eq_ok_iff.mp digest with ⟨-, rfl⟩ | ⟨-, rfl⟩
    · exact .inl extracted
    · exact .inr extracted
  · rintro (extracted | extracted)
    · apply checkMessageDigest_of_computes extracted
      exact digestOfLength_eq_ok_iff.mpr (.inl ⟨Vector.length_toList, rfl⟩)
    · apply checkMessageDigest_of_computes extracted
      exact digestOfLength_eq_ok_iff.mpr (.inr ⟨Vector.length_toList, rfl⟩)

variable [P384] [P384Keys]

/-- The signature of the signer is one of the message under the key. -/
structure Seals (profile : Profile) (info : SignerInfo)
    (message key : List UInt8) : Prop where
  algorithm : info.signatureAlgorithm = oidEcdsaWithSha512
  length : key.length = 97
  uncompressed : key.head? = some 0x04
  verifies : ∃ verifyingKey signature,
    P384Keys.fromSec1Bytes key = .ok verifyingKey ∧
      derToEcdsaP384Signature profile info.signature = .ok signature ∧
        P384Keys.verifyPrehash verifyingKey (Sha2.sha512 message).toList
          signature = .ok ()

theorem verifyCmsSignatureP384Sha512_eq_ok_iff :
    verifyCmsSignatureP384Sha512 profile info message key = .ok () ↔
      Seals profile info message key := by
  unfold verifyCmsSignatureP384Sha512
  split_ifs with other outside
  · exact iff_of_false nofun fun seals => other seals.algorithm
  · exact iff_of_false nofun fun seals =>
      outside.elim (· seals.length) (· seals.uncompressed)
  · rw [not_or, not_not, not_not] at outside
    constructor
    · intro verified
      obtain ⟨verifyingKey, read, verified⟩ := bind_eq_ok_iff.mp verified
      obtain ⟨signature, decoded, verified⟩ := bind_eq_ok_iff.mp verified
      exact ⟨not_not.mp other, outside.1, outside.2, verifyingKey, signature,
        orError_eq_ok_iff.mp read, decoded, orError_eq_ok_iff.mp verified⟩
    · intro seals
      obtain ⟨verifyingKey, signature, read, decoded, verified⟩ :=
        seals.verifies
      refine bind_eq_ok_iff.mpr
        ⟨verifyingKey, orError_eq_ok_iff.mpr read, ?_⟩
      exact bind_eq_ok_iff.mpr
        ⟨signature, decoded, orError_eq_ok_iff.mpr verified⟩

end

section

variable [Decoders] [Sha2]

/-- The attributes name the certificate by its hash; an attribute of the second
version is asked where none of the first has a hash. -/
def Binds (profile : Profile) (attrs : List Attribute) (der : List UInt8) :
    Prop :=
  firstHash (extractEssCertHashV1 profile)
      (valuesOf oidAaSigningCertificate attrs) =
    .ok (some (Decoders.sha1 der).toList) ∨
  firstHash (extractEssCertHashV1 profile)
      (valuesOf oidAaSigningCertificate attrs) = .ok none ∧
    firstHash (extractEssCertHashV2 profile)
        (valuesOf oidAaSigningCertificateV2 attrs) =
      .ok (some (Sha2.sha256 der).toList)

theorem verifyEssSigningCertificate_eq_ok_iff :
    verifyEssSigningCertificate profile attrs der = .ok () ↔
      Binds profile attrs der := by
  constructor
  · intro verified
    obtain ⟨found, first, verified⟩ := bind_eq_ok_iff.mp verified
    cases found with
    | some hash =>
        obtain rfl := checkCertHash_eq_ok_iff.mp verified
        exact .inl first
    | none =>
        obtain ⟨found, second, verified⟩ := bind_eq_ok_iff.mp verified
        cases found with
        | some hash =>
            obtain rfl := checkCertHash_eq_ok_iff.mp verified
            exact .inr ⟨first, second⟩
        | none => cases verified
  · rintro (first | ⟨first, second⟩)
    · exact bind_eq_ok_iff.mpr ⟨_, first, if_pos rfl⟩
    · exact bind_eq_ok_iff.mpr
        ⟨none, first, bind_eq_ok_iff.mpr ⟨_, second, if_pos rfl⟩⟩

end

/-! ## What an accepted token rests on -/

section

variable [Decoders]

/-- The certificate that is taken for the one of the signer. -/
def holder (sd : SignedData) (info : SignerInfo)
    (trusted : List SignerCertificate) : Option SignerCertificate :=
  (embedded sd.certificates ++ trusted).find? (certMatchesSigner · info)

variable {response : TimestampResponse} {hash : List UInt8}

theorem verifyStrict_eq_ok_iff {answer : Bool} :
    verifyStrict response hash = .ok answer ↔ ∃ tst,
      parseTstInfo response.rawDer = .ok tst ∧
        (tst.hashedMessage = hash ↔ answer = true) := by
  constructor
  · intro verified
    obtain ⟨tst, parsed, verified⟩ := bind_eq_ok_iff.mp verified
    refine ⟨tst, parsed, ?_⟩
    split_ifs at verified with differs
    · obtain rfl := Except.ok.inj verified
      exact iff_of_false differs nofun
    · obtain rfl := Except.ok.inj verified
      exact iff_of_true (not_not.mp differs) rfl
  · rintro ⟨tst, parsed, answers⟩
    refine bind_eq_ok_iff.mpr ⟨tst, parsed, ?_⟩
    split_ifs with differs
    · cases answer with
      | false => rfl
      | true => exact absurd (answers.mpr rfl) differs
    · rw [answers.mp (not_not.mp differs)]
      rfl

variable [Sha2] [P384] [P384Keys] {showName : Name → Str} {sd : SignedData}
  {trusted : List SignerCertificate} {roots : List Certificate}

structure Evidence (profile : Profile) (sd : SignedData)
    (trusted : List SignerCertificate) (roots : List Certificate) where
  info : SignerInfo
  attrs : List Attribute
  content : List UInt8
  signer : SignerCertificate
  der : List UInt8
  message : List UInt8
  key : List UInt8
  first : sd.signerInfos.head? = some info
  signed : info.signedAttrs = some attrs
  carried : sd.econtent = some content
  digests : Digests attrs content
  held : holder sd info trusted = some signer
  encoded : signer.der = .ok der
  binds : Binds profile attrs der
  written : Decoders.attributesToDer attrs = .ok message
  keyed : signer.publicKey = some key
  seals : Seals profile info message key
  root : ∃ root, firstIssuer signer.toCertificate roots = some root ∧
    Verifies (codeChecks profile) signer.toCertificate root

/-- A token passes the checks where there is evidence for it. -/
theorem verifySignedData_eq_ok_iff :
    verifySignedData profile showName sd trusted roots = .ok () ↔
      Nonempty (Evidence profile sd trusted roots) := by
  constructor
  · intro verified
    obtain ⟨info, first, verified⟩ := bind_eq_ok_iff.mp verified
    obtain ⟨attrs, signed, verified⟩ := bind_eq_ok_iff.mp verified
    obtain ⟨content, carried, verified⟩ := bind_eq_ok_iff.mp verified
    obtain ⟨_, digests, verified⟩ := bind_eq_ok_iff.mp verified
    obtain ⟨signer, held, verified⟩ := bind_eq_ok_iff.mp verified
    obtain ⟨der, encoded, verified⟩ := bind_eq_ok_iff.mp verified
    obtain ⟨_, binds, verified⟩ := bind_eq_ok_iff.mp verified
    obtain ⟨message, written, verified⟩ := bind_eq_ok_iff.mp verified
    obtain ⟨key, keyed, verified⟩ := bind_eq_ok_iff.mp verified
    obtain ⟨_, seals, verified⟩ := bind_eq_ok_iff.mp verified
    exact ⟨{
      info := info
      attrs := attrs
      content := content
      signer := signer
      der := der
      message := message
      key := key
      first := orMissing_eq_ok_iff.mp first
      signed := orMissing_eq_ok_iff.mp signed
      carried := orMissing_eq_ok_iff.mp carried
      digests := checkMessageDigest_eq_ok_iff.mp digests
      held := orMissing_eq_ok_iff.mp held
      encoded := orError_eq_ok_iff.mp encoded
      binds := verifyEssSigningCertificate_eq_ok_iff.mp binds
      written := orError_eq_ok_iff.mp written
      keyed := orMissing_eq_ok_iff.mp keyed
      seals := verifyCmsSignatureP384Sha512_eq_ok_iff.mp seals
      root := accepted_iff_firstIssuer.mp verified }⟩
  · rintro ⟨evidence⟩
    refine bind_eq_ok_iff.mpr
      ⟨_, orMissing_eq_ok_iff.mpr evidence.first, ?_⟩
    refine bind_eq_ok_iff.mpr
      ⟨_, orMissing_eq_ok_iff.mpr evidence.signed, ?_⟩
    refine bind_eq_ok_iff.mpr
      ⟨_, orMissing_eq_ok_iff.mpr evidence.carried, ?_⟩
    refine bind_eq_ok_iff.mpr
      ⟨(), checkMessageDigest_eq_ok_iff.mpr evidence.digests, ?_⟩
    refine bind_eq_ok_iff.mpr
      ⟨_, orMissing_eq_ok_iff.mpr evidence.held, ?_⟩
    refine bind_eq_ok_iff.mpr
      ⟨_, orError_eq_ok_iff.mpr evidence.encoded, ?_⟩
    refine bind_eq_ok_iff.mpr
      ⟨(), verifyEssSigningCertificate_eq_ok_iff.mpr evidence.binds, ?_⟩
    refine bind_eq_ok_iff.mpr
      ⟨_, orError_eq_ok_iff.mpr evidence.written, ?_⟩
    refine bind_eq_ok_iff.mpr
      ⟨_, orMissing_eq_ok_iff.mpr evidence.keyed, ?_⟩
    refine bind_eq_ok_iff.mpr
      ⟨(), verifyCmsSignatureP384Sha512_eq_ok_iff.mpr evidence.seals, ?_⟩
    exact accepted_iff_firstIssuer.mpr evidence.root

/-- Certificates and roots behind the given ones leave the evidence as it is. -/
def Evidence.behind (evidence : Evidence profile sd trusted roots)
    (moreCerts : List SignerCertificate) (moreRoots : List Certificate) :
    Evidence profile sd (trusted ++ moreCerts) (roots ++ moreRoots) :=
  { evidence with
    held := by
      have held := evidence.held
      unfold holder at held ⊢
      rw [← List.append_assoc, List.find?_append, held, Option.some_or]
    root := by
      obtain ⟨root, found, verifies⟩ := evidence.root
      refine ⟨root, ?_, verifies⟩
      unfold firstIssuer at found ⊢
      rw [List.find?_append, found, Option.some_or] }

theorem verifyStrictWithCerts_eq_true_iff :
    verifyStrictWithCerts profile showName response hash trusted roots =
        .ok true ↔
      verifyStrict response hash = .ok true ∧
        ∃ sd, parseSignedData response.rawDer = .ok sd ∧
          Nonempty (Evidence profile sd trusted roots) := by
  simp only [verifyStrict_eq_ok_iff, iff_true]
  constructor
  · intro verified
    obtain ⟨tst, parsed, verified⟩ := bind_eq_ok_iff.mp verified
    split_ifs at verified with differs
    · cases verified
    · obtain ⟨sd, read, verified⟩ := bind_eq_ok_iff.mp verified
      obtain ⟨_, evidence, -⟩ := bind_eq_ok_iff.mp verified
      exact ⟨⟨tst, parsed, not_not.mp differs⟩, sd, read,
        verifySignedData_eq_ok_iff.mp evidence⟩
  · rintro ⟨⟨tst, parsed, same⟩, sd, read, evidence⟩
    refine bind_eq_ok_iff.mpr ⟨tst, parsed, ?_⟩
    rw [if_neg (not_not.mpr same)]
    refine bind_eq_ok_iff.mpr ⟨sd, read, ?_⟩
    exact bind_eq_ok_iff.mpr
      ⟨(), verifySignedData_eq_ok_iff.mpr evidence, rfl⟩

theorem verifyStrictWithCerts_eq_false_iff :
    verifyStrictWithCerts profile showName response hash trusted roots =
        .ok false ↔
      verifyStrict response hash = .ok false := by
  simp only [verifyStrict_eq_ok_iff, Bool.false_eq_true, iff_false]
  constructor
  · intro verified
    obtain ⟨tst, parsed, verified⟩ := bind_eq_ok_iff.mp verified
    refine ⟨tst, parsed, ?_⟩
    split_ifs at verified with differs
    · exact differs
    · obtain ⟨sd, _, verified⟩ := bind_eq_ok_iff.mp verified
      obtain ⟨_, _, verified⟩ := bind_eq_ok_iff.mp verified
      cases verified
  · rintro ⟨tst, parsed, differs⟩
    refine bind_eq_ok_iff.mpr ⟨tst, parsed, ?_⟩
    rw [if_pos differs]
    rfl

/-- A token is accepted for the hash of its imprint where there is evidence for
it, and refused without an error for other hashes only.  Certificates and roots
that are put behind the trusted ones keep an acceptance. -/
theorem verifyStrictWithCerts_accepts (profile : Profile)
    (showName : Name → Str) (response : TimestampResponse) (hash : List UInt8)
    (trusted : List SignerCertificate) (roots : List Certificate) :
    (verifyStrictWithCerts profile showName response hash trusted roots =
        .ok true ↔
      verifyStrict response hash = .ok true ∧
        ∃ sd, parseSignedData response.rawDer = .ok sd ∧
          Nonempty (Evidence profile sd trusted roots)) ∧
    (verifyStrictWithCerts profile showName response hash trusted roots =
        .ok false ↔
      verifyStrict response hash = .ok false) ∧
    ∀ moreCerts moreRoots,
      verifyStrictWithCerts profile showName response hash trusted roots =
        .ok true →
      verifyStrictWithCerts profile showName response hash
        (trusted ++ moreCerts) (roots ++ moreRoots) = .ok true := by
  refine ⟨verifyStrictWithCerts_eq_true_iff,
    verifyStrictWithCerts_eq_false_iff, ?_⟩
  intro moreCerts moreRoots accepted
  obtain ⟨same, sd, read, ⟨evidence⟩⟩ :=
    verifyStrictWithCerts_eq_true_iff.mp accepted
  exact verifyStrictWithCerts_eq_true_iff.mpr
    ⟨same, sd, read, ⟨evidence.behind moreCerts moreRoots⟩⟩

/-! ## Roots with RSA keys -/

/-- The root has an RSA key, in the encoding of the standard. -/
def RsaRoot (root : Certificate) : Prop :=
  root.spkiOid = rsaEncryption ∧ ∃ n e,
    root.publicKey = some (rsaPublicKeyDer n e) ∧
      (rsaPublicKeyDer n e).length < 2 ^ 63

/-- No token is accepted under roots with RSA keys, among them the one that is
embedded for the timestamping service. -/
theorem not_accepted_rsaRoots (profile : Profile) (showName : Name → Str)
    (response : TimestampResponse) (hash : List UInt8)
    (trusted : List SignerCertificate) {roots : List Certificate}
    (rsa : ∀ root ∈ roots, RsaRoot root) :
    verifyStrictWithCerts profile showName response hash trusted roots ≠
      .ok true := by
  intro accepted
  obtain ⟨-, sd, -, ⟨evidence⟩⟩ :=
    verifyStrictWithCerts_eq_true_iff.mp accepted
  obtain ⟨root, found, verifies⟩ := evidence.root
  obtain ⟨algorithm, n, e, key, bounded⟩ := rsa root (firstIssuer_some found).1
  exact not_verifies_rsaRoot profile algorithm key bounded verifies

end

/-! ## The two versions of the attribute -/

/-- The content of the attribute as the standard writes it: the first of the
certificate identifiers, the others, and the policies. -/
def signingCertificate (hash issuerSerial moreCerts policies : List UInt8) :
    List UInt8 :=
  Der.encode 0x30 (Der.encode 0x30 (Der.encode 0x04 hash ++ issuerSerial) ++
    moreCerts) ++ policies

structure AlgorithmIdentifier where
  oid : List UInt8
  parameters : List UInt8
  deriving DecidableEq

def AlgorithmIdentifier.toDer (algorithm : AlgorithmIdentifier) : List UInt8 :=
  Der.encode 0x30 (Der.encode 0x06 algorithm.oid ++ algorithm.parameters)

/-- In the second version the identifier begins with the algorithm of the hash,
unless it is SHA-256. -/
def signingCertificateV2 (algorithm : Option AlgorithmIdentifier)
    (hash issuerSerial moreCerts policies : List UInt8) : List UInt8 :=
  Der.encode 0x30 (Der.encode 0x30 (algorithm.elim [] AlgorithmIdentifier.toDer ++
    (Der.encode 0x04 hash ++ issuerSerial)) ++ moreCerts) ++ policies

/-- All signing certificates of the attributes are of the second version. -/
structure SecondVersionOnly (attrs : List Attribute) : Prop where
  absent : ∀ attr ∈ attrs, attr.oid ≠ oidAaSigningCertificate
  standard : ∀ attr ∈ attrs, attr.oid = oidAaSigningCertificateV2 →
    ∀ bytes ∈ attr.values, bytes.length < 2 ^ 63 ∧
      ∃ algorithm hash issuerSerial moreCerts policies,
        bytes = signingCertificateV2 algorithm hash issuerSerial moreCerts
          policies

section

variable {value rest : List UInt8} {tag : UInt8}
  {next : List UInt8 → Call Unit (List UInt8)}

/-- What is refused inside the first sequence is refused. -/
theorem stepInto_encode_bind (bounded : value.length < 2 ^ 63)
    (refused : next value = .error (.error ())) :
    (stepInto profile (Der.encode 0x30 value ++ rest) >>= next) =
      .error (.error ()) := by
  rw [stepInto_eq]
  rcases begins_encode_or_none 0x30 rest bounded with begins | none
  · obtain ⟨header, element⟩ := begins_iff.mp begins
    rw [element, ← refused]
    rfl
  · rw [none]
    rfl

theorem followed_encode (turn : Turn) (other : tag ≠ 0x30)
    (bounded : value.length < 2 ^ 63) :
    followed turn (front (Der.encode tag value ++ rest)) =
      .error (.error ()) := by
  rcases begins_encode_or_none tag rest bounded with begins | none
  · obtain ⟨header, element⟩ := begins_iff.mp begins
    rw [element, followed, if_pos other]
  · rw [none]
    rfl

end

theorem length_encode (tag : UInt8) (value : List UInt8) :
    value.length < (Der.encode tag value).length := by
  rw [Der.encode, List.cons_append, List.length_cons, List.length_append]
  omega

theorem extractEssCertHashV1_signingCertificate
    {hash issuerSerial moreCerts policies : List UInt8}
    (small : (signingCertificate hash issuerSerial moreCerts policies).length <
      2 ^ 16) :
    extractEssCertHashV1 profile
      (signingCertificate hash issuerSerial moreCerts policies) = .ok hash := by
  have certs := length_encode 0x30
    (Der.encode 0x30 (Der.encode 0x04 hash ++ issuerSerial) ++ moreCerts)
  have cert := length_encode 0x30 (Der.encode 0x04 hash ++ issuerSerial)
  have octets := length_encode 0x04 hash
  simp only [signingCertificate, List.length_append] at small certs cert
  have certsFit : (Der.encode 0x30 (Der.encode 0x04 hash ++ issuerSerial) ++
      moreCerts).length < 2 ^ 16 := by
    rw [List.length_append]
    omega
  have certFits : (Der.encode 0x04 hash ++ issuerSerial).length < 2 ^ 16 := by
    rw [List.length_append]
    omega
  have hashFits : hash.length < 2 ^ 16 := by omega
  obtain ⟨_, outer⟩ := begins_iff.mp
    (begins_encode_of_lt 0x30 policies certsFit)
  obtain ⟨_, middle⟩ := begins_iff.mp
    (begins_encode_of_lt 0x30 moreCerts certFits)
  obtain ⟨_, inner⟩ := begins_iff.mp
    (begins_encode_of_lt 0x04 issuerSerial hashFits)
  rw [extractEssCertHashV1, stepInto_eq, signingCertificate, outer]
  change seekOctetString profile 3 (_ ++ moreCerts) = _
  rw [seekOctetString_succ, middle]
  change seekOctetString profile 2 (_ ++ issuerSerial) = _
  rw [seekOctetString_succ, inner]
  rfl

/-- The reader looks for the algorithm one sequence too deep. -/
theorem extractEssCertHashV2_signingCertificateV2
    {algorithm : Option AlgorithmIdentifier}
    {hash issuerSerial moreCerts policies : List UInt8}
    (bounded : (signingCertificateV2 algorithm hash issuerSerial moreCerts
      policies).length < 2 ^ 63) :
    extractEssCertHashV2 profile (signingCertificateV2 algorithm hash
      issuerSerial moreCerts policies) = .error (.error ()) := by
  have certs := length_encode 0x30 (Der.encode 0x30
    (algorithm.elim [] AlgorithmIdentifier.toDer ++
      (Der.encode 0x04 hash ++ issuerSerial)) ++ moreCerts)
  have cert := length_encode 0x30 (algorithm.elim [] AlgorithmIdentifier.toDer ++
    (Der.encode 0x04 hash ++ issuerSerial))
  have octets := length_encode 0x04 hash
  simp only [signingCertificateV2, List.length_append] at bounded certs cert
  apply stepInto_encode_bind (by rw [List.length_append]; omega)
  apply stepInto_encode_bind (by simp only [List.length_append]; omega)
  cases algorithm with
  | none =>
      rw [Option.elim_none, List.nil_append, stepInto_eq,
        followed_encode .into (by decide) (by omega)]
      rfl
  | some identifier =>
      have fields := length_encode 0x30
        (Der.encode 0x06 identifier.oid ++ identifier.parameters)
      have oid := length_encode 0x06 identifier.oid
      simp only [Option.elim_some, AlgorithmIdentifier.toDer,
        List.length_append] at bounded certs cert fields
      apply stepInto_encode_bind (by rw [List.length_append]; omega)
      rw [stepPast_eq, followed_encode .past (by decide) (by omega)]
      rfl

section

variable [Decoders] [Sha2]

theorem SecondVersionOnly.not_binds (only : SecondVersionOnly attrs) :
    ¬ Binds profile attrs der := by
  have first : firstHash (extractEssCertHashV1 profile)
      (valuesOf oidAaSigningCertificate attrs) = .ok none := by
    apply firstHash_eq_none
    intro bytes member
    obtain ⟨attr, among, named, -⟩ := mem_valuesOf.mp member
    exact absurd named (only.absent attr among)
  have second : firstHash (extractEssCertHashV2 profile)
      (valuesOf oidAaSigningCertificateV2 attrs) = .ok none := by
    apply firstHash_eq_none
    intro bytes member
    obtain ⟨attr, among, named, inside⟩ := mem_valuesOf.mp member
    obtain ⟨bounded, algorithm, hash, issuerSerial, moreCerts, policies, rfl⟩ :=
      only.standard attr among named bytes inside
    exact extractEssCertHashV2_signingCertificateV2 bounded
  rintro (binds | ⟨-, binds⟩)
  · rw [first] at binds
    cases binds
  · rw [second] at binds
    cases binds

/-- The certificate hash of an attribute of the first version is found.  A token
whose signing certificates are all of the second version is never accepted,
whatever they name. -/
theorem only_firstVersion_binds [P384] [P384Keys] (profile : Profile) :
    (∀ hash issuerSerial moreCerts policies,
      (signingCertificate hash issuerSerial moreCerts policies).length <
        2 ^ 16 →
      extractEssCertHashV1 profile
        (signingCertificate hash issuerSerial moreCerts policies) =
          .ok hash) ∧
    ∀ sd info attrs, sd.signerInfos.head? = some info →
      info.signedAttrs = some attrs → SecondVersionOnly attrs →
        ∀ showName trusted roots,
          verifySignedData profile showName sd trusted roots ≠ .ok () ∧
          ∀ response hash, parseSignedData response.rawDer = .ok sd →
            verifyStrictWithCerts profile showName response hash trusted
              roots ≠ .ok true := by
  refine ⟨fun _ _ _ _ => extractEssCertHashV1_signingCertificate, ?_⟩
  intro sd info attrs first signed only showName trusted roots
  have refused : ¬ Nonempty (Evidence profile sd trusted roots) := by
    rintro ⟨evidence⟩
    obtain rfl := Option.some.inj (first.symm.trans evidence.first)
    obtain rfl := Option.some.inj (signed.symm.trans evidence.signed)
    exact only.not_binds evidence.binds
  constructor
  · exact fun verified => refused (verifySignedData_eq_ok_iff.mp verified)
  · intro response hash parsed accepted
    obtain ⟨-, other, read, evidence⟩ :=
      verifyStrictWithCerts_eq_true_iff.mp accepted
    obtain rfl := Except.ok.inj (parsed.symm.trans read)
    exact refused evidence

end

/-! ## Tokens that are refused -/

/-- The attributes are tied to an empty content. -/
def contentDigest : Attribute :=
  ⟨oidMessageDigest, [(emptySha2.sha256 []).toList]⟩

/-- SHA-1 of the empty input. -/
def emptySha1 : Vector UInt8 20 :=
  ⟨#[0xda, 0x39, 0xa3, 0xee, 0x5e, 0x6b, 0x4b, 0x0d, 0x32, 0x55, 0xbf, 0xef,
    0x95, 0x60, 0x18, 0x90, 0xaf, 0xd8, 0x07, 0x09], rfl⟩

/-- They name the certificate by its hash, in the first version. -/
def namingAttributesV1 : List Attribute :=
  [contentDigest,
    ⟨oidAaSigningCertificate, [signingCertificate emptySha1.toList [] [] []]⟩]

/-- They name the certificate by its hash, in the second version. -/
def namingAttributesV2 : List Attribute :=
  [contentDigest,
    ⟨oidAaSigningCertificateV2,
      [signingCertificateV2 none (emptySha2.sha256 []).toList [] [] []]⟩]

/-- A certificate with a key on P-384, signed by the root. -/
def tsaCertificate : SignerCertificate :=
  { sampleSigner with
    publicKey := some (0x04 :: List.replicate 96 1)
    signature := some sampleSignature
    serialNumber := [1]
    extensions := none
    der := .ok [] }

def signerWith (attrs : List Attribute) : SignerInfo where
  sid := .issuerAndSerialNumber ⟨[1]⟩ [1]
  signedAttrs := some attrs
  signatureAlgorithm := oidEcdsaWithSha512
  signature := signatureDer [1] [1]

def tokenWith (attrs : List Attribute) : SignedData where
  econtent := some []
  certificates := some [.certificate tsaCertificate]
  signerInfos := [signerWith attrs]

/-- The decoders, where every response carries the token. -/
@[reducible] def carrying (attrs : List Attribute) : Decoders where
  timeStampResp _ := .ok (some ⟨idSignedData, 0x30, []⟩)
  contentInfoToDer _ := .ok []
  contentInfo _ := .ok ⟨idSignedData, 0x30, []⟩
  signedData _ := .ok (tokenWith attrs)
  tstInfo _ := .ok ⟨(emptySha2.sha256 []).toList⟩
  attributesToDer _ := .ok []
  subjectKeyIdentifier _ := none
  sha1 _ := emptySha1

/-- Keys that verify every signature. -/
@[reducible] def lenientKeys : P384Keys where
  fromSec1Bytes sec1 := .ok ⟨sec1⟩
  verifyPrehash _ _ _ := .ok ()

/-- A root with the key of the sample. -/
def sampleRoot : Certificate :=
  rootWith (rsaPublicKeyDer sampleModulus 3)

/-- A token that passes every check in front of the key of the root. -/
theorem sampleRoot_refuses :
    let verify := @verifyStrictWithCerts (carrying namingAttributesV1)
      emptySha2 nistP384 lenientKeys .release (fun _ => []) ⟨0, 1000, []⟩
      (emptySha2.sha256 []).toList [] [sampleRoot]
    verify = .error (.error (.x509 ("RSA pubkey decode: ".toList ++
        "expected INTEGER tag 0x02 for modulus".toList))) ∧
      verify ≠ .ok true := by
  refine ⟨by decide +kernel, ?_⟩
  apply @not_accepted_rsaRoots (carrying namingAttributesV1) emptySha2 nistP384
    lenientKeys
  intro root member
  obtain rfl := List.mem_singleton.mp member
  exact ⟨rfl, sampleModulus, 3, rfl, bounded_sampleModulus⟩

theorem secondVersionOnly_naming : SecondVersionOnly namingAttributesV2 := by
  constructor
  · decide
  · intro attr member named bytes inside
    rcases List.mem_pair.mp member with rfl | rfl
    · exact absurd named (by decide)
    · obtain rfl := List.mem_singleton.mp inside
      refine ⟨?_, none, (emptySha2.sha256 []).toList, [], [], [], rfl⟩
      have length : (signingCertificateV2 none (emptySha2.sha256 []).toList [] []
          []).length = 38 := by decide +kernel
      rw [length]
      decide

/-- A token that is refused for the attribute, which names its certificate. -/
theorem naming_refused :
    let verify := @verifySignedData (carrying namingAttributesV2) emptySha2
      nistP384 lenientKeys .release (fun _ => []) (tokenWith namingAttributesV2)
      [] [sampleRoot]
    extractEssCertHashV1 .release
        (signingCertificate emptySha1.toList [] [] []) = .ok emptySha1.toList ∧
      verify = .error (.error (.essBindingFailed
        ("no SigningCertificate(v2) attribute found ".toList ++
          "(v1_seen=false v2_seen=true)".toList))) ∧
      verify ≠ .ok () := by
  have rule := @only_firstVersion_binds (carrying namingAttributesV2) emptySha2
    nistP384 lenientKeys .release
  refine ⟨rule.1 _ _ _ _ (by decide +kernel), by decide +kernel, ?_⟩
  exact (rule.2 (tokenWith namingAttributesV2) (signerWith namingAttributesV2)
    namingAttributesV2 rfl rfl secondVersionOnly_naming (fun _ => []) []
      [sampleRoot]).1

end TrustLayer.ThemisEvidence.Timestamp.Strict
