import TrustLayer.TlVerify

/-!
# CMS verification of a timestamp token

The token carries its own certificates, against which its signers are verified.
The pinned chain is validated apart from them: each of its certificates parses,
and is of a CA or for time stamping.
-/

namespace TrustLayer.CmsVerify

open TrustLayer.Library

/-! ## Parsed data -/

/-- A `SignedData` as the ASN.1 decoder leaves it. -/
structure Asn1SignedData where
  der : List UInt8
  deriving DecidableEq

structure ContentInfo where
  contentType : List UInt8
  content : List UInt8
  deriving DecidableEq

/-- The content type is one of the signed attributes, if there are any. -/
structure SignerInfo where
  der : List UInt8
  contentType : Option (List UInt8)
  deriving DecidableEq

/-- The certificates are in DER. -/
structure SignedData where
  certificates : List (List UInt8)
  signers : List SignerInfo
  signedContent : Option (List UInt8)
  deriving DecidableEq

structure TstInfo where
  hashedMessage : List UInt8
  deriving DecidableEq

structure Pem where
  contents : List UInt8
  deriving DecidableEq

/-- The flag of a parsed extended key usage, where the extension is one. -/
structure X509Extension where
  oid : List UInt8
  timeStamping : Option Bool
  deriving DecidableEq

/-- The basic constraints may be absent, or fail to parse. -/
structure X509Certificate where
  der : List UInt8
  subject : Str
  basicConstraints : Except Unit (Option Bool)
  extensions : List X509Extension

/-- The `cryptographic-message-syntax` crate and its decoder.  The texts are the
debug texts of the errors. -/
class Cms where
  /-- What `signed_data` gives, where the input is a `TimeStampResp`. -/
  timeStampResp : List UInt8 → Option (Except Str (Option Asn1SignedData))
  contentInfo : List UInt8 → Option ContentInfo
  asn1SignedData : List UInt8 → Except Str Asn1SignedData
  tryFrom : Asn1SignedData → Except Str SignedData
  signedContent : SignedData → SignerInfo → List UInt8
  verifySignature :
    SignedData → SignerInfo → (signedContent : List UInt8) → Except Str Unit
  verifyMessageDigest : SignedData → SignerInfo → Except Str Unit
  tstInfo : List UInt8 → Except Str TstInfo
  debugOid : List UInt8 → Str

/-- The `x509-parser` crate.  A block that was read has been consumed. -/
class X509 where
  /-- The bytes behind the first block, and the block. -/
  parseX509Pem : List UInt8 → Except Str (List UInt8 × Pem)
  parseX509 : Pem → Except Str X509Certificate
  consumes : ∀ {bytes next pem},
    parseX509Pem bytes = .ok (next, pem) → next.length < bytes.length

inductive CmsVerifyError where
  | digestLength (length : Nat)
  | cms (detail : Str)
  | messageImprintMismatch (expected got : Str)
  | contentType (detail : Str)
  | missingSignedAttributes
  | noSignedContent
  | noSignedData
  | chainParse (detail : Str)
  | chainNotCa (subject : Str)
  | chainEmpty
  | invalidInput
  | contentInfoType (detail : Str)
  deriving DecidableEq

def idSignedDataOctets : List UInt8 :=
  [0x2a, 0x86, 0x48, 0x86, 0xf7, 0x0d, 0x01, 0x07, 0x02]

def idCtTstInfoOctets : List UInt8 :=
  [0x2a, 0x86, 0x48, 0x86, 0xf7, 0x0d, 0x01, 0x09, 0x10, 0x01, 0x04]

/-- The extended key usage. -/
def oidX509ExtExtendedKeyUsage : List UInt8 :=
  [0x55, 0x1d, 0x25]

/-! ## The pinned chain -/

/-- The flag of the first extension that parses as an extended key usage. -/
def hasTimeStampingExtendedKeyUsage (cert : X509Certificate) : Bool :=
  (cert.extensions.findSome? fun extension =>
    if extension.oid = oidX509ExtExtendedKeyUsage then extension.timeStamping
    else none).getD false

def isCa (cert : X509Certificate) : Bool :=
  match cert.basicConstraints with
  | .ok (some ca) => ca
  | _ => false

/-- The blanks that are skipped between two blocks. -/
def isBlank (byte : UInt8) : Bool :=
  byte == 0x0a || byte == 0x0d || byte == 0x20 || byte == 0x09

/-- What is left behind a block, without the blanks. -/
def behind (remaining next : List UInt8) : List UInt8 :=
  (remaining.drop (remaining.length - next.length)).dropWhile isBlank

theorem behind_length_lt {remaining next : List UInt8}
    (consumed : next.length < remaining.length) :
    (behind remaining next).length < remaining.length := by
  have skipped := List.length_dropWhile_le isBlank
    (remaining.drop (remaining.length - next.length))
  rw [List.length_drop] at skipped
  unfold behind
  omega

section

variable [X509]

/-- The loop of `validate_chain_pem`, which counts the certificates. -/
def validateFrom (offset count : Nat) (remaining : List UInt8) :
    Except CmsVerifyError Nat :=
  if remaining = [] then .ok count
  else
    match _parsed : X509.parseX509Pem remaining with
    | .error detail =>
        .error (.chainParse ("at offset ".toList ++ TlVerify.number offset ++
          ": ".toList ++ detail))
    | .ok (next, pem) =>
        match X509.parseX509 pem with
        | .error detail =>
            .error (.chainParse ("cert parse: ".toList ++ detail))
        | .ok cert =>
            if isCa cert = false ∧
                hasTimeStampingExtendedKeyUsage cert = false then
              .error (.chainNotCa cert.subject)
            else
              validateFrom
                (offset + (remaining.length - (behind remaining next).length))
                (count + 1) (behind remaining next)
termination_by remaining.length
decreasing_by exact behind_length_lt (X509.consumes _parsed)

def validateChainPem (chainPem : List UInt8) : Except CmsVerifyError Unit :=
  match validateFrom 0 0 chainPem with
  | .error error => .error error
  | .ok 0 => .error .chainEmpty
  | .ok (_ + 1) => .ok ()

end

/-! ## The token -/

section

variable [Cms]

/-- The input is a `TimeStampResp`, or else a `ContentInfo`. -/
def extractSignedData (tokenDer : List UInt8) :
    Except CmsVerifyError SignedData :=
  match Cms.timeStampResp tokenDer with
  | some (.error detail) =>
      .error (.cms ("TimeStampResponse::signed_data: ".toList ++ detail))
  | some (.ok none) => .error .noSignedData
  | some (.ok (some inner)) => (Cms.tryFrom inner).mapError .cms
  | none =>
      match Cms.contentInfo tokenDer with
      | none => .error .invalidInput
      | some info =>
          if info.contentType ≠ idSignedDataOctets then
            .error (.contentInfoType (Cms.debugOid info.contentType))
          else
            match Cms.asn1SignedData info.content with
            | .error detail =>
                .error (.cms
                  ("ContentInfo content SignedData parse: ".toList ++ detail))
            | .ok inner => (Cms.tryFrom inner).mapError .cms

/-- The body of the loop over the signers. -/
def checkSigner (signedData : SignedData) (signer : SignerInfo) :
    Except CmsVerifyError Unit :=
  let signedContent := Cms.signedContent signedData signer
  match Cms.verifySignature signedData signer signedContent with
  | .error detail =>
      .error (.cms ("SignerInfo::verify_signature: ".toList ++ detail))
  | .ok () =>
      match Cms.verifyMessageDigest signedData signer with
      | .error detail =>
          .error (.cms
            ("SignerInfo::verify_message_digest_with_signed_data: ".toList ++
              detail))
      | .ok () =>
          match signer.contentType with
          | none => .error .missingSignedAttributes
          | some contentType =>
              if contentType ≠ idCtTstInfoOctets then
                .error (.contentType (Cms.debugOid contentType))
              else .ok ()

def checkSigners (signedData : SignedData) :
    List SignerInfo → Except CmsVerifyError Unit
  | [] => .ok ()
  | signer :: signers => do
      checkSigner signedData signer
      checkSigners signedData signers

def parseTstInfo (content : List UInt8) : Except CmsVerifyError TstInfo :=
  (Cms.tstInfo content).mapError fun detail =>
    .cms ("TSTInfo parse: ".toList ++ detail)

/-- The message imprint is the expected digest. -/
def checkImprint (signedData : SignedData) (expectedDigest : List UInt8) :
    Except CmsVerifyError Unit :=
  match signedData.signedContent with
  | none => .error .noSignedContent
  | some content => do
      let tst ← parseTstInfo content
      if tst.hashedMessage ≠ expectedDigest then
        .error (.messageImprintMismatch (toHex expectedDigest)
          (toHex tst.hashedMessage))
      else .ok ()

def verifyStrictWithCerts [X509]
    (tokenDer expectedDigest chainPem : List UInt8) :
    Except CmsVerifyError Unit :=
  if expectedDigest.length ≠ 32 then
    .error (.digestLength expectedDigest.length)
  else do
    let signedData ← extractSignedData tokenDer
    validateChainPem chainPem
    checkSigners signedData signedData.signers
    checkImprint signedData expectedDigest

end

/-! ## What is accepted -/

section

variable [X509]

/-- The certificates of the blocks, each of a CA or for time stamping. -/
inductive Chain : List UInt8 → List X509Certificate → Prop where
  | nil : Chain [] []
  | cons {remaining next : List UInt8} {pem : Pem} {cert : X509Certificate}
      {certs : List X509Certificate}
      (nonempty : remaining ≠ [])
      (block : X509.parseX509Pem remaining = .ok (next, pem))
      (parsed : X509.parseX509 pem = .ok cert)
      (usable : isCa cert = true ∨ hasTimeStampingExtendedKeyUsage cert = true)
      (later : Chain (behind remaining next) certs) :
      Chain remaining (cert :: certs)

theorem validateFrom_nil (offset count : Nat) :
    validateFrom offset count [] = .ok count := by
  rw [validateFrom, if_pos rfl]

/-- One turn of the loop, once the block is read. -/
theorem validateFrom_block {offset count : Nat} {remaining next : List UInt8}
    {pem : Pem} (nonempty : remaining ≠ [])
    (block : X509.parseX509Pem remaining = .ok (next, pem)) :
    validateFrom offset count remaining =
      match X509.parseX509 pem with
      | .error detail =>
          .error (.chainParse ("cert parse: ".toList ++ detail))
      | .ok cert =>
          if isCa cert = false ∧
              hasTimeStampingExtendedKeyUsage cert = false then
            .error (.chainNotCa cert.subject)
          else
            validateFrom
              (offset + (remaining.length - (behind remaining next).length))
              (count + 1) (behind remaining next) := by
  rw [validateFrom, if_neg nonempty]
  split
  · rename_i failed
    cases block.symm.trans failed
  · rename_i read
    cases block.symm.trans read
    rfl

theorem validateFrom_ne_ok {offset count total : Nat} {remaining : List UInt8}
    {detail : Str} (nonempty : remaining ≠ [])
    (block : X509.parseX509Pem remaining = .error detail) :
    validateFrom offset count remaining ≠ .ok total := by
  rw [validateFrom, if_neg nonempty]
  split
  · exact nofun
  · rename_i read
    cases block.symm.trans read

theorem chain_of_validateFrom {offset count total : Nat}
    {remaining : List UInt8}
    (validated : validateFrom offset count remaining = .ok total) :
    ∃ certs, Chain remaining certs ∧ total = count + certs.length := by
  induction offset, count, remaining using validateFrom.induct with
  | case1 offset count =>
      rw [validateFrom_nil] at validated
      exact ⟨[], .nil, (Except.ok.inj validated).symm⟩
  | case2 offset count remaining nonempty detail block =>
      exact absurd validated (validateFrom_ne_ok nonempty block)
  | case3 offset count remaining nonempty next pem block detail parsed =>
      rw [validateFrom_block nonempty block, parsed] at validated
      cases validated
  | case4 offset count remaining nonempty next pem block cert parsed unusable =>
      rw [validateFrom_block nonempty block, parsed] at validated
      simp only [if_pos unusable] at validated
      cases validated
  | case5 offset count remaining nonempty next pem block cert parsed usable
      induction =>
      rw [validateFrom_block nonempty block, parsed] at validated
      simp only [if_neg usable] at validated
      obtain ⟨certs, later, totalIs⟩ := induction validated
      refine ⟨cert :: certs, .cons nonempty block parsed ?_ later, ?_⟩
      · grind
      · rw [List.length_cons]
        omega

theorem validateFrom_of_chain {remaining : List UInt8}
    {certs : List X509Certificate} (chain : Chain remaining certs)
    (offset count : Nat) :
    validateFrom offset count remaining = .ok (count + certs.length) := by
  induction chain generalizing offset count with
  | nil => exact validateFrom_nil offset count
  | @cons remaining next pem cert certs nonempty block parsed usable later
      induction =>
      have refused : ¬ (isCa cert = false ∧
          hasTimeStampingExtendedKeyUsage cert = false) := by
        grind
      rw [validateFrom_block nonempty block, parsed]
      simp only [if_neg refused, induction, List.length_cons]
      congr 1
      omega

theorem validateChainPem_eq_ok_iff {chainPem : List UInt8} :
    validateChainPem chainPem = .ok () ↔
      ∃ certs, Chain chainPem certs ∧ certs ≠ [] := by
  constructor
  · intro validated
    unfold validateChainPem at validated
    cases counted : validateFrom 0 0 chainPem with
    | error error => simp [counted] at validated
    | ok total =>
        obtain ⟨certs, chain, totalIs⟩ := chain_of_validateFrom counted
        refine ⟨certs, chain, ?_⟩
        intro empty
        subst empty totalIs
        simp [counted] at validated
  · intro exists_
    obtain ⟨certs, chain, nonempty⟩ := exists_
    cases certs with
    | nil => exact absurd rfl nonempty
    | cons cert certs =>
        have counted := validateFrom_of_chain chain 0 0
        rw [Nat.zero_add, List.length_cons] at counted
        rw [validateChainPem, counted]

end

section

variable [Cms]

theorem extractSignedData_of_contentInfo {tokenDer : List UInt8}
    {info : ContentInfo} {inner : Asn1SignedData} {signedData : SignedData}
    (noResponse : Cms.timeStampResp tokenDer = none)
    (decoded : Cms.contentInfo tokenDer = some info)
    (contentType : info.contentType = idSignedDataOctets)
    (content : Cms.asn1SignedData info.content = .ok inner)
    (converted : Cms.tryFrom inner = .ok signedData) :
    extractSignedData tokenDer = .ok signedData := by
  simp [extractSignedData, noResponse, decoded, contentType, content, converted,
    Except.mapError]

/-- What the loop demands of a signer. -/
structure SignerHolds (signedData : SignedData) (signer : SignerInfo) :
    Prop where
  signature : Cms.verifySignature signedData signer
    (Cms.signedContent signedData signer) = .ok ()
  messageDigest : Cms.verifyMessageDigest signedData signer = .ok ()
  contentType : signer.contentType = some idCtTstInfoOctets

theorem checkSigner_eq_ok_iff {signedData : SignedData} {signer : SignerInfo} :
    checkSigner signedData signer = .ok () ↔ SignerHolds signedData signer := by
  constructor
  · intro checked
    unfold checkSigner at checked
    cases signature : Cms.verifySignature signedData signer
        (Cms.signedContent signedData signer) with
    | error detail => simp [signature] at checked
    | ok =>
        cases digest : Cms.verifyMessageDigest signedData signer with
        | error detail => simp [signature, digest] at checked
        | ok =>
            cases contentType : signer.contentType with
            | none => simp [signature, digest, contentType] at checked
            | some octets =>
                have isTst : octets = idCtTstInfoOctets := by
                  simpa [signature, digest, contentType] using checked
                exact ⟨signature, digest, contentType.trans (by rw [isTst])⟩
  · intro holds
    simp [checkSigner, holds.signature, holds.messageDigest, holds.contentType]

theorem checkSigners_eq_ok_iff {signedData : SignedData}
    {signers : List SignerInfo} :
    checkSigners signedData signers = .ok () ↔
      ∀ signer ∈ signers, SignerHolds signedData signer := by
  induction signers with
  | nil => simp [checkSigners]
  | cons signer signers induction =>
      rw [List.forall_mem_cons, ← induction, ← checkSigner_eq_ok_iff,
        checkSigners]
      cases checkSigner signedData signer with
      | error error => simp [bind, Except.bind]
      | ok => simp [bind, Except.bind]

theorem checkImprint_eq_ok_iff {signedData : SignedData}
    {expectedDigest : List UInt8} :
    checkImprint signedData expectedDigest = .ok () ↔
      ∃ content ∈ signedData.signedContent, ∃ tst,
        Cms.tstInfo content = .ok tst ∧
          tst.hashedMessage = expectedDigest := by
  unfold checkImprint parseTstInfo
  cases signedData.signedContent with
  | none => simp
  | some content =>
      cases parsed : Cms.tstInfo content with
      | error detail => simp [bind, Except.bind, Except.mapError, parsed]
      | ok tst => simp [bind, Except.bind, Except.mapError, parsed]

variable [X509]

theorem verifyStrictWithCerts_eq_ok_iff
    {tokenDer expectedDigest chainPem : List UInt8} :
    verifyStrictWithCerts tokenDer expectedDigest chainPem = .ok () ↔
      expectedDigest.length = 32 ∧ ∃ signedData,
        extractSignedData tokenDer = .ok signedData ∧
        validateChainPem chainPem = .ok () ∧
        checkSigners signedData signedData.signers = .ok () ∧
        checkImprint signedData expectedDigest = .ok () := by
  by_cases length : expectedDigest.length = 32
  · cases extracted : extractSignedData tokenDer with
    | error error =>
        simp [verifyStrictWithCerts, length, extracted, bind, Except.bind]
    | ok signedData =>
        cases validated : validateChainPem chainPem with
        | error error =>
            simp [verifyStrictWithCerts, length, extracted, validated, bind,
              Except.bind]
        | ok =>
            cases checked : checkSigners signedData signedData.signers with
            | error error =>
                simp [verifyStrictWithCerts, length, extracted, validated,
                  checked, bind, Except.bind]
            | ok =>
                simp [verifyStrictWithCerts, length, extracted, validated,
                  checked, bind, Except.bind]
  · simp [verifyStrictWithCerts, length]

/-! ## Whose signature -/

/-- The signatures and the certificates: the certificate a signer names, by its
issuer and serial number, and the key its signature was made with. -/
structure Pki (Key : Type) where
  identifies : SignerInfo → (certificate : List UInt8) → Bool
  keyOf : (certificate : List UInt8) → Key
  signedWith : SignerInfo → Option Key
  IssuedBy : (issuer certificate : List UInt8) → Prop

variable {Key : Type} (pki : Pki Key)

omit [X509] in
/-- What the library promises of a single signature: it was made with the key of
the certificate the signer names, which is looked up in the token. -/
def VerifiesNamed : Prop :=
  ∀ signedData signer signedContent,
    Cms.verifySignature signedData signer signedContent = .ok () →
    ∃ certificate,
      signedData.certificates.find? (pki.identifies signer) = some certificate ∧
      pki.signedWith signer = some (pki.keyOf certificate)

omit [Cms] [X509] in
/-- A certificate of the pinned chain, or one issued by such a certificate. -/
def PinnedOrIssued (certs : List X509Certificate) (certificate : List UInt8) :
    Prop :=
  ∃ pinned ∈ certs, pinned.der = certificate ∨
    pki.IssuedBy pinned.der certificate

omit [Cms] [X509] in
/-- The signature was made with the key of such a certificate. -/
def Anchored (certs : List X509Certificate) (signer : SignerInfo) : Prop :=
  ∃ certificate, pki.signedWith signer = some (pki.keyOf certificate) ∧
    PinnedOrIssued pki certs certificate

/-- If the token is accepted, it has a signer, and its signers are anchored in the
pinned chain. -/
def AcceptanceAnchored (tokenDer expectedDigest chainPem : List UInt8) : Prop :=
  verifyStrictWithCerts tokenDer expectedDigest chainPem = .ok () →
  ∃ signedData certs, extractSignedData tokenDer = .ok signedData ∧
    Chain chainPem certs ∧ signedData.signers ≠ [] ∧
    ∀ signer ∈ signedData.signers, Anchored pki certs signer

/-- What the checks of `verify_strict_with_certs` ask of a call. -/
structure Passes (tokenDer expectedDigest chainPem : List UInt8)
    (signedData : SignedData) (certs : List X509Certificate) : Prop where
  digestLength : expectedDigest.length = 32
  decoded : extractSignedData tokenDer = .ok signedData
  chain : Chain chainPem certs
  pinned : certs ≠ []
  holds : ∀ signer ∈ signedData.signers, SignerHolds signedData signer
  imprint : ∃ content ∈ signedData.signedContent, ∃ tst,
    Cms.tstInfo content = .ok tst ∧ tst.hashedMessage = expectedDigest

theorem verifyStrictWithCerts_eq_ok_iff_passes
    {tokenDer expectedDigest chainPem : List UInt8} :
    verifyStrictWithCerts tokenDer expectedDigest chainPem = .ok () ↔
      ∃ signedData certs,
        Passes tokenDer expectedDigest chainPem signedData certs := by
  rw [verifyStrictWithCerts_eq_ok_iff]
  constructor
  · intro verified
    obtain ⟨length, signedData, decoded, validated, checked, imprint⟩ := verified
    obtain ⟨certs, chain, pinned⟩ := validateChainPem_eq_ok_iff.mp validated
    exact ⟨signedData, certs, length, decoded, chain, pinned,
      checkSigners_eq_ok_iff.mp checked, checkImprint_eq_ok_iff.mp imprint⟩
  · intro exists_
    obtain ⟨signedData, certs, passes⟩ := exists_
    exact ⟨passes.digestLength, signedData, passes.decoded,
      validateChainPem_eq_ok_iff.mpr ⟨certs, passes.chain, passes.pinned⟩,
      checkSigners_eq_ok_iff.mpr passes.holds,
      checkImprint_eq_ok_iff.mpr passes.imprint⟩

omit [Cms] in
theorem Chain.unique {chainPem : List UInt8} {first second : List X509Certificate}
    (chain : Chain chainPem first) (other : Chain chainPem second) :
    first = second := by
  induction chain generalizing second with
  | nil =>
      cases other with
      | nil => rfl
      | cons nonempty => exact absurd rfl nonempty
  | cons nonempty block parsed usable later induction =>
      cases other with
      | nil => exact absurd rfl nonempty
      | cons _ otherBlock otherParsed _ otherLater =>
          obtain ⟨rfl, rfl⟩ :=
            Prod.mk.inj (Except.ok.inj (block.symm.trans otherBlock))
          rw [Except.ok.inj (parsed.symm.trans otherParsed),
            induction otherLater]

omit [Cms] [X509] in
/-- Some pinned or issued certificate has the key of this one. -/
def KeyPinned (certs : List X509Certificate) (certificate : List UInt8) : Prop :=
  ∃ other, pki.keyOf other = pki.keyOf certificate ∧
    PinnedOrIssued pki certs other

/-- Each signer of the token names a certificate in the token whose key is
pinned. -/
def NamesPinned (signedData : SignedData) (certs : List X509Certificate) : Prop :=
  ∀ signer ∈ signedData.signers, ∃ certificate,
    signedData.certificates.find? (pki.identifies signer) = some certificate ∧
      KeyPinned pki certs certificate

variable {pki}

omit [X509] in
/-- A signer that holds is anchored exactly if the certificate it names is. -/
theorem anchored_iff (named : VerifiesNamed pki) {signedData : SignedData}
    {certs : List X509Certificate} {signer : SignerInfo}
    (holds : SignerHolds signedData signer) :
    Anchored pki certs signer ↔ ∃ certificate,
      signedData.certificates.find? (pki.identifies signer) = some certificate ∧
        KeyPinned pki certs certificate := by
  obtain ⟨certificate, found, signed⟩ := named _ _ _ holds.signature
  constructor
  · intro anchored
    obtain ⟨other, signedOther, pinned⟩ := anchored
    have sameKey := Option.some.inj (signedOther.symm.trans signed)
    exact ⟨certificate, found, other, sameKey, pinned⟩
  · intro names
    obtain ⟨other, foundOther, key, sameKey, pinned⟩ := names
    obtain rfl := Option.some.inj (found.symm.trans foundOther)
    exact ⟨key, signed.trans (congrArg some sameKey.symm), pinned⟩

end

/-! ### The test token under another chain -/

/-- Bytes written in lines of hex digits. -/
def bytesOf (lines : List String) : List UInt8 :=
  lines.flatMap fun line => (TlVerify.hexDecode line.toList).toOption.getD []

def textOf (lines : List String) : List UInt8 :=
  lines.flatMap fun line => utf8Bytes (line.toList ++ ['\n'])

@[irreducible] def testCertificate : List UInt8 :=
  bytesOf [
    "308201663082010ca00302010202145a8f6dbf60a2aa02edf03fd2674a39771f",
    "4dce77300a06082a8648ce3d040302301e311c301a06035504030c1354727573",
    "744c61796572205465737420545341301e170d3236303130313030303030305a",
    "170d3237303130313030303030305a301e311c301a06035504030c1354727573",
    "744c617965722054657374205453413059301306072a8648ce3d020106082a86",
    "48ce3d0301070342000411cd3b17c020a95a5dc60feaacf50738f55694d52fe1",
    "ca5f0d9c040a7418336d9bad48fdb273ffb72424b70cbb5db07ad3cc493b0a60",
    "e797723f3f1e8cfcf136a328302630160603551d250101ff040c300a06082b06",
    "010505070308300c0603551d130101ff04023000300a06082a8648ce3d040302",
    "0348003045022052ca28fa92f1a0f3f434ccf0dabbca141c3fdad5e10f778bc7",
    "fa11c9a33d87fc022100f1ab3313b952e6f53eacaa8c349840749a690e44a874",
    "681d36f6d15587202b7e"]

/-- The signed attributes, in the encoding that is signed. -/
@[irreducible] def testAttributes : List UInt8 :=
  bytesOf [
    "3181c2301a06092a864886f70d010903310d060b2a864886f70d010910010430",
    "2f06092a864886f70d01090431220420a6c8e13910ef610dd42b70bddd04a1c4",
    "1fb334c4a5520a335c2f3e2ac925012b3073060b2a864886f70d010910022f31",
    "6430623060305e04206d7dccd62ff61bf4af27685b97a1a2e21b4e2fcad1f80b",
    "0a56a35152e2e3cdee303a3022a420301e311c301a06035504030c1354727573",
    "744c6179657220546573742054534102145a8f6dbf60a2aa02edf03fd2674a39",
    "771f4dce77"]

def testSigner : SignerInfo where
  der :=
    bytesOf [
      "308201630201013036301e311c301a06035504030c1354727573744c61796572",
      "20546573742054534102145a8f6dbf60a2aa02edf03fd2674a39771f4dce7730",
      "0d06096086480165030402010500a0"] ++
      testAttributes.tail ++
      bytesOf [
        "300a06082a8648ce3d0403020446304402207947098dae8797a46f5693cb3ea2",
        "5fe876a29da89e50ecaaf365182108486eff0220789f838acbb49bdf6eb41a5e",
        "21d82c3ee1cd22a41323d1cb1d0ba90e57e0d481"]
  contentType := some idCtTstInfoOctets

@[irreducible] def testTstInfo : List UInt8 :=
  bytesOf [
    "305002010106042a0304053031300d0609608648016503040201050004206672",
    "3e3771be10daffaa3dffe56cebcfef91542a37f81a101a16e1e50cf00a860201",
    "01180f32303236303632353135303030305a"]

@[irreducible] def testDigest : List UInt8 :=
  bytesOf ["66723e3771be10daffaa3dffe56cebcfef91542a37f81a101a16e1e50cf00a86"]

def testSignedData : SignedData where
  certificates := [testCertificate]
  signers := [testSigner]
  signedContent := some testTstInfo

def testContent : List UInt8 :=
  bytesOf [
    "30820352020103310f300d060960864801650304020105003063060b2a864886",
    "f70d0109100104a0540452"] ++
    testTstInfo ++ [0xa0, 0x82, 0x01, 0x6a] ++ testCertificate ++
    [0x31, 0x82, 0x01, 0x67] ++ testSigner.der

/-- The token of the test fixture: its one signer is the test authority, whose
certificate is embedded. -/
def testToken : List UInt8 :=
  [0x30, 0x82, 0x03, 0x65, 0x06, 0x09] ++ idSignedDataOctets ++
    [0xa0, 0x82, 0x03, 0x56] ++ testContent

/-- The chain file of the fixture. -/
@[irreducible] def testChain : List UInt8 :=
  textOf [
    "-----BEGIN CERTIFICATE-----",
    "MIIBZjCCAQygAwIBAgIUWo9tv2CiqgLt8D/SZ0o5dx9NzncwCgYIKoZIzj0EAwIw",
    "HjEcMBoGA1UEAwwTVHJ1c3RMYXllciBUZXN0IFRTQTAeFw0yNjAxMDEwMDAwMDBa",
    "Fw0yNzAxMDEwMDAwMDBaMB4xHDAaBgNVBAMME1RydXN0TGF5ZXIgVGVzdCBUU0Ew",
    "WTATBgcqhkjOPQIBBggqhkjOPQMBBwNCAAQRzTsXwCCpWl3GD+qs9Qc49VaU1S/h",
    "yl8NnAQKdBgzbZutSP2yc/+3JCS3DLtdsHrTzEk7CmDnl3I/Px6M/PE2oygwJjAW",
    "BgNVHSUBAf8EDDAKBggrBgEFBQcDCDAMBgNVHRMBAf8EAjAAMAoGCCqGSM49BAMC",
    "A0gAMEUCIFLKKPqS8aDz9DTM8Nq7yhQcP9rV4Q93i8f6EcmjPYf8AiEA8aszE7lS",
    "5vU+rKqMNJhAdJppDkSodGgdNvbRVYcgK34=",
    "-----END CERTIFICATE-----"]

@[irreducible] def otherCertificate : List UInt8 :=
  bytesOf [
    "308201273081daa003020102020101300506032b657030133111300f06035504",
    "030c084f74686572204341301e170d3236313131393038353632325a170d3336",
    "313131363038353632325a30133111300f06035504030c084f74686572204341",
    "302a300506032b6570032100d4a7aecac7a23a4a956072d2b87edf2dcea70b0a",
    "d83c6332d85bcbeb7083f11ba3533051301d0603551d0e04160414fd5bb68f3f",
    "e6da6c6351f59510b86d18c10c723c301f0603551d23041830168014fd5bb68f",
    "3fe6da6c6351f59510b86d18c10c723c300f0603551d130101ff040530030101",
    "ff300506032b657003410026c1d80b28096300e0019fbe8678a3168941a4c654",
    "61617b1562b149809ecae179692da206a11c6cd122385b629844d015a7d19c35",
    "8e57753293840df0368805"]

/-- The certificate of a CA that has nothing to do with the token. -/
@[irreducible] def otherChain : List UInt8 :=
  textOf [
    "-----BEGIN CERTIFICATE-----",
    "MIIBJzCB2qADAgECAgEBMAUGAytlcDATMREwDwYDVQQDDAhPdGhlciBDQTAeFw0y",
    "NjExMTkwODU2MjJaFw0zNjExMTYwODU2MjJaMBMxETAPBgNVBAMMCE90aGVyIENB",
    "MCowBQYDK2VwAyEA1KeuyseiOkqVYHLSuH7fLc6nCwrYPGMy2FvL63CD8RujUzBR",
    "MB0GA1UdDgQWBBT9W7aPP+babGNR9ZUQuG0YwQxyPDAfBgNVHSMEGDAWgBT9W7aP",
    "P+babGNR9ZUQuG0YwQxyPDAPBgNVHRMBAf8EBTADAQH/MAUGAytlcANBACbB2Aso",
    "CWMA4AGfvoZ4oxaJQaTGVGFhexVisUmAnsrheWktogahHGzRIjhbYphE0BWn0Zw1",
    "jld1MpOEDfA2iAU=",
    "-----END CERTIFICATE-----"]

theorem testDigest_length : testDigest.length = 32 := by
  decide +kernel

theorem chains_ne_nil : testChain ≠ [] ∧ otherChain ≠ [] := by
  decide +kernel

theorem recorded_ne :
    testChain ≠ otherChain ∧ testCertificate ≠ otherCertificate := by
  decide +kernel

/-- The decoder and the signatures of the test token. -/
@[reducible] def recordedCms : Cms where
  timeStampResp _ := none
  contentInfo bytes :=
    if bytes = testToken then
      some { contentType := idSignedDataOctets, content := testContent }
    else none
  asn1SignedData bytes :=
    if bytes = testContent then .ok { der := testContent } else .error []
  tryFrom inner :=
    if inner = { der := testContent } then .ok testSignedData else .error []
  signedContent signedData signer :=
    if signedData = testSignedData ∧ signer = testSigner then testAttributes
    else []
  verifySignature signedData signer signedContent :=
    if signedData = testSignedData ∧ signer = testSigner ∧
        signedContent = testAttributes then .ok ()
    else .error []
  verifyMessageDigest signedData signer :=
    if signedData = testSignedData ∧ signer = testSigner then .ok ()
    else .error []
  tstInfo bytes :=
    if bytes = testTstInfo then .ok { hashedMessage := testDigest }
    else .error []
  debugOid _ := []

def testX509 : X509Certificate where
  der := testCertificate
  subject := "CN=TrustLayer Test TSA".toList
  basicConstraints := .ok (some false)
  extensions := [
    { oid := oidX509ExtExtendedKeyUsage, timeStamping := some true },
    { oid := [0x55, 0x1d, 0x13], timeStamping := none }]

def otherX509 : X509Certificate where
  der := otherCertificate
  subject := "CN=Other CA".toList
  basicConstraints := .ok (some true)
  extensions := [
    { oid := [0x55, 0x1d, 0x0e], timeStamping := none },
    { oid := [0x55, 0x1d, 0x23], timeStamping := none },
    { oid := [0x55, 0x1d, 0x13], timeStamping := none }]

/-- The two chain files, of one certificate each. -/
@[reducible] def recordedX509 : X509 where
  parseX509Pem bytes :=
    if bytes = testChain then .ok ([], { contents := testCertificate })
    else if bytes = otherChain then .ok ([], { contents := otherCertificate })
    else .error []
  parseX509 pem :=
    if pem.contents = testCertificate then .ok testX509
    else if pem.contents = otherCertificate then .ok otherX509
    else .error []
  consumes := by
    intro bytes next pem parsed
    split_ifs at parsed with test other
    · obtain ⟨rfl, -⟩ := Prod.mk.inj (Except.ok.inj parsed)
      rw [test]
      exact List.length_pos_iff.mpr chains_ne_nil.1
    · obtain ⟨rfl, -⟩ := Prod.mk.inj (Except.ok.inj parsed)
      rw [other]
      exact List.length_pos_iff.mpr chains_ne_nil.2

theorem recorded_extract :
    @extractSignedData recordedCms testToken = .ok testSignedData :=
  @extractSignedData_of_contentInfo recordedCms _ _ _ _ rfl (if_pos rfl) rfl
    (if_pos rfl) (if_pos rfl)

/-- Whatever the chain, the token is accepted when it validates. -/
theorem recorded_accepted {chainPem : List UInt8}
    (validated : @validateChainPem recordedX509 chainPem = .ok ()) :
    @verifyStrictWithCerts recordedCms recordedX509 testToken testDigest
      chainPem = .ok () := by
  have signer : @SignerHolds recordedCms testSignedData testSigner := by
    have content : recordedCms.signedContent testSignedData testSigner =
        testAttributes := if_pos ⟨rfl, rfl⟩
    apply @SignerHolds.mk recordedCms
    · rw [content]
      exact if_pos ⟨rfl, rfl, rfl⟩
    · exact if_pos ⟨rfl, rfl⟩
    · rfl
  apply (@verifyStrictWithCerts_eq_ok_iff recordedCms recordedX509 _ _ _).mpr
  refine ⟨testDigest_length, testSignedData, recorded_extract, validated,
    (@checkSigners_eq_ok_iff recordedCms _ _).mpr ?_,
    (@checkImprint_eq_ok_iff recordedCms _ _).mpr ?_⟩
  · intro other member
    obtain rfl := List.mem_singleton.mp member
    exact signer
  · exact ⟨testTstInfo, rfl, { hashedMessage := testDigest }, if_pos rfl, rfl⟩

/-- Each chain file is one block. -/
theorem recorded_chain {chainPem : List UInt8} {pem : Pem}
    {cert : X509Certificate} (nonempty : chainPem ≠ [])
    (block : recordedX509.parseX509Pem chainPem = .ok ([], pem))
    (parsed : recordedX509.parseX509 pem = .ok cert)
    (usable : isCa cert = true ∨
      hasTimeStampingExtendedKeyUsage cert = true) :
    @Chain recordedX509 chainPem [cert] := by
  apply @Chain.cons recordedX509 _ _ _ _ _ nonempty block parsed usable
  have rest : behind chainPem [] = [] := by
    simp [behind]
  rw [rest]
  exact @Chain.nil recordedX509

theorem testChain_chain : @Chain recordedX509 testChain [testX509] :=
  recorded_chain chains_ne_nil.1 (if_pos rfl) (if_pos rfl)
    (Or.inr (by decide))

theorem otherChain_chain : @Chain recordedX509 otherChain [otherX509] :=
  recorded_chain chains_ne_nil.2
    ((if_neg recorded_ne.1.symm).trans (if_pos rfl))
    ((if_neg recorded_ne.2.symm).trans (if_pos rfl)) (Or.inl rfl)

@[irreducible] def testKey : List UInt8 :=
  bytesOf [
    "0411cd3b17c020a95a5dc60feaacf50738f55694d52fe1ca5f0d9c040a7418336d",
    "9bad48fdb273ffb72424b70cbb5db07ad3cc493b0a60e797723f3f1e8cfcf136"]

@[irreducible] def otherKey : List UInt8 :=
  bytesOf ["d4a7aecac7a23a4a956072d2b87edf2dcea70b0ad83c6332d85bcbeb7083f11b"]

theorem keys_ne : otherKey ≠ testKey := by
  decide +kernel

/-- The two certificates, both of them self-signed; the first is named by the
signer of the test token, which its key signed. -/
def recordedPki : Pki (List UInt8) where
  identifies signer certificate :=
    decide (signer = testSigner ∧ certificate = testCertificate)
  keyOf certificate :=
    if certificate = testCertificate then testKey
    else if certificate = otherCertificate then otherKey
    else []
  signedWith signer := if signer = testSigner then some testKey else none
  IssuedBy issuer certificate := issuer = certificate

theorem recorded_named : @VerifiesNamed recordedCms _ recordedPki := by
  intro signedData signer signedContent verified
  change (if _ then _ else _) = _ at verified
  split_ifs at verified with recorded
  obtain ⟨rfl, rfl, -⟩ := recorded
  refine ⟨testCertificate, ?_, ?_⟩
  · exact List.find?_cons_of_pos (decide_eq_true ⟨rfl, rfl⟩)
  · exact (if_pos rfl).trans (congrArg some (if_pos rfl).symm)

end TrustLayer.CmsVerify
