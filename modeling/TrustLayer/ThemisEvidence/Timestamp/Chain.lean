import TrustLayer.ThemisEvidence.Timestamp.RsaSignature

/-!
# The search for a trusted root

The first root with the name of the issuer decides.  Another one behind it is
not asked, whether the first verifies the signer or not.
-/

namespace TrustLayer.ThemisEvidence.Timestamp

open TrustLayer.Library

/-- A distinguished name, by its encoding. -/
structure Name where
  der : List UInt8
  deriving DecidableEq

/-- What is read of a certificate. The encoding of the signed part may fail, and
a bit string may not be one of bytes. -/
structure Certificate where
  issuer : Name
  subject : Name
  spkiOid : Str
  publicKey : Option (List UInt8)
  tbsDer : Except Str (List UInt8)
  signature : Option (List UInt8)
  signatureOid : Str
  deriving DecidableEq

/-- The two checks of a signature under the key of a root. -/
structure Checks where
  rsa : (root : Certificate) → (tbsDer sigBytes : List UInt8) →
    (sigAlgOid : Str) → Call TimestampError Unit
  ecdsaP384 : (rootPkBytes tbsDer sigBytes : List UInt8) →
    (sigAlgOid : Str) → Call TimestampError Unit

def rsaEncryption : Str := "1.2.840.113549.1.1.1".toList

def idEcPublicKey : Str := "1.2.840.10045.2.1".toList

def checkEcKey (checks : Checks) (root : Certificate)
    (tbsDer sigBytes : List UInt8) (sigAlgOid : Str) :
    Call TimestampError Unit :=
  match root.publicKey with
  | none => .error (.error (.x509 "root key not BIT STRING".toList))
  | some rootPkBytes =>
      if rootPkBytes.length ≠ 97 ∨ rootPkBytes.head? ≠ some 0x04 then
        .error (.error (.chainInvalid
          ("root EC key is not a 97-byte SEC1 uncompressed point: got ".toList ++
            (toString rootPkBytes.length).toList ++ " bytes".toList)))
      else checks.ecdsaP384 rootPkBytes tbsDer sigBytes sigAlgOid

/-- The signature of the signer under the key of the root. -/
def checkRoot (checks : Checks) (signer root : Certificate) :
    Call TimestampError Unit :=
  match signer.tbsDer with
  | .error text => .error (.error
      (.x509 ("encode tbsCertificate: ".toList ++ text)))
  | .ok tbsDer =>
      let sigBytes := signer.signature.getD []
      if root.spkiOid = rsaEncryption then
        checks.rsa root tbsDer sigBytes signer.signatureOid
      else if root.spkiOid = idEcPublicKey then
        checkEcKey checks root tbsDer sigBytes signer.signatureOid
      else
        .error (.error (.chainInvalid
          ("unsupported root public key OID: ".toList ++ root.spkiOid)))

/-- The search; names are shown as the certificate crate does. -/
def verifyChain (showName : Name → Str) (checks : Checks)
    (signer : Certificate) (trustedRoots : List Certificate) :
    Call TimestampError Unit :=
  match trustedRoots with
  | [] =>
      .error (.error (.chainInvalid ("no root matches signer.issuer (".toList ++
        showName signer.issuer ++ ")".toList)))
  | root :: rest =>
      if signer.issuer ≠ root.subject then
        verifyChain showName checks signer rest
      else checkRoot checks signer root

/-! ## The checks of the code -/

section

structure VerifyingKey where
  sec1 : List UInt8
  deriving DecidableEq

/-- The keys of the `p384` crate. -/
class P384Keys where
  fromSec1Bytes : List UInt8 → Except Str VerifyingKey
  verifyPrehash : VerifyingKey → (digest : List UInt8) → Signature →
    Except Str Unit

variable [Sha2] [P384] [P384Keys]

def ecdsaDigest (sigAlgOid : Str) (tbsDer : List UInt8) :
    Option (List UInt8) :=
  if sigAlgOid = "1.2.840.10045.4.3.4".toList then
    some (Sha2.sha512 tbsDer).toList
  else if sigAlgOid = "1.2.840.10045.4.3.3".toList then
    some (Sha2.sha384 tbsDer).toList
  else if sigAlgOid = "1.2.840.10045.4.3.2".toList then
    some (Sha2.sha256 tbsDer).toList
  else none

/-- `{e}` of an error. -/
def TimestampError.text : TimestampError → Str
  | .asn1 text => "ASN.1 parse error: ".toList ++ text
  | .cms text => "CMS structure error: ".toList ++ text
  | .x509 text => "X.509 parse error: ".toList ++ text
  | .hashMismatch expectedHex gotHex => "TSTInfo hash mismatch: expected ".toList ++
      expectedHex ++ ", got ".toList ++ gotHex
  | .signerCertMissing =>
      "signer certificate not found in trust list or CMS".toList
  | .chainInvalid text =>
      "signer certificate not issued by trusted root: ".toList ++ text
  | .signatureInvalid text =>
      "CMS signature verification failed: ".toList ++ text
  | .essBindingFailed text =>
      "ESS SigningCertificate binding failed: ".toList ++ text

def verifyChainEcdsaP384 (profile : Profile)
    (rootPkBytes tbsDer sigBytes : List UInt8) (sigAlgOid : Str) :
    Call TimestampError Unit :=
  match P384Keys.fromSec1Bytes rootPkBytes with
  | .error text => .error (.error (.x509 ("p384 root: ".toList ++ text)))
  | .ok verifyingKey => do
      let sig ← (derToEcdsaP384Signature profile sigBytes).mapError fun error =>
        .chainInvalid ("decode root sig: ".toList ++ error.text)
      match ecdsaDigest sigAlgOid tbsDer with
      | none => .error (.error (.chainInvalid
          ("unsupported ECDSA sig alg: ".toList ++ sigAlgOid)))
      | some digest =>
          match P384Keys.verifyPrehash verifyingKey digest sig with
          | .error text => .error (.error (.chainInvalid
              ("root sig over signer TBS: ".toList ++ text)))
          | .ok () => return ()

def codeChecks (profile : Profile) : Checks where
  rsa root := verifyChainRsa profile root.publicKey
  ecdsaP384 := verifyChainEcdsaP384 profile

end

/-! ## What the search finds -/

variable {showName : Name → Str} {checks : Checks} {signer root : Certificate}
  {roots : List Certificate}

abbrev Issues (root signer : Certificate) : Prop :=
  signer.issuer = root.subject

/-- The key of the root verifies the signature of the signer. -/
abbrev Verifies (checks : Checks) (signer root : Certificate) : Prop :=
  checkRoot checks signer root = .ok ()

/-- Some root issues the signer and verifies it. -/
def HasRoot (checks : Checks) (signer : Certificate)
    (roots : List Certificate) : Prop :=
  ∃ root ∈ roots, Issues root signer ∧ Verifies checks signer root

abbrev Accepted (showName : Name → Str) (checks : Checks)
    (signer : Certificate) (roots : List Certificate) : Prop :=
  verifyChain showName checks signer roots = .ok ()

theorem verifyChain_of_issues (issues : Issues root signer) :
    verifyChain showName checks signer (root :: roots) =
      checkRoot checks signer root := by
  rw [verifyChain, if_neg (not_not.mpr issues)]

theorem verifyChain_of_not_issues (other : ¬ Issues root signer) :
    verifyChain showName checks signer (root :: roots) =
      verifyChain showName checks signer roots := by
  rw [verifyChain, if_pos other]

/-- The first root that issues the signer. -/
def firstIssuer (signer : Certificate) (roots : List Certificate) :
    Option Certificate :=
  roots.find? fun root => signer.issuer = root.subject

theorem accepted_iff_firstIssuer : Accepted showName checks signer roots ↔
    ∃ first, firstIssuer signer roots = some first ∧
      Verifies checks signer first := by
  induction roots with
  | nil => simp [Accepted, verifyChain, firstIssuer]
  | cons root roots inductionHypothesis =>
      by_cases issues : Issues root signer
      · rw [Accepted, verifyChain_of_issues issues, firstIssuer,
          List.find?_cons_of_pos (by simpa using issues)]
        simp
      · rw [Accepted, verifyChain_of_not_issues issues, firstIssuer,
          List.find?_cons_of_neg (by simpa using issues)]
        exact inductionHypothesis

theorem firstIssuer_some {first : Certificate}
    (found : firstIssuer signer roots = some first) :
    first ∈ roots ∧ Issues first signer :=
  ⟨List.mem_of_find?_eq_some found, by simpa using List.find?_some found⟩

/-- An acceptance is by a root of the list. -/
theorem hasRoot_of_accepted (accepted : Accepted showName checks signer roots) :
    HasRoot checks signer roots := by
  obtain ⟨first, found, verifies⟩ := accepted_iff_firstIssuer.mp accepted
  obtain ⟨member, issues⟩ := firstIssuer_some found
  exact ⟨first, member, issues, verifies⟩

theorem HasRoot.firstIssuer (hasRoot : HasRoot checks signer roots) :
    ∃ first, firstIssuer signer roots = some first := by
  obtain ⟨root, member, issues, -⟩ := hasRoot
  rw [← Option.isSome_iff_exists, Timestamp.firstIssuer, List.find?_isSome]
  exact ⟨root, member, by simpa using issues⟩

/-- Where a root of the issuer's name verifies, the first of that name does. -/
def FirstDecides (checks : Checks) (signer : Certificate)
    (roots : List Certificate) : Prop :=
  ∀ first, firstIssuer signer roots = some first →
    HasRoot checks signer roots → Verifies checks signer first

theorem accepted_iff_hasRoot_iff :
    (Accepted showName checks signer roots ↔ HasRoot checks signer roots) ↔
      FirstDecides checks signer roots := by
  constructor
  · intro exactly first found hasRoot
    obtain ⟨other, also, verifies⟩ :=
      accepted_iff_firstIssuer.mp (exactly.mpr hasRoot)
    obtain rfl := Option.some.inj (found.symm.trans also)
    exact verifies
  · intro decides
    refine ⟨hasRoot_of_accepted, fun hasRoot => ?_⟩
    obtain ⟨first, found⟩ := hasRoot.firstIssuer
    exact accepted_iff_firstIssuer.mpr
      ⟨first, found, decides first found hasRoot⟩

/-- With the checks of the code no root with an RSA key verifies anything. -/
theorem not_verifies_rsaRoot [Sha2] [P384] [P384Keys] (profile : Profile)
    {n e : Nat} (algorithm : root.spkiOid = rsaEncryption)
    (key : root.publicKey = some (rsaPublicKeyDer n e))
    (bounded : (rsaPublicKeyDer n e).length < 2 ^ 63) :
    ¬ Verifies (codeChecks profile) signer root := by
  intro verifies
  unfold Verifies checkRoot at verifies
  split at verifies
  next => cases verifies
  next tbsDer _ =>
    simp only [if_pos algorithm, codeChecks, key] at verifies
    cases found : digestInfo signer.signatureOid tbsDer with
    | none =>
        unfold verifyChainRsa at verifies
        simp only [found] at verifies
        cases verifies
    | some info => exact not_accepted_rsaPublicKeyDer found bounded verifies

/-! ## Other orders -/

/-- The roots that issue the signer verify it, or none of them does. -/
def IssuersAgree (checks : Checks) (signer : Certificate)
    (roots : List Certificate) : Prop :=
  ∀ left ∈ roots, ∀ right ∈ roots, Issues left signer → Issues right signer →
    Verifies checks signer left → Verifies checks signer right

theorem HasRoot.mono {other : List Certificate} (within : roots ⊆ other)
    (hasRoot : HasRoot checks signer roots) : HasRoot checks signer other := by
  obtain ⟨root, member, issuing⟩ := hasRoot
  exact ⟨root, within member, issuing⟩

theorem IssuersAgree.firstDecides (agree : IssuersAgree checks signer roots) :
    FirstDecides checks signer roots := by
  rintro first found ⟨root, member, issues, verifies⟩
  obtain ⟨firstMember, firstIssues⟩ := firstIssuer_some found
  exact agree root member first firstMember issues firstIssues verifies

theorem IssuersAgree.perm {other : List Certificate} (same : other.Perm roots)
    (agree : IssuersAgree checks signer roots) :
    IssuersAgree checks signer other :=
  fun left leftMember right rightMember =>
    agree left (same.subset leftMember) right (same.subset rightMember)

theorem accepted_perm_iff :
    (∀ other, other.Perm roots → (Accepted showName checks signer other ↔
      Accepted showName checks signer roots)) ↔
        IssuersAgree checks signer roots := by
  constructor
  · intro invariant left leftMember right rightMember leftIssues rightIssues
      leftVerifies
    -- either of the two may be the first
    have leftFirst := invariant _ (List.perm_cons_erase leftMember).symm
    have rightFirst := invariant _ (List.perm_cons_erase rightMember).symm
    have accepted := leftFirst.trans rightFirst.symm
    rw [Accepted, verifyChain_of_issues leftIssues, Accepted,
      verifyChain_of_issues rightIssues] at accepted
    exact accepted.mp leftVerifies
  · intro agree other same
    rw [accepted_iff_hasRoot_iff.mpr (agree.perm same).firstDecides,
      accepted_iff_hasRoot_iff.mpr agree.firstDecides]
    exact ⟨HasRoot.mono same.subset, HasRoot.mono same.symm.subset⟩

/-- The search finds a root where the first of the issuer's name verifies.  All
orders have one outcome where the roots of that name agree, and more roots keep
an acceptance where the first of that name verifies among them as well. -/
theorem verifyChain_order (showName : Name → Str) (checks : Checks)
    (signer : Certificate) (roots : List Certificate) :
    ((Accepted showName checks signer roots ↔ HasRoot checks signer roots) ↔
      FirstDecides checks signer roots) ∧
    ((∀ other, other.Perm roots → (Accepted showName checks signer other ↔
      Accepted showName checks signer roots)) ↔
        IssuersAgree checks signer roots) ∧
    ∀ other, roots ⊆ other → FirstDecides checks signer other →
      Accepted showName checks signer roots →
        Accepted showName checks signer other := by
  refine ⟨accepted_iff_hasRoot_iff, accepted_perm_iff, ?_⟩
  intro other within decides accepted
  exact (accepted_iff_hasRoot_iff.mpr decides).mpr
    ((hasRoot_of_accepted accepted).mono within)

/-! ## A root with a new key -/

/-- Only a root with this key verifies. -/
def keyChecks (key : List UInt8) : Checks where
  rsa root _ _ _ :=
    if root.publicKey = some key then .ok ()
    else .error (.error (.chainInvalid
      "RSA chain: signature does not match expected DigestInfo".toList))
  ecdsaP384 _ _ _ _ := .ok ()

def sampleSigner : Certificate where
  issuer := ⟨[1]⟩
  subject := ⟨[2]⟩
  spkiOid := rsaEncryption
  publicKey := none
  tbsDer := .ok []
  signature := none
  signatureOid := "1.2.840.113549.1.1.11".toList

def rootWith (key : List UInt8) : Certificate where
  issuer := ⟨[1]⟩
  subject := ⟨[1]⟩
  spkiOid := rsaEncryption
  publicKey := some key
  tbsDer := .ok []
  signature := none
  signatureOid := "1.2.840.113549.1.1.11".toList

/-- The root that verifies stays the first when another is put behind it. -/
theorem newRoot_behind :
    Accepted (fun _ => []) (keyChecks [7]) sampleSigner
      [rootWith [7], rootWith [8]] := by
  refine (verifyChain_order (fun _ => []) (keyChecks [7]) sampleSigner
    [rootWith [7]]).2.2 _ (by simp) ?_ (by decide)
  intro first found _
  obtain rfl := Option.some.inj found
  decide

theorem newRoot_before :
    Accepted (fun _ => []) (keyChecks [7]) sampleSigner [rootWith [7]] ∧
      HasRoot (keyChecks [7]) sampleSigner [rootWith [8], rootWith [7]] ∧
        ¬ Accepted (fun _ => []) (keyChecks [7]) sampleSigner
          [rootWith [8], rootWith [7]] := by
  refine ⟨by decide, ⟨rootWith [7], by simp, by decide, by decide⟩, by decide⟩

end TrustLayer.ThemisEvidence.Timestamp
