import TrustLayer.Library.Base64
import TrustLayer.Library.Unicode
import TrustLayer.ThemisEvidence.Signer

/-!
# Hybrid signatures

A proof is an Ed25519 signature and an ML-DSA-65 signature of the same bytes,
with a tilde between their texts.  A key pair that is made of a public key alone
has the signing key of the zero seed.
-/

namespace TrustLayer.TlEvidence

open TrustLayer.Library
open TrustLayer.Library.Base64
open TrustLayer.ThemisEvidence (Signing)
open TrustLayer.TlVerify (Crates Seed VerifyingKey number)

def mlDsa65PublicKeyLen : Nat := 1952

def mlDsa65SignatureLen : Nat := 3309

def hybridSep : Char := '~'

def trustlayerHybridContext : List UInt8 :=
  utf8Bytes "trustlayer-v3.0-hybrid-ed25519-mldsa65-jcs-2026".toList

/-- The `ml-dsa` crate.  A signing key is known by its seed, and the text is the
debug text of the error. -/
class MlDsa where
  VerifyingKey : Type
  Signature : Type
  verifyingKey : Seed → VerifyingKey
  decodeKey : List UInt8 → VerifyingKey
  signDeterministic :
    Seed → (message context : List UInt8) → Except Str Signature
  verifyWithContext :
    VerifyingKey → (message context : List UInt8) → Signature → Bool
  encode : Signature → Vector UInt8 3309
  decode : List UInt8 → Option Signature

/-- The text of an error of the `base64` crate. -/
class Base64Texts where
  decodeError : Str → Str

/-! ## ML-DSA-65 -/

inductive MlDsa65VerifyError where
  | invalidSignature
  | invalidSignatureLength (expected actual : Nat)
  | invalidPublicKeyLength (expected actual : Nat)
  | signingFailed (detail : Str)
  | contextTooLong (length : Nat)
  deriving DecidableEq

/-- `{:?}` of an error. -/
def MlDsa65VerifyError.debug [UnicodeTables] : MlDsa65VerifyError → Str
  | .invalidSignature => "InvalidSignature".toList
  | .invalidSignatureLength expected actual =>
      "InvalidSignatureLength \x7b expected: ".toList ++ number expected ++
        ", actual: ".toList ++ number actual ++ " \x7d".toList
  | .invalidPublicKeyLength expected actual =>
      "InvalidPublicKeyLength \x7b expected: ".toList ++ number expected ++
        ", actual: ".toList ++ number actual ++ " \x7d".toList
  | .signingFailed detail =>
      "SigningFailed(".toList ++ debugStr detail ++ ")".toList
  | .contextTooLong length =>
      "ContextTooLong(".toList ++ number length ++ ")".toList

/-! ## The text of two halves -/

def proofText (ed pq : List UInt8) : Str :=
  urlsafeUnpadded ed ++ hybridSep :: urlsafeUnpadded pq

/-- The signatures that are in a text. -/
def signaturePair (text : Str) : Option (List UInt8 × List UInt8) := do
  let (edB64, pqB64) ← splitFirst [hybridSep] text
  let ed ← decodeUrlSafeNoPad edB64
  let pq ← decodeUrlSafeNoPad pqB64
  return (ed, pq)

theorem splitFirst_proofText (ed pq : List UInt8) :
    splitFirst [hybridSep] (proofText ed pq) =
      some (urlsafeUnpadded ed, urlsafeUnpadded pq) :=
  splitFirst_eq_some_iff.mpr ⟨tilde_notMem_urlsafeUnpadded ed, rfl⟩

theorem signaturePair_proofText (ed pq : List UInt8) :
    signaturePair (proofText ed pq) = some (ed, pq) := by
  simp [signaturePair, splitFirst_proofText,
    decodeUrlSafeNoPad_urlsafeUnpadded]

/-! ## Key pairs -/

section

variable [MlDsa]

structure MlDsa65KeyPair where
  signingKey : Seed
  verifyingKey : MlDsa.VerifyingKey

structure MlDsa65Signature where
  inner : MlDsa.Signature

/-- The seed of the placeholder. -/
def defaultSeed : Seed :=
  Vector.replicate 32 0

namespace MlDsa65KeyPair

def fromSeed (seed : Seed) : MlDsa65KeyPair :=
  { signingKey := seed, verifyingKey := MlDsa.verifyingKey seed }

def publicOnly (publicKeyBytes : List UInt8) :
    Except MlDsa65VerifyError MlDsa65KeyPair :=
  if publicKeyBytes.length ≠ mlDsa65PublicKeyLen then
    .error (.invalidSignatureLength mlDsa65PublicKeyLen
      publicKeyBytes.length)
  else
    .ok { signingKey := defaultSeed
          verifyingKey := MlDsa.decodeKey publicKeyBytes }

def sign (pair : MlDsa65KeyPair) (message context : List UInt8) :
    Except MlDsa65VerifyError MlDsa65Signature :=
  if context.length > 255 then .error (.contextTooLong context.length)
  else
    match MlDsa.signDeterministic pair.signingKey message context with
    | .error detail => .error (.signingFailed detail)
    | .ok inner => .ok { inner }

def verify (pair : MlDsa65KeyPair) (message context : List UInt8)
    (signature : MlDsa65Signature) : Except MlDsa65VerifyError Unit :=
  if MlDsa.verifyWithContext pair.verifyingKey message context
      signature.inner then .ok ()
  else .error .invalidSignature

end MlDsa65KeyPair

namespace MlDsa65Signature

def toBytes (signature : MlDsa65Signature) : List UInt8 :=
  (MlDsa.encode signature.inner).toList

def fromBytes (bytes : List UInt8) :
    Except MlDsa65VerifyError MlDsa65Signature :=
  if bytes.length ≠ mlDsa65SignatureLen then
    .error (.invalidSignatureLength mlDsa65SignatureLen bytes.length)
  else
    match MlDsa.decode bytes with
    | none => .error .invalidSignature
    | some inner => .ok { inner }

end MlDsa65Signature

/-! ## The two halves -/

inductive HybridSignatureError where
  | missingSeparator
  | emptyEd25519Half
  | emptyMlDsa65Half
  | ed25519Base64Error (detail : Str)
  | mlDsa65Base64Error (detail : Str)
  | mlDsa65WrongLength (expected actual : Nat)
  | ed25519VerifyFailed
  | mlDsa65VerifyFailed
  deriving DecidableEq

/-- A pair that fails to sign panics with its error. -/
def hybridSign [Signing] (ed25519Private : Seed) (mldsa65 : MlDsa65KeyPair)
    (jcsBytes : List UInt8) : Except MlDsa65VerifyError Str := do
  let edSig := Signing.sign ed25519Private jcsBytes
  let pqSig ← mldsa65.sign jcsBytes trustlayerHybridContext
  let edB64 := urlsafeUnpadded edSig.toList
  let pqB64 := urlsafeUnpadded pqSig.toBytes
  return edB64 ++ hybridSep :: pqB64

section

variable [Base64Texts]

/-- `URL_SAFE_NO_PAD.decode`. -/
def urlDecode (text : Str) : Except Str (List UInt8) :=
  match decodeUrlSafeNoPad text with
  | none => .error (Base64Texts.decodeError text)
  | some bytes => .ok bytes

def decodeEd25519Half (edB64 : Str) :
    Except HybridSignatureError (List UInt8) := do
  let edBytes ← (urlDecode edB64).mapError .ed25519Base64Error
  if edBytes.length ≠ 64 then
    .error (.ed25519Base64Error
      ("expected 64 bytes, got ".toList ++ number edBytes.length))
  else .ok edBytes

variable [UnicodeTables]

def decodeMlDsa65Half (pqB64 : Str) :
    Except HybridSignatureError MlDsa65Signature := do
  let pqBytes ← (urlDecode pqB64).mapError .mlDsa65Base64Error
  if pqBytes.length ≠ mlDsa65SignatureLen then
    .error (.mlDsa65WrongLength mlDsa65SignatureLen pqBytes.length)
  else
    (MlDsa65Signature.fromBytes pqBytes).mapError fun error =>
      .mlDsa65Base64Error error.debug

def hybridVerify [Crates] (ed25519Public : VerifyingKey)
    (mldsa65Public : MlDsa65KeyPair) (jcsBytes : List UInt8)
    (proofValue : Str) : Except HybridSignatureError Unit :=
  match splitFirst [hybridSep] proofValue with
  | none => .error .missingSeparator
  | some (edB64, pqB64) =>
      if edB64 = [] then .error .emptyEd25519Half
      else if pqB64 = [] then .error .emptyMlDsa65Half
      else do
        let edSig ← decodeEd25519Half edB64
        let pqSig ← decodeMlDsa65Half pqB64
        if Crates.verify ed25519Public jcsBytes edSig = false then
          .error .ed25519VerifyFailed
        else
          (mldsa65Public.verify jcsBytes trustlayerHybridContext
            pqSig).mapError fun _ => .mlDsa65VerifyFailed

end

/-! ## What is accepted -/

section

variable [Base64Texts] [UnicodeTables]

omit [MlDsa] [UnicodeTables] in
theorem decodeEd25519Half_eq_ok_iff {edB64 : Str} {ed : List UInt8} :
    decodeEd25519Half edB64 = .ok ed ↔
      edB64 = urlsafeUnpadded ed ∧ ed.length = 64 := by
  rw [← decodeUrlSafeNoPad_eq_some_iff, decodeEd25519Half, urlDecode]
  cases read : decodeUrlSafeNoPad edB64 with
  | none => simp [Except.mapError, bind, Except.bind]
  | some bytes =>
      simp only [Except.mapError, bind, Except.bind, Option.some.injEq]
      split_ifs with length
      · constructor
        · exact nofun
        · rintro ⟨rfl, whole⟩
          exact absurd whole length
      · constructor
        · intro same
          obtain rfl := Except.ok.inj same
          exact ⟨rfl, not_not.mp length⟩
        · rintro ⟨rfl, -⟩
          rfl

theorem decodeMlDsa65Half_eq_ok_iff {pqB64 : Str}
    {signature : MlDsa65Signature} :
    decodeMlDsa65Half pqB64 = .ok signature ↔
      ∃ pq, pqB64 = urlsafeUnpadded pq ∧ pq.length = 3309 ∧
        MlDsa.decode pq = some signature.inner := by
  simp only [← decodeUrlSafeNoPad_eq_some_iff]
  rw [decodeMlDsa65Half, urlDecode]
  cases read : decodeUrlSafeNoPad pqB64 with
  | none => simp [Except.mapError, bind, Except.bind]
  | some bytes =>
      simp only [Except.mapError, bind, Except.bind, Option.some.injEq,
        MlDsa65Signature.fromBytes]
      split_ifs with length
      · constructor
        · exact nofun
        · rintro ⟨pq, rfl, whole, -⟩
          exact absurd whole length
      · cases decoded : MlDsa.decode bytes with
        | none =>
            constructor
            · exact nofun
            · rintro ⟨pq, rfl, -, found⟩
              rw [decoded] at found
              cases found
        | some inner =>
            constructor
            · intro same
              obtain rfl := Except.ok.inj same
              exact ⟨bytes, rfl, not_not.mp length, decoded⟩
            · rintro ⟨pq, rfl, -, found⟩
              rw [decoded] at found
              obtain rfl := Option.some.inj found
              rfl

variable [Crates]

/-- Each half is a signature of the message. -/
structure HalvesVerify (key : VerifyingKey) (pair : MlDsa65KeyPair)
    (jcsBytes ed pq : List UInt8) : Prop where
  edLength : ed.length = 64
  pqLength : pq.length = 3309
  edVerifies : Crates.verify key jcsBytes ed = true
  pqVerifies : ∃ signature, MlDsa.decode pq = some signature ∧
    MlDsa.verifyWithContext pair.verifyingKey jcsBytes trustlayerHybridContext
      signature = true

/-- A text is accepted where it has two halves that verify. -/
theorem hybridVerify_eq_ok_iff {key : VerifyingKey} {pair : MlDsa65KeyPair}
    {jcsBytes : List UInt8} {text : Str} :
    hybridVerify key pair jcsBytes text = .ok () ↔
      ∃ ed pq, text = proofText ed pq ∧ HalvesVerify key pair jcsBytes ed pq := by
  constructor
  · intro accepted
    unfold hybridVerify at accepted
    cases split : splitFirst [hybridSep] text with
    | none =>
        rw [split] at accepted
        cases accepted
    | some halves =>
        obtain ⟨edB64, pqB64⟩ := halves
        obtain ⟨-, rfl⟩ := splitFirst_eq_some_iff.mp split
        rw [split] at accepted
        simp only at accepted
        split_ifs at accepted with edEmpty pqEmpty
        cases edRead : decodeEd25519Half edB64 with
        | error error =>
            rw [edRead] at accepted
            cases accepted
        | ok ed =>
            cases pqRead : decodeMlDsa65Half pqB64 with
            | error error =>
                rw [edRead, pqRead] at accepted
                cases accepted
            | ok signature =>
                rw [edRead, pqRead] at accepted
                obtain ⟨rfl, edLength⟩ := decodeEd25519Half_eq_ok_iff.mp edRead
                obtain ⟨pq, rfl, pqLength, decoded⟩ :=
                  decodeMlDsa65Half_eq_ok_iff.mp pqRead
                simp only [bind, Except.bind, MlDsa65KeyPair.verify] at accepted
                split_ifs at accepted with edRefused pqVerifies
                · exact ⟨ed, pq, rfl, edLength, pqLength, by simpa using edRefused,
                    signature.inner, decoded, pqVerifies⟩
                · cases accepted
  · rintro ⟨ed, pq, rfl, halves⟩
    obtain ⟨signature, decoded, pqVerifies⟩ := halves.pqVerifies
    have edNonempty : ed ≠ [] := by
      rintro rfl
      cases halves.edLength
    have pqNonempty : pq ≠ [] := by
      rintro rfl
      cases halves.pqLength
    have edRead := decodeEd25519Half_eq_ok_iff.mpr ⟨rfl, halves.edLength⟩
    have pqRead : decodeMlDsa65Half (urlsafeUnpadded pq) = .ok ⟨signature⟩ :=
      decodeMlDsa65Half_eq_ok_iff.mpr ⟨pq, rfl, halves.pqLength, decoded⟩
    rw [hybridVerify, splitFirst_proofText]
    simp only [if_neg (urlsafeUnpadded_ne_nil edNonempty),
      if_neg (urlsafeUnpadded_ne_nil pqNonempty), edRead, pqRead, bind,
      Except.bind, halves.edVerifies, Bool.true_eq_false, if_false,
      MlDsa65KeyPair.verify, pqVerifies, if_true, Except.mapError]

/-! ## The pairs of the constructors -/

/-- What a pair is made of. -/
inductive Origin where
  | fromSeed (seed : Seed)
  | publicOnly (bytes : List UInt8)
  deriving DecidableEq

def Origin.pair : Origin → Except MlDsa65VerifyError MlDsa65KeyPair
  | .fromSeed seed => .ok (MlDsa65KeyPair.fromSeed seed)
  | .publicOnly bytes => MlDsa65KeyPair.publicOnly bytes

/-- A public key is the one of the placeholder. -/
def Origin.Matches : Origin → Prop
  | .fromSeed _ => True
  | .publicOnly bytes => MlDsa.decodeKey bytes = MlDsa.verifyingKey defaultSeed

omit [Base64Texts] [UnicodeTables] [Crates] in
theorem Origin.matches_iff {origin : Origin} {pair : MlDsa65KeyPair}
    (made : origin.pair = .ok pair) :
    origin.Matches ↔
      pair.verifyingKey = MlDsa.verifyingKey pair.signingKey := by
  cases origin with
  | fromSeed seed =>
      obtain rfl := Except.ok.inj made
      exact iff_of_true trivial rfl
  | publicOnly bytes =>
      rw [Origin.pair, MlDsa65KeyPair.publicOnly] at made
      split_ifs at made
      obtain rfl := Except.ok.inj made
      rfl

variable [Signing]

/-- What is relied on of the primitives: a seed signs whatever it is given, and
its signature is read back, and is one under its own key and under no other. -/
structure Primitives : Prop where
  ed25519 : ∀ seed message,
    Crates.verify ⟨(Crates.publicKey seed).toList⟩ message
      (Signing.sign seed message).toList = true
  signs : ∀ seed message context, context.length ≤ 255 →
    ∃ signature, MlDsa.signDeterministic seed message context = .ok signature
  decodes : ∀ signature : MlDsa.Signature,
    MlDsa.decode (MlDsa.encode signature).toList = some signature
  verifies_iff : ∀ {seed message context signature},
    MlDsa.signDeterministic seed message context = .ok signature →
    ∀ key, MlDsa.verifyWithContext key message context signature = true ↔
      key = MlDsa.verifyingKey seed

/-- The three laws of a pair. -/
structure BindsBothHalves (pair : MlDsa65KeyPair) : Prop where
  accepts_iff : ∀ key jcsBytes text,
    hybridVerify key pair jcsBytes text = .ok () ↔
      ∃ ed pq, text = proofText ed pq ∧ HalvesVerify key pair jcsBytes ed pq
  accepts_signed : ∀ seed jcsBytes proof,
    hybridSign seed pair jcsBytes = .ok proof →
    hybridVerify ⟨(Crates.publicKey seed).toList⟩ pair jcsBytes proof = .ok ()
  unique : ∀ key jcsBytes text other,
    hybridVerify key pair jcsBytes text = .ok () →
    hybridVerify key pair jcsBytes other = .ok () →
    signaturePair text = signaturePair other → text = other

omit [Base64Texts] [UnicodeTables] [Crates] in
theorem hybridSign_eq_ok_iff {seed : Seed} {pair : MlDsa65KeyPair}
    {jcsBytes : List UInt8} {proof : Str} :
    hybridSign seed pair jcsBytes = .ok proof ↔
      ∃ signature,
        MlDsa.signDeterministic pair.signingKey jcsBytes
          trustlayerHybridContext = .ok signature ∧
        proof = proofText (Signing.sign seed jcsBytes).toList
          (MlDsa.encode signature).toList := by
  have short : ¬ trustlayerHybridContext.length > 255 := by decide
  rw [hybridSign, MlDsa65KeyPair.sign, if_neg short]
  cases MlDsa.signDeterministic pair.signingKey jcsBytes
      trustlayerHybridContext with
  | error detail =>
      constructor
      · exact nofun
      · rintro ⟨signature, made, -⟩
        cases made
  | ok signature =>
      constructor
      · intro signed
        exact ⟨signature, rfl, (Except.ok.inj signed).symm⟩
      · rintro ⟨other, made, rfl⟩
        obtain rfl := Except.ok.inj made
        rfl

/-- A proof is accepted where the pair has the key of its signing key. -/
theorem hybridVerify_signed_iff (primitives : Primitives) {seed : Seed}
    {pair : MlDsa65KeyPair} {jcsBytes : List UInt8} {proof : Str}
    (signed : hybridSign seed pair jcsBytes = .ok proof) :
    hybridVerify ⟨(Crates.publicKey seed).toList⟩ pair jcsBytes proof = .ok () ↔
      pair.verifyingKey = MlDsa.verifyingKey pair.signingKey := by
  obtain ⟨signature, made, rfl⟩ := hybridSign_eq_ok_iff.mp signed
  have read := primitives.decodes signature
  rw [hybridVerify_eq_ok_iff]
  constructor
  · rintro ⟨ed, pq, same, halves⟩
    have pairs := signaturePair_proofText ed pq
    rw [← same, signaturePair_proofText] at pairs
    obtain ⟨-, rfl⟩ := Prod.mk.inj (Option.some.inj pairs)
    obtain ⟨other, decoded, verifies⟩ := halves.pqVerifies
    rw [read] at decoded
    obtain rfl := Option.some.inj decoded
    exact (primitives.verifies_iff made _).mp verifies
  · intro matching
    exact ⟨_, _, rfl, Vector.length_toList, Vector.length_toList,
      primitives.ed25519 seed jcsBytes, signature, read,
      (primitives.verifies_iff made _).mpr matching⟩

/-- A pair that takes its own proofs has the key of its signing key. -/
theorem matching_of_bindsBothHalves (primitives : Primitives)
    {pair : MlDsa65KeyPair} (binds : BindsBothHalves pair) :
    pair.verifyingKey = MlDsa.verifyingKey pair.signingKey := by
  obtain ⟨signature, signed⟩ := primitives.signs pair.signingKey []
    trustlayerHybridContext (by decide)
  have proof : hybridSign defaultSeed pair [] =
      .ok (proofText (Signing.sign defaultSeed []).toList
        (MlDsa.encode signature).toList) :=
    hybridSign_eq_ok_iff.mpr ⟨signature, signed, rfl⟩
  exact (hybridVerify_signed_iff primitives proof).mp
    (binds.accepts_signed defaultSeed [] _ proof)

/-- Only signing can fail, and it does under another key than one's own. -/
theorem bindsBothHalves_iff (primitives : Primitives) {origin : Origin}
    {pair : MlDsa65KeyPair} (made : origin.pair = .ok pair) :
    BindsBothHalves pair ↔ origin.Matches := by
  rw [Origin.matches_iff made]
  constructor
  · exact matching_of_bindsBothHalves primitives
  · intro matching
    refine ⟨fun key jcsBytes text => hybridVerify_eq_ok_iff,
      fun seed jcsBytes proof signed =>
        (hybridVerify_signed_iff primitives signed).mpr matching,
      fun key jcsBytes text other accepted otherAccepted same => ?_⟩
    obtain ⟨ed, pq, rfl, -⟩ := hybridVerify_eq_ok_iff.mp accepted
    obtain ⟨ed', pq', rfl, -⟩ := hybridVerify_eq_ok_iff.mp otherAccepted
    rw [signaturePair_proofText, signaturePair_proofText] at same
    obtain ⟨rfl, rfl⟩ := Prod.mk.inj (Option.some.inj same)
    rfl

/-- Whatever a pair is made of, its three laws hold. -/
def EveryPairBinds : Prop :=
  ∀ (origin : Origin) pair, origin.pair = .ok pair → BindsBothHalves pair

end

end

/-! ## A pair of schemes -/

/-- The bytes in front, filled up with zeros. -/
def filled (size : Nat) (bytes : List UInt8) : List UInt8 :=
  (bytes ++ List.replicate size 0).take size

theorem filled_length (size : Nat) (bytes : List UInt8) :
    (filled size bytes).length = size := by
  simp [filled]

/-- A signature is the seed and the message. -/
def sealedUnder (size : Nat) (seed : Seed) (message : List UInt8) :
    Vector UInt8 (32 + size) where
  toArray := (seed.toList ++ filled size message).toArray
  size_toArray := by simp [filled_length]

theorem sealedUnder_toList (size : Nat) (seed : Seed) (message : List UInt8) :
    (sealedUnder size seed message).toList =
      seed.toList ++ filled size message := rfl

@[reducible] def sealSigning : Signing where
  sign seed message := sealedUnder 32 seed message

@[reducible] def sealCrates : Crates where
  fromBytes bytes := .ok { bytes }
  verify key message signature :=
    decide (signature = key.bytes ++ filled 32 message)
  publicKey seed := seed
  hkdfSha256 _ _ _ := defaultSeed
  base64Decode _ := none
  toVec _ := []
  rfc3339 _ := []

@[reducible] def sealMlDsa : MlDsa where
  VerifyingKey := List UInt8
  Signature := Vector UInt8 3309
  verifyingKey seed := filled 1952 seed.toList
  decodeKey bytes := bytes
  signDeterministic seed message context :=
    .ok (sealedUnder 3277 seed (message ++ context))
  verifyWithContext key message context signature :=
    decide (key = filled 1952 (signature.toList.take 32) ∧
      signature.toList.drop 32 = filled 3277 (message ++ context))
  encode signature := signature
  decode bytes :=
    if whole : bytes.length = 3309 then
      some { toArray := bytes.toArray, size_toArray := by simpa using whole }
    else none

@[reducible] def quietTexts : Base64Texts where
  decodeError _ := []

section

attribute [local instance] sealSigning sealCrates sealMlDsa quietTexts
  plainTables

theorem sealPrimitives : Primitives where
  ed25519 seed message := decide_eq_true (sealedUnder_toList 32 seed message)
  signs seed message context _ := ⟨_, rfl⟩
  decodes signature := by
    have whole : signature.toList.length = 3309 := Vector.length_toList
    exact dif_pos whole
  verifies_iff {seed message context signature} signed key := by
    obtain rfl := Except.ok.inj signed
    have length : seed.toList.length = 32 := Vector.length_toList
    have read := sealedUnder_toList 3277 seed (message ++ context)
    have front : (sealedUnder 3277 seed (message ++ context)).toList.take 32 =
        seed.toList := by
      rw [read, List.take_left' length]
    have back : (sealedUnder 3277 seed (message ++ context)).toList.drop 32 =
        filled 3277 (message ++ context) := by
      rw [read, List.drop_left' length]
    refine decide_eq_true_iff.trans ?_
    rw [front, back]
    exact and_iff_left rfl

theorem zeroPair_binds :
    BindsBothHalves (MlDsa65KeyPair.fromSeed defaultSeed) := by
  have made : (Origin.fromSeed defaultSeed).pair =
      .ok (MlDsa65KeyPair.fromSeed defaultSeed) := rfl
  exact (bindsBothHalves_iff sealPrimitives made).mpr trivial

def otherKey : List UInt8 :=
  List.replicate 1952 1

/-- What the pair of another public key signs, it does not accept. -/
theorem otherKey_not_everyPairBinds : Primitives ∧ ¬ EveryPairBinds := by
  refine ⟨sealPrimitives, fun binds => ?_⟩
  have length : ¬ otherKey.length ≠ mlDsa65PublicKeyLen :=
    not_not.mpr List.length_replicate
  have made : (Origin.publicOnly otherKey).pair =
      .ok { signingKey := defaultSeed
            verifyingKey := MlDsa.decodeKey otherKey } := by
    rw [Origin.pair, MlDsa65KeyPair.publicOnly, if_neg length]
  have matching : otherKey = filled 1952 defaultSeed.toList :=
    matching_of_bindsBothHalves sealPrimitives (binds _ _ made)
  have first := congrArg List.head? matching
  cases first

end

end TrustLayer.TlEvidence
