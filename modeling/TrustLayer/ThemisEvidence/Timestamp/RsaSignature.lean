import TrustLayer.ThemisEvidence.Timestamp.EcdsaSignature
import TrustLayer.ThemisEvidence.Timestamp.RsaPublicKey

/-!
# RSA signatures of a root

The scheme pads the digest to the length of the modulus.  The check compares the
power of the signature with the digest as it stands, so that no signature of the
scheme is accepted.
-/

namespace TrustLayer.ThemisEvidence.Timestamp

open TrustLayer.Library

class Sha2 where
  sha256 : List UInt8 → Vector UInt8 32
  sha384 : List UInt8 → Vector UInt8 48
  sha512 : List UInt8 → Vector UInt8 64

/-- The digest information of the message; none is an algorithm that is not
supported. -/
def digestInfo [Sha2] (sigAlgOid : Str) (tbsDer : List UInt8) :
    Option (List UInt8) :=
  if sigAlgOid = "1.2.840.113549.1.1.11".toList then
    some ([0x30, 0x31, 0x30, 0x0D, 0x06, 0x09, 0x60, 0x86, 0x48, 0x01, 0x65,
      0x03, 0x04, 0x02, 0x01, 0x05, 0x00, 0x04, 0x20] ++
        (Sha2.sha256 tbsDer).toList)
  else if sigAlgOid = "1.2.840.113549.1.1.12".toList then
    some ([0x30, 0x41, 0x30, 0x0D, 0x06, 0x09, 0x60, 0x86, 0x48, 0x01, 0x65,
      0x03, 0x04, 0x02, 0x02, 0x05, 0x00, 0x04, 0x30] ++
        (Sha2.sha384 tbsDer).toList)
  else if sigAlgOid = "1.2.840.113549.1.1.13".toList then
    some ([0x30, 0x51, 0x30, 0x0D, 0x06, 0x09, 0x60, 0x86, 0x48, 0x01, 0x65,
      0x03, 0x04, 0x02, 0x03, 0x05, 0x00, 0x04, 0x40] ++
        (Sha2.sha512 tbsDer).toList)
  else none

/-- `BigUint::to_bytes_be`; zero has one byte. -/
def toBytesBe (number : Nat) : List UInt8 :=
  if number = 0 then [0] else valueBytes number

def leftPadded (length : Nat) (mBytes : List UInt8) : List UInt8 :=
  if mBytes.length < length then
    List.replicate (length - mBytes.length) 0 ++ mBytes
  else mBytes

def modpow {ε : Type} (base exponent modulus : Nat) : Call ε Nat :=
  if modulus = 0 then .error (.panic .zeroModulus)
  else .ok (base ^ exponent % modulus)

def verifyChainRsa [Sha2] (profile : Profile) (pkDer : Option (List UInt8))
    (tbsDer sigBytes : List UInt8) (sigAlgOid : Str) :
    Call TimestampError Unit :=
  match pkDer with
  | none => .error (.error (.x509 "root RSA key not BIT STRING".toList))
  | some pkDer =>
      match digestInfo sigAlgOid tbsDer with
      | none => .error (.error (.chainInvalid
          ("unsupported RSA sig alg: ".toList ++ sigAlgOid)))
      | some expected => do
          let (nBytes, eBytes) ← (parsePkcs1RsaPubkey profile pkDer).mapError
            fun e => .x509 ("RSA pubkey decode: ".toList ++ e)
          let m ← modpow (bytesValue sigBytes) (bytesValue eBytes)
            (bytesValue nBytes)
          if leftPadded nBytes.length (toBytesBe m) ≠ expected then
            .error (.error (.chainInvalid
              "RSA chain: signature does not match expected DigestInfo".toList))
          else return ()

/-! ## The scheme -/

/-- The digest information, padded to the length of the modulus. -/
def encodedMessage (k : Nat) (info : List UInt8) : List UInt8 :=
  0x00 :: 0x01 :: List.replicate (k - info.length - 3) 0xFF ++ 0x00 :: info

/-- The signature is one of the scheme, for a modulus of so many bytes. -/
def IsPkcs1 (k n e : Nat) (info sigBytes : List UInt8) : Prop :=
  fixedBytes k (bytesValue sigBytes ^ e % n) = encodedMessage k info

section

variable [Sha2] {profile : Profile} {tbsDer sigBytes info pkDer : List UInt8}
  {sigAlgOid : Str} {nBytes eBytes : List UInt8}

omit [Sha2] in
theorem bytesValue_toBytesBe (number : Nat) :
    bytesValue (toBytesBe number) = number := by
  rw [toBytesBe]
  split_ifs with zero
  · rw [zero]
    rfl
  · exact bytesValue_valueBytes number

omit [Sha2] in
theorem toBytesBe_length_le {number width : Nat} (high : number < 256 ^ width)
    (positive : 0 < width) : (toBytesBe number).length ≤ width := by
  rw [toBytesBe]
  split_ifs
  · exact positive
  · exact valueBytes_length_le high

omit [Sha2] in
theorem leftPadded_toBytesBe {number width : Nat} (high : number < 256 ^ width)
    (positive : 0 < width) :
    leftPadded width (toBytesBe number) = fixedBytes width number := by
  have few := toBytesBe_length_le high positive
  refine eq_of_bytesValue_eq ?_ ?_
  · rw [fixedBytes_length, leftPadded]
    split_ifs
    · rw [List.length_append, List.length_replicate]
      omega
    · omega
  · rw [bytesValue_fixedBytes, Nat.mod_eq_of_lt high, leftPadded]
    split_ifs
    · rw [bytesValue_replicate_zero_append, bytesValue_toBytesBe]
    · exact bytesValue_toBytesBe number

theorem digestInfo_length (found : digestInfo sigAlgOid tbsDer = some info) :
    19 ≤ info.length := by
  unfold digestInfo at found
  split_ifs at found
  all_goals
    obtain rfl := Option.some.inj found
    rw [List.length_append]
    exact Nat.le_add_right 19 _

/-- What is accepted is the bare digest information in the bytes of the
modulus. -/
theorem verifyChainRsa_eq_ok_iff
    (found : digestInfo sigAlgOid tbsDer = some info)
    (key : parsePkcs1RsaPubkey profile pkDer = .ok (nBytes, eBytes)) :
    verifyChainRsa profile (some pkDer) tbsDer sigBytes sigAlgOid = .ok () ↔
      bytesValue nBytes ≠ 0 ∧
        fixedBytes nBytes.length
          (bytesValue sigBytes ^ bytesValue eBytes % bytesValue nBytes) =
            info := by
  unfold verifyChainRsa
  simp only [found]
  rw [Call.mapError_eq_ok_iff.mpr key, Call.ok_bind]
  unfold modpow
  by_cases zero : bytesValue nBytes = 0
  · simp only [if_pos zero, Call.error_bind]
    exact iff_of_false nofun fun both => both.1 zero
  · have below : bytesValue sigBytes ^ bytesValue eBytes % bytesValue nBytes <
        256 ^ nBytes.length :=
      (Nat.mod_lt _ (Nat.pos_of_ne_zero zero)).trans (bytesValue_lt nBytes)
    have positive : 0 < nBytes.length := by
      refine List.length_pos_of_ne_nil fun empty => zero ?_
      rw [empty, bytesValue_nil]
    simp only [if_neg zero, Call.ok_bind]
    rw [leftPadded_toBytesBe below positive]
    split_ifs with differs
    · exact iff_of_false nofun fun both => differs both.2
    · exact iff_of_true rfl ⟨zero, not_not.mp differs⟩

/-- A key that is read is one of a length that the digest information has. -/
theorem read_of_accepted
    (found : digestInfo sigAlgOid tbsDer = some info)
    (accepted : verifyChainRsa profile (some pkDer) tbsDer sigBytes sigAlgOid =
      .ok ()) :
    ∃ nBytes eBytes, parsePkcs1RsaPubkey profile pkDer = .ok (nBytes, eBytes) ∧
      info.length = nBytes.length := by
  cases key : parsePkcs1RsaPubkey profile pkDer with
  | ok pair =>
      obtain ⟨nBytes, eBytes⟩ := pair
      have same := ((verifyChainRsa_eq_ok_iff found key).mp accepted).2
      refine ⟨nBytes, eBytes, rfl, ?_⟩
      rw [← same, fixedBytes_length]
  | error abort =>
      unfold verifyChainRsa at accepted
      simp only [found] at accepted
      rw [key] at accepted
      cases abort <;> cases accepted

/-- No encoding of a key is read as a key so long. -/
theorem not_accepted_rsaPublicKeyDer {n e : Nat}
    (found : digestInfo sigAlgOid tbsDer = some info)
    (bounded : (rsaPublicKeyDer n e).length < 2 ^ 63) :
    verifyChainRsa profile (some (rsaPublicKeyDer n e)) tbsDer sigBytes
      sigAlgOid ≠ .ok () := by
  intro accepted
  obtain ⟨nBytes, eBytes, key, length⟩ := read_of_accepted found accepted
  obtain ⟨modulus, exponent, integers, rfl, rfl⟩ :=
    (parsePkcs1RsaPubkey_eq_ok_iff bounded).mp key
  have long := digestInfo_length found
  have stripped := strip_length_le modulus
  have few := (integers.length_le_field bounded).2
  omega

/-- The code accepts no signature under the encoding of a key, and none where it
has read a modulus as long as the scheme requires. -/
theorem verifyChainRsa_pkcs1 (profile : Profile) {k n e : Nat}
    {tbsDer sigBytes info : List UInt8} {sigAlgOid : Str}
    (found : digestInfo sigAlgOid tbsDer = some info)
    (bounded : (rsaPublicKeyDer n e).length < 2 ^ 63) :
    ((verifyChainRsa profile (some (rsaPublicKeyDer n e)) tbsDer sigBytes
        sigAlgOid = .ok () ↔ IsPkcs1 k n e info sigBytes) ↔
      ¬ IsPkcs1 k n e info sigBytes) ∧
    ∀ pkDer nBytes eBytes,
      parsePkcs1RsaPubkey profile pkDer = .ok (nBytes, eBytes) →
        info.length + 11 ≤ nBytes.length →
          verifyChainRsa profile (some pkDer) tbsDer sigBytes sigAlgOid ≠
            .ok () := by
  constructor
  · rw [iff_false_left (not_accepted_rsaPublicKeyDer found bounded)]
  · intro pkDer nBytes eBytes key long accepted
    obtain ⟨nBytes', eBytes', key', length⟩ := read_of_accepted found accepted
    obtain ⟨rfl, rfl⟩ := Prod.mk.inj (Except.ok.inj (key.symm.trans key'))
    omega

end

/-! ## An honest signature -/

/-- The digest of the empty input. -/
@[reducible] def emptySha2 : Sha2 where
  sha256 _ := ⟨#[0xe3, 0xb0, 0xc4, 0x42, 0x98, 0xfc, 0x1c, 0x14, 0x9a, 0xfb,
    0xf4, 0xc8, 0x99, 0x6f, 0xb9, 0x24, 0x27, 0xae, 0x41, 0xe4, 0x64, 0x9b,
    0x93, 0x4c, 0xa4, 0x95, 0x99, 0x1b, 0x78, 0x52, 0xb8, 0x55], rfl⟩
  sha384 _ := Vector.replicate 48 0
  sha512 _ := Vector.replicate 64 0

/-- A modulus of 64 bytes, the product of two primes. -/
def sampleModulus : Nat :=
  0xd6ba681e1c415204f2db7f0e2f2952a10da6bfc9335a7617ae5c738b333f94e306b0875ed69e59e20f70deae97df141f2b953745e4242c4c5d27dcf8b6e0c6c7

/-- The signature of the empty input under the exponent three. -/
def sampleSignature : List UInt8 :=
  valueBytes 0x4ed268779aa4cdf3b9a09b6bdbbce30976e94737565b5c200464f94d6b69333e979a1d8b965f18e1d8f465dedf2960252aaf15d7e07133659293d659e60123ee

def sampleOid : Str := "1.2.840.113549.1.1.11".toList

def sampleInfo : List UInt8 :=
  [0x30, 0x31, 0x30, 0x0D, 0x06, 0x09, 0x60, 0x86, 0x48, 0x01, 0x65, 0x03, 0x04,
    0x02, 0x01, 0x05, 0x00, 0x04, 0x20] ++ (emptySha2.sha256 []).toList

theorem digestInfo_sample :
    @digestInfo emptySha2 sampleOid [] = some sampleInfo := rfl

theorem bounded_sampleModulus :
    (rsaPublicKeyDer sampleModulus 3).length < 2 ^ 63 := by
  have length : (rsaPublicKeyDer sampleModulus 3).length = 72 := by
    decide +kernel
  rw [length]
  decide

theorem isPkcs1_sample :
    IsPkcs1 64 sampleModulus 3 sampleInfo sampleSignature := by
  rw [IsPkcs1, sampleSignature, bytesValue_valueBytes]
  decide +kernel

theorem sample_unrecognised :
    ¬ (@verifyChainRsa emptySha2 .release
        (some (rsaPublicKeyDer sampleModulus 3)) [] sampleSignature
          sampleOid = .ok () ↔
      IsPkcs1 64 sampleModulus 3 sampleInfo sampleSignature) := by
  have rule := (@verifyChainRsa_pkcs1 emptySha2 .release 64 sampleModulus 3 []
    sampleSignature sampleInfo sampleOid digestInfo_sample
    bounded_sampleModulus).1
  exact fun recognised => rule.mp recognised isPkcs1_sample

theorem sample_refused :
    IsPkcs1 64 sampleModulus 3 sampleInfo sampleSignature ∧
      @verifyChainRsa emptySha2 .release
        (some (rsaPublicKeyDer sampleModulus 3)) [] sampleSignature
          sampleOid ≠ .ok () :=
  ⟨isPkcs1_sample, @not_accepted_rsaPublicKeyDer emptySha2 .release [] _ _ _ _
    _ digestInfo_sample bounded_sampleModulus⟩

end TrustLayer.ThemisEvidence.Timestamp
