import TrustLayer.Library.Base58
import TrustLayer.ThemisBandClient.SignedMessage

/-!
# Standard identities

The text of an Ed25519 key in base 58 begins with `6Mk`, and the identity of
the key is that text behind a `z`.  The identities here have `z6Mk` in front of
the whole text, so that no standard identity is written or read.
-/

namespace TrustLayer.ThemisBandClient

open TrustLayer.Library hiding Json
open TrustLayer.TlVerify (Crates VerifyingKey starkPublic)

section

variable [BandCrates] [Crates]

omit [Crates] in
/-- The `bs58` crate, with the alphabet that is its default. -/
structure BitcoinBase58 : Prop where
  encode : ∀ bytes, BandCrates.bs58Encode bytes = Base58.encode bytes
  decode : ∀ text, BandCrates.bs58Decode text = Base58.decode text

omit [BandCrates] in
/-- A key that is read has the bytes that it was read from. -/
def KeepsBytes : Prop :=
  ∀ bytes key, Crates.fromBytes bytes = .ok key → key.bytes = bytes

omit [BandCrates] in
structure IsKey (pk : VerifyingKey) : Prop where
  length : pk.bytes.length = 32
  read : Crates.fromBytes pk.bytes = .ok pk

omit [BandCrates] [Crates] in
/-- The identity that other implementations give to a key. -/
def standardDid (pk : VerifyingKey) : Did where
  method := "did:key".toList
  id := 'z' :: Base58.encode (ed25519PubMulticodec ++ pk.bytes)

omit [Crates] in
theorem fromVerifyingKey_id (pk : VerifyingKey) :
    (Did.fromVerifyingKey pk).id = "z6Mk".toList ++
      BandCrates.bs58Encode (ed25519PubMulticodec ++ pk.bytes) := rfl

omit [BandCrates] [Crates] in
theorem standardDid_id (pk : VerifyingKey) : (standardDid pk).id =
    'z' :: Base58.encode (ed25519PubMulticodec ++ pk.bytes) := rfl

/-- What is expected of one key. -/
structure Standard (pk : VerifyingKey) : Prop where
  yields : Did.fromVerifyingKey pk = standardDid pk
  recovers : didToVerifyingKey (standardDid pk) = .ok pk

/-! ## Lengths -/

omit [BandCrates] [Crates] in
/-- A key with its prefix takes 47 digits. -/
theorem encode_multicodec_length {bytes : List UInt8}
    (length : bytes.length = 32) :
    (Base58.encode (ed25519PubMulticodec ++ bytes)).length = 47 := by
  have rest : (0x01 :: bytes).length = 33 := by
    rw [List.length_cons, length]
  change (Base58.encode (0xED :: 0x01 :: bytes)).length = 47
  apply Base58.encode_length
  · decide
  · rw [rest]
    decide
  · rw [rest]
    decide

omit [Crates] in
theorem fromVerifyingKey_ne (crate : BitcoinBase58) (pk : VerifyingKey) :
    Did.fromVerifyingKey pk ≠ standardDid pk := by
  intro same
  have four : "z6Mk".toList.length = 4 := rfl
  have lengths := congrArg (fun did => did.id.length) same
  simp only [fromVerifyingKey_id, standardDid_id, crate.encode,
    List.length_append, List.length_cons, four] at lengths
  omega

/-! ## What is accepted -/

theorem didToVerifyingKey_eq_ok_iff {did : Did} {key : VerifyingKey} :
    didToVerifyingKey did = .ok key ↔
      ∃ text bytes, did = ⟨"did:key".toList, "z6Mk".toList ++ text⟩ ∧
        BandCrates.bs58Decode text = some (ed25519PubMulticodec ++ bytes) ∧
        bytes.length = 32 ∧ Crates.fromBytes bytes = .ok key := by
  obtain ⟨method, id⟩ := did
  constructor
  · intro accepted
    rw [didToVerifyingKey] at accepted
    split_ifs at accepted with named
    split at accepted
    · cases accepted
    · rename_i text front
      split at accepted
      · cases accepted
      · rename_i raw decoded
        split_ifs at accepted with whole
        obtain ⟨length, multicodec⟩ := not_or.mp whole
        refine ⟨text, raw.drop 2, ?_, ?_, ?_, ?_⟩
        · exact congrArg₂ Did.mk (not_not.mp named)
            (stripPrefix_eq_some_iff.mp front)
        · rw [← not_not.mp multicodec, List.take_append_drop, decoded]
        · rw [List.length_drop, not_not.mp length]
        · cases read : Crates.fromBytes (raw.drop 2) with
          | error error =>
              rw [read] at accepted
              cases accepted
          | ok found =>
              rw [read] at accepted
              exact congrArg Except.ok (Except.ok.inj accepted)
  · rintro ⟨text, bytes, same, decoded, length, read⟩
    obtain ⟨rfl, rfl⟩ := Did.mk.inj same
    have named : ¬ (Did.mk "did:key".toList ("z6Mk".toList ++ text)).method ≠
        "did:key".toList := fun other => other rfl
    have front := stripPrefix_eq_some_iff.mpr
      (rfl : "z6Mk".toList ++ text = "z6Mk".toList ++ text)
    have whole : ¬ ((ed25519PubMulticodec ++ bytes).length ≠ 2 + 32 ∨
        (ed25519PubMulticodec ++ bytes).take 2 ≠ ed25519PubMulticodec) := by
      simp [length, ed25519PubMulticodec]
    have behind : (ed25519PubMulticodec ++ bytes).drop 2 = bytes := rfl
    rw [didToVerifyingKey, if_neg named, front]
    simp only [decoded]
    rw [if_neg whole, behind, read]
    rfl

/-- An accepted identity is the one that is written for its key. -/
theorem eq_fromVerifyingKey (crate : BitcoinBase58) (keeps : KeepsBytes)
    {did : Did} {key : VerifyingKey} (accepted : didToVerifyingKey did = .ok key) :
    IsKey key ∧ did = .fromVerifyingKey key := by
  obtain ⟨text, bytes, rfl, decoded, length, read⟩ :=
    didToVerifyingKey_eq_ok_iff.mp accepted
  obtain rfl := keeps bytes key read
  rw [crate.decode] at decoded
  obtain rfl := Base58.decode_eq_some_iff.mp decoded
  have written := crate.encode (ed25519PubMulticodec ++ key.bytes)
  refine ⟨⟨length, read⟩, ?_⟩
  rw [← written]
  rfl

/-- A standard identity is too short to be read. -/
theorem didToVerifyingKey_standardDid_ne (crate : BitcoinBase58)
    {pk key : VerifyingKey} (length : pk.bytes.length = 32) :
    didToVerifyingKey (standardDid pk) ≠ .ok key := by
  intro accepted
  obtain ⟨text, bytes, same, decoded, short, -⟩ :=
    didToVerifyingKey_eq_ok_iff.mp accepted
  rw [crate.decode] at decoded
  obtain rfl := Base58.decode_eq_some_iff.mp decoded
  have four : "z6Mk".toList.length = 4 := rfl
  have lengths := congrArg (fun did => did.id.length) same
  simp only [standardDid_id, List.length_append, List.length_cons, four,
    encode_multicodec_length length, encode_multicodec_length short] at lengths
  omega

/-- No identity is standard, neither one that is written nor one that is read.
Each key is read from its own identity, and from no other. -/
theorem not_standard (crate : BitcoinBase58) (keeps : KeepsBytes) :
    (∀ pk, IsKey pk → ¬ Standard pk ∧
      Did.fromVerifyingKey pk ≠ standardDid pk ∧
      didToVerifyingKey (standardDid pk) ≠ .ok pk ∧
      didToVerifyingKey (.fromVerifyingKey pk) = .ok pk) ∧
    (∀ did key, didToVerifyingKey did = .ok key →
      IsKey key ∧ did = .fromVerifyingKey key ∧
        ∀ pk, IsKey pk → did ≠ standardDid pk) ∧
    ∀ did other key, didToVerifyingKey did = .ok key →
      didToVerifyingKey other = .ok key → did = other := by
  have readBack bytes :
      BandCrates.bs58Decode (BandCrates.bs58Encode bytes) = some bytes := by
    rw [crate.encode, crate.decode]
    exact Base58.decode_eq_some_iff.mpr rfl
  refine ⟨fun pk isKey => ?_, fun did key accepted => ?_,
    fun did other key accepted otherAccepted => ?_⟩
  · have differs := fromVerifyingKey_ne crate pk
    have refused : didToVerifyingKey (standardDid pk) ≠ .ok pk :=
      didToVerifyingKey_standardDid_ne crate isKey.length
    exact ⟨fun standard => differs standard.yields, differs, refused,
      didToVerifyingKey_fromVerifyingKey readBack isKey.length isKey.read⟩
  · obtain ⟨isKey, own⟩ := eq_fromVerifyingKey crate keeps accepted
    refine ⟨isKey, own, ?_⟩
    rintro pk standard rfl
    exact didToVerifyingKey_standardDid_ne crate standard.length accepted
  · rw [(eq_fromVerifyingKey crate keeps accepted).2,
      (eq_fromVerifyingKey crate keeps otherAccepted).2]

end

/-! ### The key of `stark` -/

@[reducible] def bitcoinBand : BandCrates where
  canonicalize := SerdeJson.valueToVec
  bs58Encode := Base58.encode
  bs58Decode := Base58.decode

def starkKey : VerifyingKey := ⟨starkPublic.toList⟩

theorem starkKey_not_standard : ¬ @Standard bitcoinBand endKeys starkKey := by
  rintro ⟨yields, -⟩
  have id := congrArg Did.id yields
  revert id
  decide +kernel

theorem starkKey_dids :
    @Did.fromVerifyingKey bitcoinBand starkKey ≠ standardDid starkKey ∧
      @didToVerifyingKey bitcoinBand endKeys
        (@Did.fromVerifyingKey bitcoinBand starkKey) = .ok starkKey := by
  have keeps : @KeepsBytes endKeys := by
    rintro bytes key read
    obtain rfl := Except.ok.inj read
    rfl
  obtain ⟨every, -⟩ := @not_standard bitcoinBand endKeys
    (@BitcoinBase58.mk bitcoinBand (fun _ => rfl) fun _ => rfl) keeps
  obtain ⟨-, differs, -, back⟩ :=
    every starkKey (@IsKey.mk endKeys starkKey rfl rfl)
  exact ⟨differs, back⟩

end TrustLayer.ThemisBandClient
