import TrustLayer.Library.Overflow
import TrustLayer.ThemisEvidence.Packet

/-!
# Signed messages

A message carries the identity of its sender, from which the key is read, and a
signature on its body and time.  A receiver accepts it within a minute.
-/

namespace TrustLayer.ThemisBandClient

open TrustLayer.AgentGuard (Json)
open TrustLayer.Library hiding Json
open TrustLayer.ThemisEvidence (ErrorTexts Signing StrictVerifying)
open TrustLayer.TlVerify (Crates Seed VerifyingKey hexDecode starkSeed
  starkPublic zeroBytes)

/-! ## Data -/

structure Did where
  method : Str
  id : Str
  deriving DecidableEq

structure SignedMessage where
  did : Did
  body : Json
  signatureHex : Str
  timestampMs : Int64

inductive SignedMessageError where
  | invalidDid
  | invalidSignature
  | timestampSkew
  | canonicalize (detail : Str)
  | hex (detail : Str)
  deriving DecidableEq

/-- How a call ends that does not return. -/
inductive Stop (ε : Type) where
  | error (error : ε)
  | panic
  deriving DecidableEq

/-- The canonical JSON of a value, and the base 58 of Bitcoin. -/
class BandCrates where
  canonicalize : Json → List UInt8
  bs58Encode : List UInt8 → Str
  bs58Decode : Str → Option (List UInt8)

def maxTimestampSkewMs : Int := 60000

def ed25519PubMulticodec : List UInt8 := [0xED, 0x01]

section

variable [BandCrates]

/-! ## Identities -/

namespace Did

def fromVerifyingKey (pk : VerifyingKey) : Did :=
  { method := "did:key".toList
    id := "z6Mk".toList ++
      BandCrates.bs58Encode (ed25519PubMulticodec ++ pk.bytes) }

omit [BandCrates] in
def display (did : Did) : Str :=
  did.method ++ ':' :: did.id

end Did

variable [Crates]

def didToVerifyingKey (did : Did) :
    Except (Stop SignedMessageError) VerifyingKey :=
  if did.method ≠ "did:key".toList then .error (.error .invalidDid)
  else
    match stripPrefix "z6Mk".toList did.id with
    | none => .error (.error .invalidDid)
    | some id =>
        match BandCrates.bs58Decode id with
        | none => .error (.error .invalidDid)
        | some raw =>
            if raw.length ≠ 2 + 32 ∨ raw.take 2 ≠ ed25519PubMulticodec then
              .error (.error .invalidDid)
            else
              (Crates.fromBytes (raw.drop 2)).mapError fun _ =>
                .error .invalidDid

/-! ## Signatures -/

omit [Crates] in
def signedPayload (body : Json) (timestampMs : Int64) : List UInt8 :=
  BandCrates.canonicalize body ++ beBytes timestampMs.toUInt64

def sign [Signing] (body : Json) (signingKey : Seed) (timestampMs : Int64) :
    SignedMessage :=
  { did := .fromVerifyingKey ⟨(Crates.publicKey signingKey).toList⟩
    body
    signatureHex := toHex
      (Signing.sign signingKey (signedPayload body timestampMs)).toList
    timestampMs }

variable [StrictVerifying] [ErrorTexts]

/-- What `verify` checks behind the time. -/
def verifySignature (msg : SignedMessage) :
    Except (Stop SignedMessageError) Unit := do
  let pk ← didToVerifyingKey msg.did
  let sigBytes ← (hexDecode msg.signatureHex).mapError fun error =>
    Stop.error (.hex (ErrorTexts.fromHexError error))
  if sigBytes.length ≠ 64 then .error (.error .invalidSignature)
  else if StrictVerifying.verifyStrict pk
      (signedPayload msg.body msg.timestampMs) sigBytes then .ok ()
  else .error (.error .invalidSignature)

/-- `verify`, as a build with or without overflow checks runs it. -/
def verify (profile : Profile) (msg : SignedMessage) (nowMs : Int64) :
    Except (Stop SignedMessageError) Unit :=
  match profile.absDiff msg.timestampMs.toInt nowMs.toInt with
  | none => .error .panic
  | some skew =>
      if skew > maxTimestampSkewMs then .error (.error .timestampSkew)
      else verifySignature msg

/-! ## What acceptance shows -/

omit [Crates] [ErrorTexts] in
/-- The signature is one of the key, on body and time. -/
def SignedBy (key : VerifyingKey) (msg : SignedMessage) : Prop :=
  ∃ signature, hexDecode msg.signatureHex = .ok signature ∧
    signature.length = 64 ∧
    StrictVerifying.verifyStrict key
      (signedPayload msg.body msg.timestampMs) signature = true

/-- The key is the one in the identity. -/
def SignatureValid (msg : SignedMessage) : Prop :=
  ∃ key, didToVerifyingKey msg.did = .ok key ∧ SignedBy key msg

variable {profile : Profile} {msg : SignedMessage} {nowMs : Int64}

omit [StrictVerifying] [ErrorTexts] in
theorem didToVerifyingKey_ne_panic (did : Did) :
    didToVerifyingKey did ≠ .error .panic := by
  unfold didToVerifyingKey
  intro panics
  split at panics
  next => cases panics
  next =>
    split at panics
    next => cases panics
    next =>
      split at panics
      next => cases panics
      next raw decoded =>
        split at panics
        next => cases panics
        next =>
          cases read : Crates.fromBytes (raw.drop 2) with
          | error error =>
              rw [read] at panics
              cases panics
          | ok key =>
              rw [read] at panics
              cases panics

theorem verifySignature_eq_ok_iff :
    verifySignature msg = .ok () ↔ SignatureValid msg := by
  unfold verifySignature SignatureValid SignedBy
  cases read : didToVerifyingKey msg.did with
  | error error => simp [bind, Except.bind]
  | ok key =>
      cases decoded : hexDecode msg.signatureHex with
      | error error => simp [bind, Except.bind, Except.mapError]
      | ok signature =>
          simp only [bind, Except.bind, Except.mapError, Except.ok.injEq,
            exists_eq_left']
          split_ifs with long verified
          · simp [long]
          · simp [verified, not_not.mp long]
          · simp [verified]

theorem verifySignature_ne_panic : verifySignature msg ≠ .error .panic := by
  unfold verifySignature
  cases read : didToVerifyingKey msg.did with
  | error error =>
      intro panics
      have stop : error = .panic := Except.error.inj panics
      exact didToVerifyingKey_ne_panic msg.did (stop ▸ read)
  | ok key =>
      cases decoded : hexDecode msg.signatureHex with
      | error error => simp [bind, Except.bind, Except.mapError]
      | ok signature =>
          simp only [bind, Except.bind, Except.mapError]
          split_ifs <;> simp

theorem verify_eq_ok_iff :
    verify profile msg nowMs = .ok () ↔
      ∃ skew, profile.absDiff msg.timestampMs.toInt nowMs.toInt = some skew ∧
        skew ≤ maxTimestampSkewMs ∧ SignatureValid msg := by
  unfold verify
  cases difference : profile.absDiff msg.timestampMs.toInt nowMs.toInt with
  | none => simp
  | some skew =>
      simp only [Option.some.injEq, exists_eq_left']
      split_ifs with large
      · simp [large]
      · rw [verifySignature_eq_ok_iff]
        simp [not_lt.mp large]

theorem verify_eq_panic_iff :
    verify profile msg nowMs = .error .panic ↔
      profile.absDiff msg.timestampMs.toInt nowMs.toInt = none := by
  unfold verify
  cases difference : profile.absDiff msg.timestampMs.toInt nowMs.toInt with
  | none => simp
  | some skew =>
      simp only [reduceCtorEq, iff_false]
      split_ifs with large
      · simp
      · exact verifySignature_ne_panic

/-! ## Freshness -/

omit [Crates] [StrictVerifying] [ErrorTexts] in
/-- The last eight bytes are the time. -/
theorem signedPayload_injective {body otherBody : Json}
    {timestamp otherTimestamp : Int64}
    (same : signedPayload body timestamp =
      signedPayload otherBody otherTimestamp) :
    BandCrates.canonicalize body = BandCrates.canonicalize otherBody ∧
      timestamp = otherTimestamp := by
  obtain ⟨sameBody, sameTime⟩ := List.append_inj' same (by simp)
  have sameBits := beBytes_injective sameTime
  exact ⟨sameBody, congrArg Int64.ofUInt64 sameBits⟩

/-- Base 58 is read back, and a signature verifies under the key of its
signer. -/
structure Correct [Signing] : Prop where
  readBack : ∀ bytes,
    BandCrates.bs58Decode (BandCrates.bs58Encode bytes) = some bytes
  verifies : ∀ seed message, ∃ key,
    Crates.fromBytes (Crates.publicKey seed).toList = .ok key ∧
    StrictVerifying.verifyStrict key message
      (Signing.sign seed message).toList = true

omit [StrictVerifying] [ErrorTexts] in
theorem didToVerifyingKey_fromVerifyingKey {pk key : VerifyingKey}
    (readBack : ∀ bytes,
      BandCrates.bs58Decode (BandCrates.bs58Encode bytes) = some bytes)
    (length : pk.bytes.length = 32)
    (read : Crates.fromBytes pk.bytes = .ok key) :
    didToVerifyingKey (.fromVerifyingKey pk) = .ok key := by
  have whole : ¬ ((ed25519PubMulticodec ++ pk.bytes).length ≠ 2 + 32 ∨
      (ed25519PubMulticodec ++ pk.bytes).take 2 ≠ ed25519PubMulticodec) := by
    simp [length, ed25519PubMulticodec]
  have key : (ed25519PubMulticodec ++ pk.bytes).drop 2 = pk.bytes := rfl
  have method : ¬ (Did.fromVerifyingKey pk).method ≠ "did:key".toList :=
    not_not.mpr rfl
  have id := stripPrefix_eq_some_iff.mpr
    (rfl : (Did.fromVerifyingKey pk).id = "z6Mk".toList ++ _)
  rw [didToVerifyingKey, if_neg method, id]
  simp only [readBack]
  rw [if_neg whole, key, read]
  rfl

omit [ErrorTexts] in
theorem signatureValid_sign [Signing] (correct : Correct) (body : Json)
    (signingKey : Seed) (timestampMs : Int64) :
    SignatureValid (sign body signingKey timestampMs) := by
  obtain ⟨key, read, verified⟩ := correct.verifies signingKey
    (signedPayload body timestampMs)
  refine ⟨key, ?_, _, TlVerify.hexDecode_toHex _, by simp, verified⟩
  exact didToVerifyingKey_fromVerifyingKey correct.readBack (by simp) read

/-- One signature under one key does not cover two payloads. -/
def SignatureBinds (left right : SignedMessage) : Prop :=
  ∀ key signature,
    StrictVerifying.verifyStrict key
      (signedPayload left.body left.timestampMs) signature = true →
    StrictVerifying.verifyStrict key
      (signedPayload right.body right.timestampMs) signature = true →
    signedPayload left.body left.timestampMs =
      signedPayload right.body right.timestampMs

omit [ErrorTexts] in
theorem eq_of_signatureValid {left right : SignedMessage}
    (binds : SignatureBinds left right) (leftValid : SignatureValid left)
    (rightValid : SignatureValid right) (sameDid : left.did = right.did)
    (sameSignature : left.signatureHex = right.signatureHex) :
    BandCrates.canonicalize left.body = BandCrates.canonicalize right.body ∧
      left.timestampMs = right.timestampMs := by
  obtain ⟨key, read, signature, decoded, -, verified⟩ := leftValid
  obtain ⟨otherKey, otherRead, otherSignature, otherDecoded, -, otherVerified⟩ :=
    rightValid
  rw [← sameDid] at otherRead
  rw [← sameSignature] at otherDecoded
  obtain rfl := Except.ok.inj (read.symm.trans otherRead)
  obtain rfl := Except.ok.inj (decoded.symm.trans otherDecoded)
  exact signedPayload_injective (binds key signature verified otherVerified)

/-- What a receiver at one time relies on, for the messages of another. -/
structure FreshAndBound [Signing] (profile : Profile)
    (timestampMs nowMs : Int64) : Prop where
  noOverflow : ∀ msg, msg.timestampMs = timestampMs →
    verify profile msg nowMs ≠ .error .panic
  fresh : ∀ msg, msg.timestampMs = timestampMs →
    verify profile msg nowMs = .ok () →
    |nowMs.toInt - timestampMs.toInt| ≤ maxTimestampSkewMs ∧ SignatureValid msg
  accepts : ∀ body signingKey,
    verify profile (sign body signingKey timestampMs) nowMs = .ok () ↔
      |nowMs.toInt - timestampMs.toInt| ≤ maxTimestampSkewMs
  bound : ∀ msg other otherNowMs, msg.timestampMs = timestampMs →
    SignatureBinds msg other →
    verify profile msg nowMs = .ok () →
    verify profile other otherNowMs = .ok () →
    msg.did = other.did → msg.signatureHex = other.signatureHex →
    BandCrates.canonicalize msg.body = BandCrates.canonicalize other.body ∧
      msg.timestampMs = other.timestampMs

/-- The distances that the arithmetic keeps apart from the small ones. -/
def InRange : Profile → (distance : Int) → Prop
  | .dev, distance => distance < 2 ^ 63
  | .release, distance =>
      distance ≠ 2 ^ 63 ∧ distance < 2 ^ 64 - maxTimestampSkewMs

omit [BandCrates] [Crates] [StrictVerifying] [ErrorTexts] in
theorem inRange_iff {left right : Int} (bounded : |left - right| < 2 ^ 64) :
    InRange profile |left - right| ↔
      ∃ skew, profile.absDiff left right = some skew ∧
        (skew ≤ maxTimestampSkewMs ↔ |left - right| ≤ maxTimestampSkewMs) := by
  rcases lt_or_ge |left - right| (2 ^ 63) with near | far
  · rw [Profile.absDiff_of_lt near]
    have inRange : InRange profile |left - right| := by
      cases profile with
      | dev => exact near
      | release => exact ⟨by omega, by unfold maxTimestampSkewMs; omega⟩
    simp [inRange]
  · cases profile with
    | dev =>
        rw [Profile.absDiff_dev_of_le far]
        constructor
        · intro near
          exact absurd near (not_lt.mpr far)
        · rintro ⟨skew, panic, -⟩
          cases panic
    | release =>
        rw [Profile.absDiff_release_of_le far bounded]
        simp only [InRange, Option.some.injEq, exists_eq_left',
          maxTimestampSkewMs]
        split_ifs with middle
        · omega
        · omega

omit [BandCrates] [Crates] [StrictVerifying] [ErrorTexts] in
theorem abs_sub_toInt_lt (left right : Int64) :
    |left.toInt - right.toInt| < 2 ^ 64 := by
  have leftLow := Int64.le_toInt left
  have leftHigh := Int64.toInt_lt left
  have rightLow := Int64.le_toInt right
  have rightHigh := Int64.toInt_lt right
  exact abs_lt.mpr ⟨by omega, by omega⟩

theorem freshAndBound_iff [Signing] (correct : Correct) (profile : Profile)
    (timestampMs nowMs : Int64) :
    FreshAndBound profile timestampMs nowMs ↔
      InRange profile |nowMs.toInt - timestampMs.toInt| := by
  rw [abs_sub_comm, inRange_iff (abs_sub_toInt_lt timestampMs nowMs)]
  constructor
  · intro holds
    have signed := signatureValid_sign correct .null starkSeed timestampMs
    have noOverflow := holds.noOverflow
      (sign .null starkSeed timestampMs) rfl
    obtain ⟨skew, difference⟩ := Option.ne_none_iff_exists'.mp
      (mt verify_eq_panic_iff.mpr noOverflow)
    refine ⟨skew, difference, ?_⟩
    rw [abs_sub_comm, ← holds.accepts .null starkSeed, verify_eq_ok_iff]
    constructor
    · intro small
      exact ⟨skew, difference, small, signed⟩
    · rintro ⟨other, same, small, -⟩
      obtain rfl := Option.some.inj (difference.symm.trans same)
      exact small
  · rintro ⟨skew, difference, exact⟩
    have accepted_iff : ∀ msg : SignedMessage, msg.timestampMs = timestampMs →
        (verify profile msg nowMs = .ok () ↔
          |nowMs.toInt - timestampMs.toInt| ≤ maxTimestampSkewMs ∧
            SignatureValid msg) := by
      rintro msg rfl
      rw [verify_eq_ok_iff, difference, abs_sub_comm, ← exact]
      simp
    constructor
    · rintro msg rfl panics
      rw [verify_eq_panic_iff, difference] at panics
      cases panics
    · intro msg sent accepted
      exact (accepted_iff msg sent).mp accepted
    · intro body signingKey
      rw [accepted_iff _ rfl]
      exact and_iff_left (signatureValid_sign correct body signingKey timestampMs)
    · intro msg other otherNowMs _ binds accepted otherAccepted
      obtain ⟨-, -, -, valid⟩ := verify_eq_ok_iff.mp accepted
      obtain ⟨-, -, -, otherValid⟩ := verify_eq_ok_iff.mp otherAccepted
      exact eq_of_signatureValid binds valid otherValid

end

/-! ## A message of a day, and the ends of the clock -/

section

def starkMultikey : Str :=
  "6MksoypoCt4aTRwSPEYLyPTjaeUoNmYrWuJdVUxn3ZyD9yQ".toList

def endBody : Json :=
  .object [("action".toList, .string "approve".toList)]

def endPayload : List UInt8 :=
  utf8Bytes "\x7b\"action\":\"approve\"\x7d".toList ++
    [0x7f, 0xff, 0xff, 0xff, 0xff, 0xff, 0xff, 0xff]

def endSignature : Vector UInt8 64 :=
  #v[0x9d, 0x2f, 0x23, 0x93, 0xdc, 0x8c, 0x31, 0x01, 0xe9, 0xbd, 0x6c, 0xb0,
    0xe7, 0x82, 0x70, 0x8f, 0x44, 0x7a, 0xcf, 0x28, 0x42, 0xc6, 0xf3, 0x69,
    0x9c, 0xaf, 0xa0, 0x21, 0x07, 0x75, 0x36, 0xd8, 0x87, 0x93, 0x2c, 0xa7,
    0xca, 0xc7, 0xf5, 0x6f, 0xd4, 0x81, 0xac, 0xb5, 0xb1, 0xe9, 0xb9, 0x03,
    0x8f, 0xe8, 0x2d, 0x8e, 0x1a, 0x90, 0xf2, 0x41, 0xf6, 0xad, 0x6a, 0xee,
    0xc3, 0xf8, 0x63, 0x0d]

/-- A clock in milliseconds, of December 2025. -/
def dayMs : Int64 := 1765000000000

def dayPayload : List UInt8 :=
  utf8Bytes "\x7b\"action\":\"approve\"\x7d".toList ++
    [0x00, 0x00, 0x01, 0x9a, 0xf2, 0x32, 0xb2, 0x00]

def daySignature : Vector UInt8 64 :=
  #v[0xf6, 0x8d, 0xc1, 0xbf, 0x21, 0x7b, 0x33, 0x1a, 0x93, 0xec, 0x1a, 0x69,
    0xa6, 0xea, 0x78, 0x9d, 0x0d, 0xcb, 0xeb, 0x2e, 0x6f, 0x13, 0xd0, 0x7e,
    0x47, 0x09, 0x5b, 0xaa, 0x81, 0x48, 0x15, 0x84, 0x0f, 0x78, 0x82, 0xbb,
    0xf6, 0xa8, 0xa5, 0x9f, 0xf8, 0x6a, 0x8a, 0xed, 0x16, 0x98, 0xa5, 0x8c,
    0xa9, 0xac, 0x3d, 0xfa, 0xf6, 0xe5, 0xa7, 0xac, 0x88, 0x32, 0x53, 0x60,
    0xb7, 0x28, 0x4c, 0x01]

/-- What `stark` signs the two messages with. -/
def recordedSignature (message : List UInt8) : Vector UInt8 64 :=
  if message = endPayload then endSignature
  else if message = dayPayload then daySignature
  else Vector.replicate 64 0

/-- Base 58 of the key of `stark`, and a stand-in for it elsewhere. -/
@[reducible] def endBand : BandCrates where
  canonicalize := SerdeJson.valueToVec
  bs58Encode bytes :=
    if bytes = ed25519PubMulticodec ++ starkPublic.toList then starkMultikey
    else '?' :: toHex bytes
  bs58Decode text :=
    if text = starkMultikey then
      some (ed25519PubMulticodec ++ starkPublic.toList)
    else
      match text with
      | '?' :: rest => (hexDecode rest).toOption
      | _ => none

@[reducible] def endKeys : Crates where
  fromBytes bytes := .ok { bytes }
  verify _ _ _ := false
  publicKey seed := if seed = starkSeed then starkPublic else zeroBytes
  hkdfSha256 _ _ _ := zeroBytes
  base64Decode _ := none
  toVec := SerdeJson.valueToVec
  rfc3339 _ := []

@[reducible] def endSigning : Signing where
  sign seed message :=
    if seed = starkSeed then recordedSignature message
    else Vector.replicate 64 0

@[reducible] def endStrict : StrictVerifying where
  verifyStrict key message signature :=
    decide (signature =
      if key.bytes = starkPublic.toList then
        (recordedSignature message).toList
      else List.replicate 64 0)

@[reducible] def endTexts : ErrorTexts where
  debug text := text
  fromHexError _ := []
  signatureError := []

attribute [local instance] endBand endKeys endSigning endStrict endTexts

theorem end_readBack (bytes : List UInt8) :
    BandCrates.bs58Decode (BandCrates.bs58Encode bytes) = some bytes := by
  by_cases own : bytes = ed25519PubMulticodec ++ starkPublic.toList
  · subst own
    simp only [BandCrates.bs58Encode, BandCrates.bs58Decode, if_true]
  · have other : '?' :: toHex bytes ≠ starkMultikey := by
      intro same
      cases same
    simp only [BandCrates.bs58Encode, BandCrates.bs58Decode, if_neg own,
      if_neg other, TlVerify.hexDecode_toHex]
    rfl

theorem end_correct : Correct := by
  refine ⟨end_readBack, fun seed message => ⟨_, rfl, decide_eq_true ?_⟩⟩
  by_cases own : seed = starkSeed
  · subst own
    simp only [Signing.sign, Crates.publicKey, if_true]
  · have strange : zeroBytes.toList ≠ starkPublic.toList := by
      decide
    simp only [Signing.sign, Crates.publicKey, own, strange, if_false]
    rfl

/-- What `stark` signs for the last millisecond. -/
def endMessage : SignedMessage :=
  sign endBody starkSeed Int64.maxValue

theorem signedPayload_end :
    signedPayload endBody Int64.maxValue = endPayload := by
  decide

theorem endMessage_signatureHex :
    endMessage.signatureHex = toHex endSignature.toList := by
  have signed : Signing.sign starkSeed endPayload = endSignature :=
    (if_pos rfl).trans (if_pos rfl)
  rw [endMessage, sign, signedPayload_end, signed]

theorem signedPayload_day : signedPayload endBody dayMs = dayPayload := by
  decide

example :
    (sign endBody starkSeed dayMs).signatureHex = toHex daySignature.toList := by
  have signed : Signing.sign starkSeed dayPayload = daySignature :=
    (if_pos rfl).trans ((if_neg (by decide)).trans (if_pos rfl))
  rw [sign, signedPayload_day, signed]

/-- A message of the day is taken after five seconds, and not after an hour. -/
theorem freshAndBound_day :
    FreshAndBound .dev dayMs (dayMs + 5000) ∧
      FreshAndBound .release dayMs (dayMs + 3600000) ∧
      verify .dev (sign endBody starkSeed dayMs) (dayMs + 5000) = .ok () ∧
      verify .release (sign endBody starkSeed dayMs) (dayMs + 3600000) ≠
        .ok () := by
  have near : |(dayMs + 5000).toInt - dayMs.toInt| < 2 ^ 63 := by
    decide
  have soon :=
    (freshAndBound_iff end_correct .dev dayMs (dayMs + 5000)).mpr near
  have late :=
    (freshAndBound_iff end_correct .release dayMs (dayMs + 3600000)).mpr
      ⟨by decide, by decide⟩
  refine ⟨soon, late, (soon.accepts endBody starkSeed).mpr (by decide), ?_⟩
  intro accepted
  exact absurd ((late.accepts endBody starkSeed).mp accepted) (by decide)

theorem end_far :
    ¬ |Int64.minValue.toInt - Int64.maxValue.toInt| ≤ maxTimestampSkewMs := by
  decide

theorem endMessage_accepted :
    verify .release endMessage Int64.minValue = .ok () :=
  verify_eq_ok_iff.mpr
    ⟨1, by decide, by decide, signatureValid_sign end_correct _ _ _⟩

/-- The oldest clock takes the newest message, or stops the process. -/
theorem endMessage_not_fresh :
    ¬ FreshAndBound .release Int64.maxValue Int64.minValue ∧
      ¬ FreshAndBound .dev Int64.maxValue Int64.minValue := by
  constructor
  · intro holds
    exact end_far (holds.fresh endMessage rfl endMessage_accepted).1
  · intro holds
    have panics : Profile.dev.absDiff Int64.maxValue.toInt
        Int64.minValue.toInt = none := by
      decide
    exact holds.noOverflow endMessage rfl (verify_eq_panic_iff.mpr panics)

end

end TrustLayer.ThemisBandClient
