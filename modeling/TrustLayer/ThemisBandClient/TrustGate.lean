import TrustLayer.Library.Register
import TrustLayer.ThemisBandClient.SignedMessage

/-!
# The trust gate

A gate pins the key of every peer that it lets through.  The key that verifies
a message is the one in the identity of its sender, not the pinned one.
-/

namespace TrustLayer.ThemisBandClient

open TrustLayer.Library hiding Json
open TrustLayer.ThemisEvidence (ErrorTexts Signing StrictVerifying)
open TrustLayer.TlVerify (Crates VerifyingKey starkSeed starkPublic
  strangerPublic)

structure TrustGate where
  knownDids : Did → Option VerifyingKey
  allowUnsignedForTesting : Bool

inductive TrustGateError where
  | signed (error : SignedMessageError)
  | untrustedDid (did : Str)
  deriving DecidableEq

namespace TrustGate

def new (allowUnsignedForTesting : Bool) : TrustGate :=
  { knownDids := fun _ => none, allowUnsignedForTesting }

def trust (gate : TrustGate) (did : Did) (pubkey : VerifyingKey) : TrustGate :=
  { gate with knownDids := Function.update gate.knownDids did (some pubkey) }

/-- The gate behind a sequence of calls of `trust`. -/
def after (calls : List (Did × VerifyingKey)) : TrustGate :=
  calls.foldl (fun gate call => gate.trust call.1 call.2) (.new false)

theorem after_concat (calls : List (Did × VerifyingKey))
    (call : Did × VerifyingKey) :
    after (calls ++ [call]) = (after calls).trust call.1 call.2 := by
  rw [after, List.foldl_append]
  rfl

theorem after_knownDids (calls : List (Did × VerifyingKey)) :
    (after calls).knownDids = written calls := by
  induction calls using List.reverseRecOn with
  | nil => rfl
  | append_singleton calls call induction =>
      rw [after_concat, written_concat, ← induction]
      rfl

theorem after_allowUnsigned (calls : List (Did × VerifyingKey)) :
    (after calls).allowUnsignedForTesting = false := by
  induction calls using List.reverseRecOn with
  | nil => rfl
  | append_singleton calls call induction =>
      rw [after_concat]
      exact induction

section

variable [BandCrates] [Crates] [StrictVerifying] [ErrorTexts]

def check (profile : Profile) (gate : TrustGate) (msg : SignedMessage)
    (nowMs : Int64) : Except (Stop TrustGateError) Unit :=
  match verify profile msg nowMs with
  | .error .panic => .error .panic
  | .error (.error error) => .error (.error (.signed error))
  | .ok () =>
      if (gate.knownDids msg.did).isNone ∧ ¬ gate.allowUnsignedForTesting then
        .error (.error (.untrustedDid msg.did.display))
      else .ok ()

variable {profile : Profile} {calls : List (Did × VerifyingKey)}
  {msg : SignedMessage} {nowMs : Int64}

theorem check_eq_ok_iff {gate : TrustGate} :
    gate.check profile msg nowMs = .ok () ↔
      verify profile msg nowMs = .ok () ∧
        ((∃ key, gate.knownDids msg.did = some key) ∨
          gate.allowUnsignedForTesting) := by
  unfold check
  cases verified : verify profile msg nowMs with
  | error stop =>
      cases stop with
      | panic => simp
      | error error => simp
  | ok =>
      cases known : gate.knownDids msg.did with
      | none => simp
      | some key => simp

theorem check_after_eq_ok_iff :
    (after calls).check profile msg nowMs = .ok () ↔
      verify profile msg nowMs = .ok () ∧
        ∃ key, LastWrite calls msg.did key := by
  simp only [check_eq_ok_iff, after_knownDids, after_allowUnsigned,
    written_eq_some_iff, Bool.false_eq_true, or_false]

/-! ## Pinned keys -/

/-- What pinning promises. -/
structure PinnedOnly (profile : Profile) (calls : List (Did × VerifyingKey)) :
    Prop where
  pinned : ∀ msg nowMs, (after calls).check profile msg nowMs = .ok () →
    ∃ key, LastWrite calls msg.did key ∧ SignedBy key msg
  repinned : ∀ msg nowMs old key, (msg.did, old) ∈ calls →
    LastWrite calls msg.did key → key ≠ old → SignedBy old msg →
    (after calls).check profile msg nowMs ≠ .ok ()

/-- Whoever has a message to show is pinned with the key of its own name. -/
def PinsOwnKeys (calls : List (Did × VerifyingKey)) : Prop :=
  ∀ msg key, SignatureValid msg → LastWrite calls msg.did key →
    didToVerifyingKey msg.did = .ok key

omit [BandCrates] [Crates] [ErrorTexts] in
/-- A signature on a message verifies under one key. -/
def ExclusiveOwnership : Prop :=
  ∀ key other message signature,
    StrictVerifying.verifyStrict key message signature = true →
    StrictVerifying.verifyStrict other message signature = true → key = other

omit [Crates] [ErrorTexts] in
theorem signedBy_unique {key other : VerifyingKey}
    (exclusive : ExclusiveOwnership) (signed : SignedBy key msg)
    (otherSigned : SignedBy other msg) : key = other := by
  obtain ⟨signature, decoded, -, verified⟩ := signed
  obtain ⟨otherSignature, otherDecoded, -, otherVerified⟩ := otherSigned
  obtain rfl := Except.ok.inj (decoded.symm.trans otherDecoded)
  exact exclusive key other _ signature verified otherVerified

theorem verify_own_time (valid : SignatureValid msg) :
    verify profile msg msg.timestampMs = .ok () := by
  refine verify_eq_ok_iff.mpr ⟨0, ?_, by decide, valid⟩
  rw [Profile.absDiff_of_lt (by simp)]
  simp

theorem pinnedOnly_iff (exclusive : ExclusiveOwnership) (profile : Profile)
    (calls : List (Did × VerifyingKey)) :
    PinnedOnly profile calls ↔ PinsOwnKeys calls := by
  constructor
  · intro holds msg key valid last
    have admitted : (after calls).check profile msg msg.timestampMs = .ok () :=
      check_after_eq_ok_iff.mpr ⟨verify_own_time valid, key, last⟩
    obtain ⟨pinned, pinnedLast, signed⟩ := holds.pinned _ _ admitted
    have same : pinned = key := Option.some.inj
      ((written_eq_some_iff.mpr pinnedLast).symm.trans
        (written_eq_some_iff.mpr last))
    obtain ⟨own, read, ownSigned⟩ := valid
    rw [read, signedBy_unique exclusive ownSigned signed, same]
  · intro own
    have signedByPinned : ∀ {msg : SignedMessage} {nowMs key},
        (after calls).check profile msg nowMs = .ok () →
        LastWrite calls msg.did key → SignedBy key msg := by
      intro msg nowMs key admitted last
      obtain ⟨accepted, -⟩ := check_after_eq_ok_iff.mp admitted
      obtain ⟨-, -, -, valid⟩ := verify_eq_ok_iff.mp accepted
      have read := own msg key valid last
      obtain ⟨other, otherRead, signed⟩ := valid
      obtain rfl := Except.ok.inj (otherRead.symm.trans read)
      exact signed
    constructor
    · intro msg nowMs admitted
      obtain ⟨-, key, last⟩ := check_after_eq_ok_iff.mp admitted
      exact ⟨key, last, signedByPinned admitted last⟩
    · intro msg nowMs old key _ last other oldSigned admitted
      exact other
        (signedBy_unique exclusive (signedByPinned admitted last) oldSigned)

end

/-! ## A key that is pinned anew -/

section

@[reducible] def pinStrict : StrictVerifying where
  verifyStrict key message signature :=
    decide (key.bytes = starkPublic.toList ∧ message = endPayload ∧
      signature = endSignature.toList)

attribute [local instance] endBand endKeys endTexts pinStrict

def starkKey : VerifyingKey :=
  { bytes := starkPublic.toList }

def strangerKey : VerifyingKey :=
  { bytes := strangerPublic.toList }

def starkDid : Did :=
  .fromVerifyingKey starkKey

/-- The stranger's key, and then the own one. -/
def restoredCalls : List (Did × VerifyingKey) :=
  [(starkDid, strangerKey), (starkDid, starkKey)]

/-- The own key, and then the stranger's. -/
def replacedCalls : List (Did × VerifyingKey) :=
  [(starkDid, starkKey), (starkDid, strangerKey)]

theorem pin_exclusiveOwnership : ExclusiveOwnership := by
  intro key other message signature verified otherVerified
  obtain ⟨own, -⟩ := of_decide_eq_true verified
  obtain ⟨otherOwn, -⟩ := of_decide_eq_true otherVerified
  obtain ⟨bytes⟩ := key
  obtain ⟨otherBytes⟩ := other
  exact congrArg VerifyingKey.mk (own.trans otherOwn.symm)

theorem didToVerifyingKey_starkDid : didToVerifyingKey starkDid = .ok starkKey :=
  didToVerifyingKey_fromVerifyingKey end_readBack rfl rfl

theorem restoredCalls_pinsOwnKeys : PinsOwnKeys restoredCalls := by
  intro msg key _ last
  have held := written_eq_some_iff.mpr last
  simp only [restoredCalls, written, List.foldl_cons, List.foldl_nil,
    Function.update_apply] at held
  split_ifs at held with own
  obtain rfl := Option.some.inj held
  rw [own]
  exact didToVerifyingKey_starkDid

theorem restoredCalls_pinnedOnly : PinnedOnly .release restoredCalls :=
  (pinnedOnly_iff pin_exclusiveOwnership .release restoredCalls).mpr
    restoredCalls_pinsOwnKeys

theorem signedBy_endMessage : SignedBy starkKey endMessage := by
  refine ⟨endSignature.toList, ?_, by simp, ?_⟩
  · rw [endMessage_signatureHex]
    exact TlVerify.hexDecode_toHex _
  · exact decide_eq_true ⟨rfl, signedPayload_end, rfl⟩

/-- The new key is pinned, and the old one still opens the gate. -/
theorem replacedCalls_not_pinnedOnly : ¬ PinnedOnly .release replacedCalls := by
  intro holds
  have valid : SignatureValid endMessage :=
    ⟨starkKey, didToVerifyingKey_starkDid, signedBy_endMessage⟩
  have last : LastWrite replacedCalls endMessage.did strangerKey :=
    ⟨[(starkDid, starkKey)], [], rfl, by simp⟩
  have admitted : (after replacedCalls).check .release endMessage
      endMessage.timestampMs = .ok () :=
    check_after_eq_ok_iff.mpr ⟨verify_own_time valid, strangerKey, last⟩
  have other : strangerKey ≠ starkKey := by
    decide
  exact holds.repinned endMessage _ starkKey strangerKey
    List.mem_cons_self last other signedBy_endMessage admitted

end

end TrustGate

end TrustLayer.ThemisBandClient
