import TrustLayer.Library.CharBoundary
import TrustLayer.TlVerify

/-!
# Packets that stop the verifier

The conversions to arrays follow checks of the lengths.  The prefix of the key
that is quoted for another tenant follows no check, and cuts a key of other
characters inside one of them.
-/

namespace TrustLayer.TlVerify

open TrustLayer.Library

/-- `try_into().expect("len checked")`. -/
def lenChecked (length : Nat) (bytes : List UInt8) :
    Except Stop (List UInt8) :=
  if bytes.length = length then .ok bytes else .error .panic

section

variable [Crates]

/-- The signature step, with its conversions. -/
def signatureStepChecked (packet : PacketFile)
    (hashHex signatureHex publicKeyHex : Str) : Except Stop Step :=
  if byteLen signatureHex ≠ 128 then
    .ok (.fail "signature_format"
      ("expected 128 hex chars, got ".toList ++ number (byteLen signatureHex)))
  else if byteLen publicKeyHex ≠ 64 then
    .ok (.fail "public_key_format"
      ("expected 64 hex chars, got ".toList ++ number (byteLen publicKeyHex)))
  else if byteLen hashHex ≠ 64 then
    .ok (.fail "ed25519_signature"
      ("hash is ".toList ++ number (byteLen hashHex) ++
        " chars; need 64 to verify".toList))
  else do
    let sigBytes ← decoded signatureHex
    let pkBytes ← decoded publicKeyHex
    let pkArr ← lenChecked 32 pkBytes
    let key ← (Crates.fromBytes pkArr).mapError fun detail =>
      .error (.ed25519 detail)
    let sig ← lenChecked 64 sigBytes
    let hashBytes ← decoded hashHex
    if verifiesAny packet key hashBytes sig then
      return .pass "ed25519_signature"
    else
      return .fail "ed25519_signature"
        ("signature did not verify against signed_payload, hash bytes, " ++
          "or canonical payload").toList

/-- The verifier, with its conversions. -/
def verifyChecked (packet : PacketFile) : Except Stop (List Step) := do
  let hashHex ← required "hash" packet.hash
  let signatureHex ← required "signature_hex" packet.signatureHex
  let publicKeyHex ← required "public_key_hex" packet.publicKeyHex
  let signature ← signatureStepChecked packet hashHex signatureHex publicKeyHex
  let timestamp ← timestampStep packet
  let tenant ← tenantStep packet publicKeyHex
  return [.pass "structural", hashFormatStep hashHex, signature,
    chainPrevStep packet, coverageStep packet, timestamp, tenant]

end

/-! ## Decoded lengths -/

theorem hexVal_ascii {char : Char} {index value : Nat}
    (found : hexVal char index = .ok value) : char.toNat < 128 := by
  unfold hexVal at found
  split_ifs at found with upper lower digit
  · exact lt_of_le_of_lt (show char.toNat ≤ 'F'.toNat from upper.2) (by decide)
  · exact lt_of_le_of_lt (show char.toNat ≤ 'f'.toNat from lower.2) (by decide)
  · exact lt_of_le_of_lt (show char.toNat ≤ '9'.toNat from digit.2) (by decide)

theorem hexPairs_eq_ok {chars : List Char} {index : Nat} {bytes : List UInt8}
    (even : chars.length % 2 = 0) (found : hexPairs chars index = .ok bytes) :
    chars.length = 2 * bytes.length ∧ ∀ char ∈ chars, char.toNat < 128 := by
  induction chars, index using hexPairs.induct generalizing bytes with
  | case1 index high low rest inductionHypothesis =>
      rw [hexPairs] at found
      obtain ⟨upper, highRead, found⟩ := bind_eq_ok_iff.mp found
      obtain ⟨lower, lowRead, found⟩ := bind_eq_ok_iff.mp found
      obtain ⟨behind, restRead, found⟩ := bind_eq_ok_iff.mp found
      obtain rfl := Except.ok.inj found
      simp only [List.length_cons] at even ⊢
      obtain ⟨length, ascii⟩ := inductionHypothesis (by omega) restRead
      refine ⟨by omega, ?_⟩
      intro char member
      rcases List.mem_cons.mp member with rfl | member
      · exact hexVal_ascii highRead
      · rcases List.mem_cons.mp member with rfl | member
        · exact hexVal_ascii lowRead
        · exact ascii char member
  | case2 chars index short =>
      cases chars with
      | nil =>
          obtain rfl : [] = bytes := Except.ok.inj found
          exact ⟨rfl, fun char member => absurd member List.not_mem_nil⟩
      | cons high rest =>
          cases rest with
          | nil => simp at even
          | cons low rest => exact absurd rfl (short high low rest)

/-- A text that decodes has two characters for each byte. -/
theorem hexDecode_eq_ok {text : Str} {bytes : List UInt8}
    (found : hexDecode text = .ok bytes) :
    byteLen text = 2 * bytes.length ∧ IsAscii text := by
  unfold hexDecode at found
  split_ifs at found with odd
  obtain ⟨length, ascii⟩ := hexPairs_eq_ok (not_not.mp odd) found
  refine ⟨length, fun char member => ?_⟩
  by_contra wide
  obtain ⟨front, rest, rfl⟩ := List.append_of_mem member
  rw [asBytes_append, asBytes_cons] at ascii
  obtain ⟨byte, behind, same⟩ := List.exists_cons_of_ne_nil (asBytes_ne_nil char)
  have inside : byte ∈ asBytes [char] := by
    rw [same]
    exact List.mem_cons_self
  have large := le_toNat_of_mem_asBytes wide byte inside
  have small := ascii byte (List.mem_append_right _
    (List.mem_append_left _ inside))
  omega

theorem lenChecked_of_eq {length : Nat} {bytes : List UInt8}
    (checked : bytes.length = length) : lenChecked length bytes = .ok bytes :=
  if_pos checked

theorem decoded_eq_ok {text : Str} {bytes : List UInt8}
    (found : decoded text = .ok bytes) :
    byteLen text = 2 * bytes.length ∧ IsAscii text :=
  hexDecode_eq_ok (mapError_eq_ok_iff.mp found)

theorem decoded_ne_panic (text : Str) : decoded text ≠ .error .panic := by
  intro stopped
  obtain ⟨message, -, impossible⟩ := mapError_eq_error_iff.mp stopped
  cases impossible

theorem sliceTo_eq_panic_iff {limit : Nat} {text : Str} :
    sliceTo limit text = .error .panic ↔ ¬ CharBoundary text limit := by
  rw [← byteLen_prefixWithin_eq_iff, sliceTo]
  split_ifs with whole
  · exact iff_of_false nofun (not_not.mpr whole)
  · exact iff_of_true rfl whole

/-! ## What the steps do -/

section

variable [Crates] {packet : PacketFile}
  {hashHex signatureHex publicKeyHex : Str}

/-- The conversions succeed: the texts that are decoded have the lengths. -/
theorem signatureStepChecked_eq :
    signatureStepChecked packet hashHex signatureHex publicKeyHex =
      signatureStep packet hashHex signatureHex publicKeyHex := by
  unfold signatureStepChecked signatureStep
  split_ifs with sigLen pkLen hashLen
  · rfl
  · rfl
  · rfl
  · cases sigRead : decoded signatureHex with
    | error stop => rfl
    | ok sig =>
        cases pkRead : decoded publicKeyHex with
        | error stop => rfl
        | ok pkBytes =>
            have sigWidth : sig.length = 64 := by
              have length := (decoded_eq_ok sigRead).1
              omega
            have pkWidth : pkBytes.length = 32 := by
              have length := (decoded_eq_ok pkRead).1
              omega
            simp only [bind, Except.bind, lenChecked_of_eq sigWidth,
              lenChecked_of_eq pkWidth]

theorem verifyChecked_eq : verifyChecked packet = verify packet := by
  simp only [verifyChecked, verify, signatureStepChecked_eq]

/-- The three texts have the lengths that the signature step decodes. -/
def Decodes (hashHex signatureHex publicKeyHex : Str) : Prop :=
  byteLen signatureHex = 128 ∧ byteLen publicKeyHex = 64 ∧ byteLen hashHex = 64

omit [Crates] in
instance : Decidable (Decodes hashHex signatureHex publicKeyHex) :=
  inferInstanceAs (Decidable (_ ∧ _ ∧ _))

theorem signatureStep_of_not_decodes (packet : PacketFile)
    (other : ¬ Decodes hashHex signatureHex publicKeyHex) :
    ∃ step, signatureStep packet hashHex signatureHex publicKeyHex =
      .ok step := by
  unfold signatureStep
  split_ifs with sigLen pkLen hashLen
  · exact ⟨_, rfl⟩
  · exact ⟨_, rfl⟩
  · exact ⟨_, rfl⟩
  · exact absurd ⟨not_not.mp sigLen, not_not.mp pkLen, not_not.mp hashLen⟩
      other

/-- A key of other characters does not decode. -/
theorem not_decodes_of_ok {step : Step} (wide : ¬ IsAscii publicKeyHex)
    (reached : signatureStep packet hashHex signatureHex publicKeyHex =
      .ok step) : ¬ Decodes hashHex signatureHex publicKeyHex := by
  rintro ⟨sigLen, pkLen, hashLen⟩
  unfold signatureStep at reached
  rw [if_neg (not_not.mpr sigLen), if_neg (not_not.mpr pkLen),
    if_neg (not_not.mpr hashLen)] at reached
  obtain ⟨sig, -, reached⟩ := bind_eq_ok_iff.mp reached
  obtain ⟨pkBytes, pkRead, -⟩ := bind_eq_ok_iff.mp reached
  exact wide (decoded_eq_ok pkRead).2

theorem signatureStep_ne_panic :
    signatureStep packet hashHex signatureHex publicKeyHex ≠
      .error .panic := by
  intro stopped
  unfold signatureStep at stopped
  split_ifs at stopped
  rcases bind_eq_error_iff.mp stopped with undecoded | ⟨sig, -, stopped⟩
  · exact decoded_ne_panic _ undecoded
  rcases bind_eq_error_iff.mp stopped with undecoded | ⟨pkBytes, -, stopped⟩
  · exact decoded_ne_panic _ undecoded
  rcases bind_eq_error_iff.mp stopped with unread | ⟨key, -, stopped⟩
  · obtain ⟨detail, -, impossible⟩ := mapError_eq_error_iff.mp unread
    cases impossible
  rcases bind_eq_error_iff.mp stopped with undecoded | ⟨hashBytes, -, stopped⟩
  · exact decoded_ne_panic _ undecoded
  · split_ifs at stopped <;> cases stopped

omit [Crates] in
theorem timestampStep_ne_panic : timestampStep packet ≠ .error .panic := by
  intro stopped
  unfold timestampStep at stopped
  split at stopped
  · rcases bind_eq_error_iff.mp stopped with undecoded | ⟨der, -, stopped⟩
    · exact decoded_ne_panic _ undecoded
    · split_ifs at stopped <;> cases stopped
  · cases stopped

omit [Crates] in
theorem timestampStep_ok_iff :
    (∃ step, timestampStep packet = .ok step) ↔
      ∀ derHex ∈ packet.rfc3161TsDerHex, ∃ der,
        hexDecode derHex = .ok der := by
  unfold timestampStep
  cases packet.rfc3161TsDerHex with
  | none => simp
  | some derHex =>
      simp only [Option.mem_def, Option.some.injEq, forall_eq']
      constructor
      · rintro ⟨step, reached⟩
        obtain ⟨der, read, -⟩ := bind_eq_ok_iff.mp reached
        exact ⟨der, mapError_eq_ok_iff.mp read⟩
      · rintro ⟨der, read⟩
        have found : decoded derHex = .ok der := mapError_eq_ok_iff.mpr read
        rw [found]
        by_cases empty : der.isEmpty = true
        · exact ⟨.fail "rfc3161_timestamp" "empty DER".toList, if_pos empty⟩
        · exact ⟨.pass "rfc3161_timestamp", if_neg empty⟩

/-- The sixteenth byte of the key lies inside a character. -/
def CutsKey (publicKeyHex : Str) : Prop :=
  16 < byteLen publicKeyHex ∧ ¬ CharBoundary publicKeyHex 16

omit [Crates] in
instance : Decidable (CutsKey publicKeyHex) :=
  inferInstanceAs (Decidable (_ ∧ ¬ _))

omit [Crates] in
theorem CutsKey.not_ascii (cuts : CutsKey publicKeyHex) :
    ¬ IsAscii publicKeyHex :=
  fun ascii => cuts.2 (charBoundary_of_ascii ascii cuts.1.le)

omit [Crates] in
theorem sliceTo_min_eq_panic_iff :
    sliceTo (min 16 (byteLen publicKeyHex)) publicKeyHex = .error .panic ↔
      CutsKey publicKeyHex := by
  rw [sliceTo_eq_panic_iff]
  by_cases long : 16 < byteLen publicKeyHex
  · rw [Nat.min_eq_left long.le]
    exact ⟨fun inside => ⟨long, inside⟩, fun cuts => cuts.2⟩
  · rw [Nat.min_eq_right (Nat.le_of_not_lt long)]
    exact iff_of_false (not_not.mpr (charBoundary_byteLen publicKeyHex))
      fun cuts => long cuts.1

theorem tenantStep_eq_panic_iff :
    tenantStep packet publicKeyHex = .error .panic ↔
      (∃ tenantId, packet.tenantId = some tenantId) ∧
        CutsKey publicKeyHex := by
  unfold tenantStep
  cases packet.tenantId with
  | none => simp
  | some tenantId =>
      simp only
      split_ifs with same
      · -- the derived key is hexadecimal
        refine iff_of_false nofun fun both => both.2.not_ascii ?_
        rw [← same]
        exact toHex_ascii _
      · rw [bind_eq_error_iff, sliceTo_min_eq_panic_iff]
        constructor
        · rintro (cuts | ⟨front, -, stopped⟩)
          · exact ⟨⟨tenantId, rfl⟩, cuts⟩
          · cases stopped
        · exact fun both => .inl both.2

/-! ## The packets -/

/-- The packet has a tenant and a key that is cut inside a character, its texts
are not all of the lengths that are decoded, and a timestamp of it decodes. -/
def StopsVerifier (packet : PacketFile) : Prop :=
  ∃ hashHex signatureHex publicKeyHex tenantId,
    packet.hash = some hashHex ∧ packet.signatureHex = some signatureHex ∧
    packet.publicKeyHex = some publicKeyHex ∧
    packet.tenantId = some tenantId ∧ CutsKey publicKeyHex ∧
    ¬ Decodes hashHex signatureHex publicKeyHex ∧
    ∀ derHex ∈ packet.rfc3161TsDerHex, ∃ der, hexDecode derHex = .ok der

omit [Crates] in
theorem required_ne_panic (field : String) (value : Option Str) :
    required field value ≠ .error .panic := by
  cases value <;> simp [required]

theorem verify_eq_panic_iff :
    verify packet = .error .panic ↔ StopsVerifier packet := by
  constructor
  · intro stopped
    unfold verify at stopped
    rcases bind_eq_error_iff.mp stopped with absent | ⟨hashHex, hash, stopped⟩
    · exact absurd absent (required_ne_panic _ _)
    rcases bind_eq_error_iff.mp stopped with
      absent | ⟨signatureHex, signature, stopped⟩
    · exact absurd absent (required_ne_panic _ _)
    rcases bind_eq_error_iff.mp stopped with
      absent | ⟨publicKeyHex, publicKey, stopped⟩
    · exact absurd absent (required_ne_panic _ _)
    rcases bind_eq_error_iff.mp stopped with
      panicked | ⟨signed, signedIs, stopped⟩
    · exact absurd panicked signatureStep_ne_panic
    rcases bind_eq_error_iff.mp stopped with
      panicked | ⟨stamped, stampedIs, stopped⟩
    · exact absurd panicked timestampStep_ne_panic
    rcases bind_eq_error_iff.mp stopped with panicked | ⟨tenant, -, stopped⟩
    · obtain ⟨⟨tenantId, tenant⟩, cuts⟩ := tenantStep_eq_panic_iff.mp panicked
      exact ⟨hashHex, signatureHex, publicKeyHex, tenantId,
        required_eq_ok_iff.mp hash, required_eq_ok_iff.mp signature,
        required_eq_ok_iff.mp publicKey, tenant, cuts,
        not_decodes_of_ok cuts.not_ascii signedIs,
        timestampStep_ok_iff.mp ⟨stamped, stampedIs⟩⟩
    · cases stopped
  · rintro ⟨hashHex, signatureHex, publicKeyHex, tenantId, hash, signature,
      publicKey, tenant, cuts, other, stampDecodes⟩
    obtain ⟨signed, signedIs⟩ := signatureStep_of_not_decodes packet other
    obtain ⟨stamped, stampedIs⟩ := timestampStep_ok_iff.mpr stampDecodes
    have panicked : tenantStep packet publicKeyHex = .error .panic :=
      tenantStep_eq_panic_iff.mpr ⟨⟨tenantId, tenant⟩, cuts⟩
    rw [verify, required_eq_ok_iff.mpr hash, required_eq_ok_iff.mpr signature,
      required_eq_ok_iff.mpr publicKey]
    simp only [bind, Except.bind, signedIs, stampedIs, panicked]

/-- The verifier ends with its steps or an error, except on those packets. -/
theorem verifyChecked_ne_panic_iff (packet : PacketFile) :
    verifyChecked packet ≠ .error .panic ↔ ¬ StopsVerifier packet := by
  rw [verifyChecked_eq, ne_eq, verify_eq_panic_iff]

end

/-- A short key of two-byte characters behind one of a single byte. -/
def accentedPacket : PacketFile :=
  { starkPacket with
    publicKeyHex := some ('a' :: List.replicate 10 'é') }

theorem accentedPacket_stops :
    @verifyChecked starkCrates accentedPacket = .error .panic := by
  rw [@verifyChecked_eq starkCrates, @verify_eq_panic_iff starkCrates]
  have short : byteLen ('a' :: List.replicate 10 'é') ≠ 64 := by decide
  refine ⟨_, _, _, _, rfl, rfl, rfl, rfl, by decide,
    fun decodes => short decodes.2.1, ?_⟩
  intro derHex member
  cases member

end TrustLayer.TlVerify
