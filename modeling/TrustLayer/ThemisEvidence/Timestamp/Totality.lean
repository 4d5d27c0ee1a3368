import TrustLayer.ThemisEvidence.Timestamp.EcdsaSignature
import TrustLayer.ThemisEvidence.Timestamp.RsaPublicKey

/-!
# Which inputs stop the readers

An element with a short length beyond its input stops each reader that comes to
it.  The reader of RSA keys stops at a sequence that takes it to the end of the
input, and at an integer whose end is no place.
-/

namespace TrustLayer.ThemisEvidence.Timestamp

open TrustLayer.Library

variable {ε : Type} {profile : Profile} {input out value rest : List UInt8}

/-- The call returns, and what it returns stands in the input. -/
def Total (call : Call ε (List UInt8)) (input : List UInt8) : Prop :=
  call.Returns ∧ ∀ out, call = .ok out → out <:+: input

theorem total_iff {call : Call ε (List UInt8)} {fits : Prop}
    (returns : call.Returns ↔ fits)
    (within : ∀ out, call = .ok out → out <:+: input) :
    Total call input ↔ fits :=
  (and_iff_left within).trans returns

/-! ## The elements -/

theorem returns_readTlv : (readTlv profile input).Returns ↔
    ¬ Overruns input := by
  rw [readTlv_eq]
  exact returns_answer (Call.returns_error ()) fun _ _ _ _ => Call.returns_ok _

theorem readTlv_within {tag : UInt8}
    (read : readTlv profile input = .ok (out, tag)) : out <:+: input := by
  rw [readTlv_eq] at read
  rcases answer_eq_ok_iff.mp read with ⟨-, impossible⟩ |
    ⟨other, header, value, rest, element, same⟩
  · cases impossible
  · obtain ⟨rfl, -⟩ := Prod.mk.inj (Except.ok.inj same)
    obtain ⟨rfl, -⟩ := eq_of_front element
    exact (List.prefix_append _ _).isInfix

theorem returns_tlvValueBytes :
    (tlvValueBytes profile input : Call ε (List UInt8)).Returns ↔
      ¬ Overruns input := by
  rw [tlvValueBytes_eq]
  exact returns_answer (Call.returns_ok []) fun _ _ _ _ => Call.returns_ok _

theorem tlvValueBytes_within
    (read : (tlvValueBytes profile input : Call ε (List UInt8)) = .ok out) :
    out <:+: input := by
  rw [tlvValueBytes_eq] at read
  rcases answer_eq_ok_iff.mp read with ⟨-, same⟩ |
    ⟨tag, header, value, rest, element, same⟩
  · obtain rfl := Except.ok.inj same
    exact List.nil_infix
  · obtain rfl := Except.ok.inj same
    exact follow_within .into element

theorem returns_skipTlv :
    (skipTlv profile input : Call ε (List UInt8)).Returns ↔
      ¬ Overruns input := by
  rw [skipTlv_eq]
  exact returns_answer (Call.returns_ok []) fun _ _ _ _ => Call.returns_ok _

theorem skipTlv_within
    (read : (skipTlv profile input : Call ε (List UInt8)) = .ok out) :
    out <:+: input := by
  rw [skipTlv_eq] at read
  rcases answer_eq_ok_iff.mp read with ⟨-, same⟩ |
    ⟨tag, header, value, rest, element, same⟩
  · obtain rfl := Except.ok.inj same
    exact List.nil_infix
  · obtain rfl := Except.ok.inj same
    exact follow_within .past element

theorem Begins.within {tag : UInt8} (begins : Begins tag value rest input) :
    value <:+: input ∧ rest <:+: input := by
  obtain ⟨header, element⟩ := begins_iff.mp begins
  exact ⟨follow_within .into element,
    follow_within .past element⟩

/-! ## Signatures and keys -/

/-- The scalars are made of integers that stand in the input. -/
theorem derToEcdsaP384Signature_within [P384] {signature : Signature}
    (read : derToEcdsaP384Signature profile input = .ok signature) :
    ∃ r s, r <:+: input ∧ s <:+: input ∧
      P384.fromScalars (normalize r 48) (normalize s 48) = .ok signature := by
  obtain ⟨r, s, two⟩ := twoIntegers_of_eq_ok read
  rw [derToEcdsaP384Signature_of_twoIntegers two] at read
  obtain ⟨content, behind, middle, after, outer, first, second⟩ := two
  have inside := outer.within.1
  refine ⟨r, s, first.within.1.trans inside,
    second.within.1.trans (first.within.2.trans inside), ?_⟩
  rw [normalize_eq, normalize_eq]
  split at read
  next same => rw [same, Except.ok.inj read]
  next => cases read

theorem strip_suffix (bytes : List UInt8) :
    stripAsn1IntegerSign bytes <:+ bytes := by
  unfold stripAsn1IntegerSign
  split
  · split_ifs
    · exact List.suffix_cons _ _
    · exact List.suffix_rfl
  · exact List.suffix_rfl

theorem IntegerFront.within (integer : IntegerFront value rest input) :
    stripAsn1IntegerSign value <:+: input ∧ rest <:+: input := by
  obtain ⟨field, -, rfl⟩ := integer
  exact ⟨(strip_suffix value).isInfix.trans ⟨0x02 :: field, rest, rfl⟩,
    (List.suffix_append _ _).isInfix⟩

theorem parsePkcs1RsaPubkey_within (bounded : input.length < 2 ^ 63)
    {n e : List UInt8}
    (read : parsePkcs1RsaPubkey profile input = .ok (n, e)) :
    n <:+: input ∧ e <:+: input := by
  obtain ⟨modulus, exponent, ⟨place, middle, rest, -, nFront, eFront⟩, rfl,
    rfl⟩ := (parsePkcs1RsaPubkey_eq_ok_iff bounded).mp read
  have behind : input.drop place <:+: input :=
    (List.drop_suffix place input).isInfix
  exact ⟨nFront.within.1.trans behind,
    eFront.within.1.trans (nFront.within.2.trans behind)⟩

/-! ## The seven readers -/

theorem readers_total_iff [P384] (profile : Profile) (input : List UInt8)
    (bounded : input.length < 2 ^ 63) :
    (((readTlv profile input).Returns ∧
      ∀ tlv tag, readTlv profile input = .ok (tlv, tag) → tlv <:+: input) ↔
        ¬ Overruns input) ∧
    (Total (tlvValueBytes profile input : Call Unit (List UInt8)) input ↔
      ¬ Overruns input) ∧
    (Total (skipTlv profile input : Call Unit (List UInt8)) input ↔
      ¬ Overruns input) ∧
    (Total (extractEssCertHashV1 profile input) input ↔
      ¬ OverrunsOn (List.replicate 3 (.into, 0x30)) input) ∧
    (Total (extractEssCertHashV2 profile input) input ↔
      ¬ OverrunsOn
        [(.into, 0x30), (.into, 0x30), (.into, 0x30), (.past, 0x30)] input) ∧
    (((derToEcdsaP384Signature profile input).Returns ∧
      ∀ signature, derToEcdsaP384Signature profile input = .ok signature →
        ∃ r s, r <:+: input ∧ s <:+: input ∧
          P384.fromScalars (normalize r 48) (normalize s 48) =
            .ok signature) ↔
      ¬ OverrunsOn [(.into, 0x30), (.past, 0x02)] input) ∧
    (((parsePkcs1RsaPubkey profile input).Returns ∧
      ∀ n e, parsePkcs1RsaPubkey profile input = .ok (n, e) →
        n <:+: input ∧ e <:+: input) ↔
      ¬ Escapes profile input) := by
  refine ⟨?_, ?_, ?_, ?_, ?_, ?_, ?_⟩
  · exact (and_iff_left fun _ _ => readTlv_within).trans returns_readTlv
  · exact total_iff returns_tlvValueBytes fun _ => tlvValueBytes_within
  · exact total_iff returns_skipTlv fun _ => skipTlv_within
  · exact total_iff returns_extractEssCertHashV1
      fun _ => extractEssCertHashV1_within
  · exact total_iff returns_extractEssCertHashV2
      fun _ => extractEssCertHashV2_within
  · exact (and_iff_left fun _ => derToEcdsaP384Signature_within).trans
      returns_derToEcdsaP384Signature
  · exact (and_iff_left fun _ _ => parsePkcs1RsaPubkey_within bounded).trans
      (returns_parsePkcs1RsaPubkey bounded)

/-- The octet string of a hash is within the way of the first version. -/
theorem short_attribute_total :
    Total (extractEssCertHashV1 .release [0x30, 4, 0x30, 2, 0x04, 0])
      [0x30, 4, 0x30, 2, 0x04, 0] := by
  have total := (@readers_total_iff nistP384 .release
    [0x30, 4, 0x30, 2, 0x04, 0] (by decide)).2.2.2.1
  exact total.mpr (by simp [OverrunsOn, front, frontOf, Turn.follow])

/-- A length of one byte beyond the input, and a sequence that ends where its
integers would begin. -/
theorem readers_stopped :
    readTlv .release [0x30, 5, 0] = .error (.panic .outOfRange) ∧
    parsePkcs1RsaPubkey .release [0x30, 1] = .error (.panic .outOfRange) := by
  exact ⟨by decide, by decide⟩

end TrustLayer.ThemisEvidence.Timestamp
