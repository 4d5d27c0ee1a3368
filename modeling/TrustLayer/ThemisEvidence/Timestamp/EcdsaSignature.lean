import TrustLayer.Library.Encoding
import TrustLayer.ThemisEvidence.Timestamp.EssCertHash

/-!
# The two integers of an ECDSA signature

The reader takes the integers at the front of the sequence, pads each to the 48
bytes of a P-384 scalar or keeps the last 48, and leaves the range to the
scalars.
-/

namespace TrustLayer.ThemisEvidence.Timestamp

open TrustLayer.Library

inductive TimestampError where
  | asn1 (text : Str)
  | cms (text : Str)
  | x509 (text : Str)
  | hashMismatch (expectedHex gotHex : Str)
  | signerCertMissing
  | chainInvalid (text : Str)
  | signatureInvalid (text : Str)
  | essBindingFailed (text : Str)
  deriving DecidableEq

/-- The two scalars, in 48 bytes each. -/
structure Signature where
  r : List UInt8
  s : List UInt8
  deriving DecidableEq

/-- The `p384` crate, and the order of its curve. -/
class P384 where
  order : Nat
  fromScalars : (r s : List UInt8) → Except Str Signature

section

variable [P384]

/-- The crate takes the scalars from one up to the order. -/
def ScalarRange (scalar : Nat) : Prop :=
  0 < scalar ∧ scalar < P384.order

instance (scalar : Nat) : Decidable (ScalarRange scalar) :=
  inferInstanceAs (Decidable (0 < scalar ∧ scalar < P384.order))

structure NonZeroScalars : Prop where
  order_lt : P384.order < 256 ^ 48
  accepts : ∀ r s : List UInt8, r.length = 48 → s.length = 48 →
    ScalarRange (bytesValue r) → ScalarRange (bytesValue s) →
      P384.fromScalars r s = .ok ⟨r, s⟩
  refuses : ∀ r s : List UInt8, r.length = 48 → s.length = 48 →
    ¬ (ScalarRange (bytesValue r) ∧ ScalarRange (bytesValue s)) →
      ∃ text, P384.fromScalars r s = .error text

end

def normalize (b : List UInt8) (target : Nat) : List UInt8 :=
  let b := if b.head? = some 0 ∧ 1 < b.length then b.drop 1 else b
  if b.length ≤ target then List.replicate (target - b.length) 0 ++ b
  else b.drop (b.length - target)

/-- The bytes of `r` or `s` at the front. -/
def integerTlv (profile : Profile) (name : Str) (p : List UInt8) :
    Call TimestampError (List UInt8) := do
  let (tlv, tag) ← (readTlv profile p).mapError fun _ =>
    .signatureInvalid ("DER sig: missing ".toList ++ name)
  if tag ≠ 0x02 then
    .error (.error (.signatureInvalid ("DER sig: ".toList ++ name ++
      " not INTEGER, got 0x".toList ++ toHex [tag])))
  else valueSlice profile p tlv (tlvValueLen p)

def outerSequence (profile : Profile) (der : List UInt8) :
    Call TimestampError (List UInt8) := do
  let (_, outerTag) ← (readTlv profile der).mapError fun _ =>
    .signatureInvalid "DER sig: missing SEQUENCE".toList
  if outerTag ≠ 0x30 then
    .error (.error (.signatureInvalid
      ("DER sig: expected SEQUENCE, got 0x".toList ++ toHex [outerTag])))
  else tlvValueBytes profile der

def derToEcdsaP384Signature [P384] (profile : Profile) (der : List UInt8) :
    Call TimestampError Signature := do
  let p ← outerSequence profile der
  let rBytes ← integerTlv profile "r".toList p
  let p ← skipTlv profile p
  let sBytes ← integerTlv profile "s".toList p
  match P384.fromScalars (normalize rBytes 48) (normalize sBytes 48) with
  | .ok signature => .ok signature
  | .error text =>
      .error (.error (.signatureInvalid ("from_scalars: ".toList ++ text)))

/-! ## Scalars of a fixed width -/

theorem normalize_length (b : List UInt8) (target : Nat) :
    (normalize b target).length = target := by
  unfold normalize
  simp only
  generalize (if b.head? = some 0 ∧ 1 < b.length then b.drop 1 else b) = c
  split_ifs with short
  · rw [List.length_append, List.length_replicate]
    omega
  · rw [List.length_drop]
    omega

theorem bytesValue_dropZero (b : List UInt8) :
    bytesValue (if b.head? = some 0 ∧ 1 < b.length then b.drop 1 else b) =
      bytesValue b := by
  split_ifs with leading
  · obtain ⟨zero, -⟩ := leading
    obtain ⟨rest, rfl⟩ := List.head?_eq_some_iff.mp zero
    rw [bytesValue_cons]
    simp
  · rfl

/-- The last bytes are those of the number, whatever stands in front. -/
theorem normalize_eq (b : List UInt8) (target : Nat) :
    normalize b target = fixedBytes target (bytesValue b) := by
  refine eq_of_bytesValue_eq ?_ ?_
  · rw [normalize_length, fixedBytes_length]
  · rw [bytesValue_fixedBytes, ← bytesValue_dropZero b]
    unfold normalize
    simp only
    generalize (if b.head? = some 0 ∧ 1 < b.length then b.drop 1 else b) = c
    split_ifs with short
    · rw [bytesValue_replicate_zero_append, Nat.mod_eq_of_lt]
      exact (bytesValue_lt c).trans_le (Nat.pow_le_pow_right (by omega) short)
    · have split := List.take_append_drop (c.length - target) c
      have last : (c.drop (c.length - target)).length = target := by
        rw [List.length_drop]
        omega
      have low := bytesValue_lt (c.drop (c.length - target))
      rw [last] at low
      conv_rhs => rw [← split, bytesValue_append, last]
      rw [Nat.mul_add_mod_of_lt low]

/-! ## One integer after the other -/

variable {profile : Profile} {input value rest : List UInt8} {name : Str}

theorem outerSequence_eq (input : List UInt8) :
    outerSequence profile input =
      (front input).answer
        (.error (.error (.signatureInvalid "DER sig: missing SEQUENCE".toList)))
        fun tag _ value _ =>
          if tag ≠ 0x30 then .error (.error (.signatureInvalid
            ("DER sig: expected SEQUENCE, got 0x".toList ++ toHex [tag])))
          else .ok value := by
  rw [outerSequence, readTlv_eq, tlvValueBytes_eq]
  cases front input with
  | none => rfl
  | overrun => rfl
  | element tag header value rest => rfl

theorem integerTlv_eq (name : Str) (input : List UInt8) :
    integerTlv profile name input =
      (front input).answer
        (.error (.error
          (.signatureInvalid ("DER sig: missing ".toList ++ name))))
        fun tag _ value _ =>
          if tag ≠ 0x02 then .error (.error (.signatureInvalid
            ("DER sig: ".toList ++ name ++ " not INTEGER, got 0x".toList ++
              toHex [tag])))
          else .ok value := by
  rw [integerTlv, readTlv_eq]
  cases same : front input with
  | none => rfl
  | overrun => rfl
  | element tag header value rest =>
      obtain ⟨rfl, field⟩ := eq_of_front same
      simp only [Front.answer, Call.mapError, Call.ok_bind]
      rw [tlvValueLen_of_field field, valueSlice_of_field field]

theorem outerSequence_eq_ok_iff :
    outerSequence profile input = .ok value ↔
      ∃ rest, Begins 0x30 value rest input := by
  simp only [begins_iff]
  rw [outerSequence_eq]
  cases front input with
  | none => simp [Front.answer]
  | overrun => simp [Front.answer]
  | element tag header content behind =>
      by_cases sequence : tag = 0x30
      · simp [Front.answer, sequence]
      · simp [Front.answer, sequence]

theorem integerTlv_eq_ok_iff :
    integerTlv profile name input = .ok value ↔
      ∃ rest, Begins 0x02 value rest input := by
  simp only [begins_iff]
  rw [integerTlv_eq]
  cases front input with
  | none => simp [Front.answer]
  | overrun => simp [Front.answer]
  | element tag header content behind =>
      by_cases integer : tag = 0x02
      · simp [Front.answer, integer]
      · simp [Front.answer, integer]

theorem skipTlv_of_begins {ε : Type} {tag : UInt8}
    (begins : Begins tag value rest input) :
    (skipTlv profile input : Call ε (List UInt8)) = .ok rest := by
  obtain ⟨header, field, rfl⟩ := begins
  exact skipTlv_of_field field

/-- The two integers at the front of a sequence at the front. -/
def TwoIntegers (der r s : List UInt8) : Prop :=
  ∃ content behind middle after, Begins 0x30 content behind der ∧
    Begins 0x02 r middle content ∧ Begins 0x02 s after middle

section

variable [P384] {der r s : List UInt8} {signature : Signature}

theorem derToEcdsaP384Signature_of_twoIntegers (two : TwoIntegers der r s) :
    derToEcdsaP384Signature profile der =
      match P384.fromScalars (fixedBytes 48 (bytesValue r))
        (fixedBytes 48 (bytesValue s)) with
      | .ok signature => .ok signature
      | .error text =>
          .error (.error (.signatureInvalid
            ("from_scalars: ".toList ++ text))) := by
  obtain ⟨content, behind, middle, after, outer, first, second⟩ := two
  rw [derToEcdsaP384Signature, outerSequence_eq_ok_iff.mpr ⟨_, outer⟩,
    Call.ok_bind, integerTlv_eq_ok_iff.mpr ⟨_, first⟩, Call.ok_bind,
    skipTlv_of_begins first, Call.ok_bind,
    integerTlv_eq_ok_iff.mpr ⟨_, second⟩, Call.ok_bind, normalize_eq,
    normalize_eq]

/-- Whatever is read is read from two integers. -/
theorem twoIntegers_of_eq_ok
    (read : derToEcdsaP384Signature profile der = .ok signature) :
    ∃ r s, TwoIntegers der r s := by
  obtain ⟨content, sequence, read⟩ := bind_eq_ok_iff.mp read
  obtain ⟨r, first, read⟩ := bind_eq_ok_iff.mp read
  obtain ⟨middle, skipped, read⟩ := bind_eq_ok_iff.mp read
  obtain ⟨s, second, -⟩ := bind_eq_ok_iff.mp read
  obtain ⟨behind, outer⟩ := outerSequence_eq_ok_iff.mp sequence
  obtain ⟨between, inner⟩ := integerTlv_eq_ok_iff.mp first
  obtain ⟨after, last⟩ := integerTlv_eq_ok_iff.mp second
  rw [skipTlv_of_begins inner] at skipped
  obtain rfl := Except.ok.inj skipped
  exact ⟨r, s, content, behind, between, after, outer, inner, last⟩

theorem returns_integers (content : List UInt8) :
    (do
      let rBytes ← integerTlv profile "r".toList content
      let p ← skipTlv profile content
      let sBytes ← integerTlv profile "s".toList p
      match P384.fromScalars (normalize rBytes 48) (normalize sBytes 48) with
      | .ok signature => .ok signature
      | .error text => .error (.error
          (.signatureInvalid ("from_scalars: ".toList ++ text))) :
      Call TimestampError Signature).Returns ↔
        ¬ OverrunsOn [(.past, 0x02)] content := by
  rw [integerTlv_eq, answer_bind]
  apply returns_answer_cons
  · exact Call.returns_error _
  · intro tag header value rest differs
    rw [if_pos differs]
    exact Call.returns_error _
  · intro header value rest element
    have behind : (skipTlv profile content : Call TimestampError _) =
        .ok rest := by
      rw [skipTlv_eq, element]
      rfl
    rw [if_neg (not_not.mpr rfl), Call.ok_bind, behind, Call.ok_bind,
      integerTlv_eq, answer_bind]
    refine returns_answer (Call.returns_error _) ?_
    intro tag header value rest
    split_ifs
    · exact Call.returns_error _
    · rw [Call.ok_bind]
      split
      · exact Call.returns_ok _
      · exact Call.returns_error _

theorem returns_derToEcdsaP384Signature :
    (derToEcdsaP384Signature profile der).Returns ↔
      ¬ OverrunsOn [(.into, 0x30), (.past, 0x02)] der := by
  rw [derToEcdsaP384Signature, outerSequence_eq, answer_bind]
  apply returns_answer_cons
  · exact Call.returns_error _
  · intro tag header value rest differs
    rw [if_pos differs]
    exact Call.returns_error _
  · intro header content behind _
    rw [if_neg (not_not.mpr rfl), Call.ok_bind]
    exact returns_integers content

/-! ## What is accepted -/

omit [P384] in
/-- The octets of an integer, with or without a zero in front. -/
def Octets (number : Nat) (bytes : List UInt8) : Prop :=
  bytes = valueBytes number ∨ bytes = 0 :: valueBytes number

omit [P384] in
def signatureDer (r s : List UInt8) : List UInt8 :=
  Der.encode 0x30 (Der.encode 0x02 r ++ Der.encode 0x02 s)

omit [P384] in
theorem Octets.bytesValue {number : Nat} {bytes : List UInt8}
    (octets : Octets number bytes) : bytesValue bytes = number := by
  rcases octets with rfl | rfl
  · exact bytesValue_valueBytes number
  · rw [bytesValue_cons, bytesValue_valueBytes]
    simp

omit [P384] in
theorem Octets.length_le {number : Nat} {bytes : List UInt8}
    (octets : Octets number bytes) (high : number < 256 ^ 48) :
    bytes.length ≤ 49 := by
  have least := valueBytes_length_le high
  rcases octets with rfl | rfl
  · omega
  · rw [List.length_cons]
    omega

omit [P384] in
theorem twoIntegers_signatureDer (first : r.length ≤ 49)
    (second : s.length ≤ 49) : TwoIntegers (signatureDer r s) r s := by
  have both : (Der.encode 0x02 r ++ Der.encode 0x02 s).length < 128 := by
    rw [List.length_append, Der.encode_length_of_lt (by omega),
      Der.encode_length_of_lt (by omega)]
    omega
  have outer := begins_encode 0x30 [] both
  have last : Begins 0x02 s [] (Der.encode 0x02 s ++ []) :=
    begins_encode 0x02 [] (by omega)
  rw [List.append_nil] at outer last
  exact ⟨_, _, _, _, outer, begins_encode 0x02 _ (by omega), last⟩

theorem fromScalars_range (scalars : NonZeroScalars)
    {left right : List UInt8} (first : left.length = 48)
    (second : right.length = 48) :
    P384.fromScalars left right = .ok signature ↔
      ScalarRange (bytesValue left) ∧ ScalarRange (bytesValue right) ∧
        signature = ⟨left, right⟩ := by
  by_cases inside : ScalarRange (bytesValue left) ∧
      ScalarRange (bytesValue right)
  · rw [scalars.accepts left right first second inside.1 inside.2]
    constructor
    · intro same
      exact ⟨inside.1, inside.2, (Except.ok.inj same).symm⟩
    · rintro ⟨-, -, rfl⟩
      rfl
  · obtain ⟨text, refused⟩ := scalars.refuses left right first second inside
    rw [refused]
    exact iff_of_false nofun fun both => inside ⟨both.1, both.2.1⟩

omit [P384] in
theorem bytesValue_scalarBytes (number : Nat) :
    bytesValue (fixedBytes 48 number) = number % 2 ^ 384 := by
  have width : 2 ^ 384 = 256 ^ 48 := by
    rw [show 256 = 2 ^ 8 from rfl, ← pow_mul]
  rw [bytesValue_fixedBytes, width]

/-- What is accepted is two integers at the front of a sequence. -/
theorem derToEcdsaP384Signature_eq_ok_iff (scalars : NonZeroScalars) :
    derToEcdsaP384Signature profile der = .ok signature ↔
      ∃ r s, TwoIntegers der r s ∧
        ScalarRange (bytesValue r % 2 ^ 384) ∧
        ScalarRange (bytesValue s % 2 ^ 384) ∧
        signature = ⟨fixedBytes 48 (bytesValue r),
          fixedBytes 48 (bytesValue s)⟩ := by
  constructor
  · intro read
    obtain ⟨r, s, two⟩ := twoIntegers_of_eq_ok read
    rw [derToEcdsaP384Signature_of_twoIntegers two] at read
    split at read
    next same =>
      obtain rfl := Except.ok.inj read
      rw [fromScalars_range scalars (fixedBytes_length _ _)
        (fixedBytes_length _ _), bytesValue_scalarBytes,
        bytesValue_scalarBytes] at same
      exact ⟨r, s, two, same⟩
    next => cases read
  · rintro ⟨r, s, two, rRange, sRange, rfl⟩
    have accepted := (fromScalars_range scalars (fixedBytes_length 48 _)
      (fixedBytes_length 48 _)).mpr
        ⟨(bytesValue_scalarBytes (bytesValue r)).symm ▸ rRange,
          (bytesValue_scalarBytes (bytesValue s)).symm ▸ sRange, rfl⟩
    rw [derToEcdsaP384Signature_of_twoIntegers two, accepted]

/-- A signature of scalars below the order is read; one with a larger scalar is
an error.  What is accepted is two integers at the front of a sequence, and the
scalars are in their last 48 bytes. -/
theorem derToEcdsaP384Signature_reads (scalars : NonZeroScalars)
    (profile : Profile) :
    (∀ r s rBytes sBytes, 0 < r → r < 2 ^ 384 → 0 < s → s < 2 ^ 384 →
      Octets r rBytes → Octets s sBytes →
        if r < P384.order ∧ s < P384.order then
          derToEcdsaP384Signature profile (signatureDer rBytes sBytes) =
            .ok ⟨fixedBytes 48 r, fixedBytes 48 s⟩
        else ∃ text,
          derToEcdsaP384Signature profile (signatureDer rBytes sBytes) =
            .error (.error
              (.signatureInvalid ("from_scalars: ".toList ++ text)))) ∧
      ∀ der signature,
        derToEcdsaP384Signature profile der = .ok signature ↔
          ∃ r s, TwoIntegers der r s ∧
            ScalarRange (bytesValue r % 2 ^ 384) ∧
            ScalarRange (bytesValue s % 2 ^ 384) ∧
            signature = ⟨fixedBytes 48 (bytesValue r),
              fixedBytes 48 (bytesValue s)⟩ := by
  refine ⟨?_, fun der signature => derToEcdsaP384Signature_eq_ok_iff scalars⟩
  intro r s rBytes sBytes rPositive rHigh sPositive sHigh rOctets sOctets
  have width : 2 ^ 384 = 256 ^ 48 := by
    rw [show 256 = 2 ^ 8 from rfl, ← pow_mul]
  have two := twoIntegers_signatureDer (rOctets.length_le (width ▸ rHigh))
    (sOctets.length_le (width ▸ sHigh))
  rw [derToEcdsaP384Signature_of_twoIntegers two, rOctets.bytesValue,
    sOctets.bytesValue]
  have first : bytesValue (fixedBytes 48 r) = r := by
    rw [bytesValue_scalarBytes, Nat.mod_eq_of_lt rHigh]
  have second : bytesValue (fixedBytes 48 s) = s := by
    rw [bytesValue_scalarBytes, Nat.mod_eq_of_lt sHigh]
  split_ifs with below
  · rw [scalars.accepts _ _ (fixedBytes_length _ _) (fixedBytes_length _ _)
      (first.symm ▸ ⟨rPositive, below.1⟩) (second.symm ▸ ⟨sPositive, below.2⟩)]
  · obtain ⟨text, refused⟩ := scalars.refuses (fixedBytes 48 r)
      (fixedBytes 48 s) (fixedBytes_length _ _) (fixedBytes_length _ _)
      fun both => below ⟨(first ▸ both.1).2, (second ▸ both.2).2⟩
    rw [refused]
    exact ⟨text, rfl⟩

end

/-! ## The curve itself -/

def nistOrder : Nat :=
  0xffffffffffffffffffffffffffffffffffffffffffffffffc7634d81f4372ddf581a0db248b0a77aecec196accc52973

@[reducible] def nistP384 : P384 where
  order := nistOrder
  fromScalars r s :=
    if (0 < bytesValue r ∧ bytesValue r < nistOrder) ∧
        (0 < bytesValue s ∧ bytesValue s < nistOrder) then .ok ⟨r, s⟩
    else .error "signature error".toList

theorem nonZeroScalars_nistP384 : @NonZeroScalars nistP384 := by
  refine @NonZeroScalars.mk nistP384 ?_ ?_ ?_
  · change nistOrder < 256 ^ 48
    norm_num [nistOrder]
  · intro r s _ _ rRange sRange
    exact if_pos ⟨rRange, sRange⟩
  · intro r s _ _ outside
    exact ⟨"signature error".toList, if_neg outside⟩

theorem ones_read :
    @derToEcdsaP384Signature nistP384 .release (signatureDer [1] [1]) =
      .ok ⟨fixedBytes 48 1, fixedBytes 48 1⟩ := by
  have high : 1 < 2 ^ 384 := one_lt_pow₀ one_lt_two nofun
  have below : 1 < nistOrder ∧ 1 < nistOrder := by decide
  have read := (@derToEcdsaP384Signature_reads nistP384 nonZeroScalars_nistP384
    .release).1 1 1 [1] [1] (by decide) high (by decide) high
    (.inl (by decide)) (.inl (by decide))
  exact (if_pos below).mp read

/-- Only the distinguished form of the two integers would be read as well. -/
theorem not_signatureDer_trailing (r s : List UInt8) :
    signatureDer [1] [1] ++ [0] ≠ signatureDer r s := by
  intro same
  have length := congrArg List.length same
  have inside : (Der.encode 0x02 r ++ Der.encode 0x02 s).length < 256 ^ 1 := by
    have whole : (signatureDer [1] [1] ++ [0]).length = 9 := by decide
    rw [whole, signatureDer, Der.encode, List.length_append] at length
    omega
  have few := valueBytes_length_le inside
  have left : Der.read (signatureDer [1] [1] ++ [0]) =
      some (0x30, [2, 1, 1, 2, 1, 1], [0]) := by decide
  have right : Der.read (signatureDer r s ++ []) = some (0x30, _, []) :=
    Der.read_encode (by decide) (few.trans_lt (by decide))
  rw [List.append_nil] at right
  rw [same, right] at left
  exact absurd (congrArg (Option.map fun found => found.2.2) left) (by simp)

theorem nistP384_lax :
    let read := @derToEcdsaP384Signature nistP384 .release
    let ones : Signature := ⟨fixedBytes 48 1, fixedBytes 48 1⟩
    (read (signatureDer (0 :: valueBytes nistOrder) [1]) =
      .error (.error (.signatureInvalid
        "from_scalars: signature error".toList))) ∧
    (read (signatureDer [1] [1] ++ [0]) = .ok ones ∧
      ∀ r s, signatureDer [1] [1] ++ [0] ≠ signatureDer r s) ∧
    read [0x30, 0x81, 6, 2, 1, 1, 2, 1, 1] = .ok ones ∧
    read (signatureDer (1 :: fixedBytes 48 1) [1]) = .ok ones := by
  refine ⟨?_, ⟨?_, not_signatureDer_trailing⟩, ?_, ?_⟩
  · decide +kernel
  · decide +kernel
  · decide +kernel
  · decide +kernel

end TrustLayer.ThemisEvidence.Timestamp
