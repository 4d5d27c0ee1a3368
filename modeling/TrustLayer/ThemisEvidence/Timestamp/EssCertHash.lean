import TrustLayer.ThemisEvidence.Timestamp.Tlv

/-!
# The certificate hash of a signing certificate attribute

The first version walks into sequences until an octet string comes.  The second
steps into three sequences and behind the algorithm in the last of them.
-/

namespace TrustLayer.ThemisEvidence.Timestamp

open TrustLayer.Library

variable {ε : Type} {profile : Profile}

/-- `&p[header_len..header_len + value_len]`. -/
def valueSlice (profile : Profile) (p tlv : List UInt8) (valueLen : Nat) :
    Call ε (List UInt8) := do
  let headerLen ← profile.subUsize tlv.length valueLen
  let stop ← profile.addUsize headerLen valueLen
  Call.slice headerLen stop p

def stepInto (profile : Profile) (p : List UInt8) : Call Unit (List UInt8) := do
  let (_, tag) ← readTlv profile p
  if tag ≠ 0x30 then .error (.error ())
  else tlvValueBytes profile p

def stepPast (profile : Profile) (p : List UInt8) : Call Unit (List UInt8) := do
  let (_, tag) ← readTlv profile p
  if tag ≠ 0x30 then .error (.error ())
  else skipTlv profile p

/-- The loop, with as many sequences left as it may still walk into. -/
def seekOctetString (profile : Profile) (left : Nat) (p : List UInt8) :
    Call Unit (List UInt8) :=
  match left with
  | 0 => .error (.error ())
  | left + 1 => do
      let (tlv, tag) ← readTlv profile p
      if tag = 0x04 then valueSlice profile p tlv (tlvValueLen p)
      else if tag ≠ 0x30 then .error (.error ())
      else
        let p ← tlvValueBytes profile p
        seekOctetString profile left p

def extractEssCertHashV1 (profile : Profile) (setValue : List UInt8) :
    Call Unit (List UInt8) := do
  let p ← stepInto profile setValue
  seekOctetString profile 3 p

def certHash (profile : Profile) (p : List UInt8) :
    Call Unit (List UInt8) := do
  let (hashTlv, hashTag) ← readTlv profile p
  if hashTag ≠ 0x04 then .error (.error ())
  else
    let hashValue ← tlvValueBytes profile p
    valueSlice profile p hashTlv hashValue.length

def extractEssCertHashV2 (profile : Profile) (setValue : List UInt8) :
    Call Unit (List UInt8) := do
  let p ← stepInto profile setValue
  let p ← stepInto profile p
  let p ← stepInto profile p
  let p ← stepPast profile p
  certHash profile p

/-! ## One step -/

variable {α : Type} {input header value rest out : List UInt8} {tag : UInt8}
  {next : List UInt8 → Call Unit α}
  {way : List (Turn × UInt8)}

theorem valueSlice_of_field (field : Field value.length header) :
    (valueSlice profile (tag :: header ++ value ++ rest)
      (tag :: header ++ value) value.length : Call ε (List UInt8)) =
        .ok value := by
  have short := field.length_lt
  have few := field.header_length_le
  have whole : (tag :: header ++ value).length =
      (tag :: header).length + value.length := List.length_append
  have inside : value.length ≤ (tag :: header ++ value).length := by
    rw [whole]
    exact Nat.le_add_left _ _
  have fits : (tag :: header).length + value.length < 2 ^ 64 := by
    rw [List.length_cons]
    omega
  rw [valueSlice, Profile.subUsize_of_le inside, Call.ok_bind, whole,
    Nat.add_sub_cancel, Profile.addUsize_of_lt fits, Call.ok_bind,
    Call.slice_append rfl rfl]

/-- What a step into or past a sequence leads to. -/
def followed (turn : Turn) : Front → Call Unit (List UInt8)
  | .none => .error (.error ())
  | .overrun => .error (.panic .outOfRange)
  | .element tag _ value rest =>
      if tag ≠ 0x30 then .error (.error ()) else .ok (turn.follow value rest)

theorem stepInto_eq (input : List UInt8) :
    stepInto profile input = followed .into (front input) := by
  rw [stepInto, readTlv_eq, tlvValueBytes_eq]
  cases front input with
  | none => rfl
  | overrun => rfl
  | element tag header value rest => rfl

theorem stepPast_eq (input : List UInt8) :
    stepPast profile input = followed .past (front input) := by
  rw [stepPast, readTlv_eq, skipTlv_eq]
  cases front input with
  | none => rfl
  | overrun => rfl
  | element tag header value rest => rfl

theorem followed_eq_ok_iff {turn : Turn} :
    followed turn (front input) = .ok out ↔ ∃ header value rest,
      front input = .element 0x30 header value rest ∧
        turn.follow value rest = out := by
  cases front input with
  | none => simp [followed]
  | overrun => simp [followed]
  | element tag header value rest =>
      by_cases sequence : tag = 0x30
      · simp [followed, sequence]
      · simp [followed, sequence]

theorem followed_bind (turn : Turn) (input : List UInt8) :
    (followed turn (front input) >>= next) =
      (front input).answer (.error (.error ())) fun tag _ value rest =>
        if tag ≠ 0x30 then .error (.error ())
        else next (turn.follow value rest) := by
  cases front input with
  | none => rfl
  | overrun => rfl
  | element tag header value rest =>
      by_cases sequence : tag = 0x30
      · simp [followed, Front.answer, sequence]
      · simp [followed, Front.answer, sequence]

/-- A step returns where the rest of the way does. -/
theorem returns_followed_bind {turn : Turn}
    (following : ∀ after, (next after).Returns ↔ ¬ OverrunsOn way after) :
    (followed turn (front input) >>= next).Returns ↔
      ¬ OverrunsOn ((turn, 0x30) :: way) input := by
  rw [followed_bind]
  apply returns_answer_cons
  · exact Call.returns_error ()
  · intro tag header value rest differs
    rw [if_pos differs]
    exact Call.returns_error ()
  · intro header value rest _
    exact following (turn.follow value rest)

theorem followed_within {turn : Turn}
    (reached : followed turn (front input) = .ok out) : out <:+: input := by
  obtain ⟨header, value, rest, element, rfl⟩ := followed_eq_ok_iff.mp reached
  exact follow_within turn element

/-! ## The octet string -/

theorem seekOctetString_succ (left : Nat) (input : List UInt8) :
    seekOctetString profile (left + 1) input =
      (front input).answer (.error (.error ())) fun tag _ value _ =>
        if tag = 0x04 then .ok value
        else if tag ≠ 0x30 then .error (.error ())
        else seekOctetString profile left value := by
  rw [seekOctetString, readTlv_eq, tlvValueBytes_eq]
  cases same : front input with
  | none => rfl
  | overrun => rfl
  | element tag header value rest =>
      obtain ⟨rfl, field⟩ := eq_of_front same
      simp only [Front.answer, Call.ok_bind]
      rw [tlvValueLen_of_field field, valueSlice_of_field field]

theorem certHash_eq (input : List UInt8) :
    certHash profile input =
      (front input).answer (.error (.error ())) fun tag _ value _ =>
        if tag ≠ 0x04 then .error (.error ()) else .ok value := by
  rw [certHash, readTlv_eq, tlvValueBytes_eq]
  cases same : front input with
  | none => rfl
  | overrun => rfl
  | element tag header value rest =>
      obtain ⟨rfl, field⟩ := eq_of_front same
      simp only [Front.answer, Call.ok_bind]
      rw [valueSlice_of_field field]

/-- The octet string itself ends the search, whatever is left. -/
theorem returns_seekOctetString (left : Nat) (input : List UInt8) :
    (seekOctetString profile (left + 1) input).Returns ↔
      ¬ OverrunsOn (List.replicate left (.into, 0x30)) input := by
  induction left generalizing input with
  | zero =>
      rw [seekOctetString_succ, List.replicate_zero]
      refine returns_answer (Call.returns_error ()) ?_
      intro tag header value rest
      split_ifs
      · exact Call.returns_ok value
      · exact Call.returns_error ()
      · exact Call.returns_error ()
  | succ left inductionHypothesis =>
      rw [seekOctetString_succ, List.replicate_succ]
      apply returns_answer_cons
      · exact Call.returns_error ()
      · intro tag header value rest differs
        split_ifs
        · exact Call.returns_ok value
        · exact Call.returns_error ()
      · intro header value rest _
        have octet : ¬ (0x30 : UInt8) = 0x04 := by decide
        rw [if_neg octet, if_neg (not_not.mpr rfl)]
        exact inductionHypothesis value

theorem seekOctetString_within {left : Nat}
    (found : seekOctetString profile left input = .ok out) :
    out <:+: input := by
  induction left generalizing input with
  | zero => cases found
  | succ left inductionHypothesis =>
      rw [seekOctetString_succ] at found
      rcases answer_eq_ok_iff.mp found with ⟨-, impossible⟩ |
        ⟨tag, header, value, rest, element, found⟩
      · cases impossible
      · have inside : value <:+: input := follow_within .into element
        split_ifs at found
        · obtain rfl := Except.ok.inj found
          exact inside
        · exact (inductionHypothesis found).trans inside

theorem returns_certHash (input : List UInt8) :
    (certHash profile input).Returns ↔ ¬ OverrunsOn [] input := by
  rw [certHash_eq]
  refine returns_answer (Call.returns_error ()) ?_
  intro tag header value rest
  split_ifs
  · exact Call.returns_error ()
  · exact Call.returns_ok value

theorem certHash_within (found : certHash profile input = .ok out) :
    out <:+: input := by
  rw [certHash_eq] at found
  rcases answer_eq_ok_iff.mp found with ⟨-, impossible⟩ |
    ⟨tag, header, value, rest, element, found⟩
  · cases impossible
  · split_ifs at found
    obtain rfl := Except.ok.inj found
    exact follow_within .into element

/-! ## The two attributes -/

theorem returns_extractEssCertHashV1 :
    (extractEssCertHashV1 profile input).Returns ↔
      ¬ OverrunsOn (List.replicate 3 (.into, 0x30)) input := by
  rw [extractEssCertHashV1, stepInto_eq]
  exact returns_followed_bind (returns_seekOctetString 2)

theorem extractEssCertHashV1_within
    (found : extractEssCertHashV1 profile input = .ok out) :
    out <:+: input := by
  rw [extractEssCertHashV1, stepInto_eq] at found
  obtain ⟨certs, inside, sought⟩ := bind_eq_ok_iff.mp found
  exact (seekOctetString_within sought).trans (followed_within inside)

theorem returns_extractEssCertHashV2 :
    (extractEssCertHashV2 profile input).Returns ↔
      ¬ OverrunsOn
        [(.into, 0x30), (.into, 0x30), (.into, 0x30), (.past, 0x30)] input := by
  simp only [extractEssCertHashV2, stepInto_eq, stepPast_eq]
  exact returns_followed_bind fun _ => returns_followed_bind fun _ =>
    returns_followed_bind fun _ => returns_followed_bind returns_certHash

theorem extractEssCertHashV2_within
    (found : extractEssCertHashV2 profile input = .ok out) :
    out <:+: input := by
  simp only [extractEssCertHashV2, stepInto_eq, stepPast_eq] at found
  obtain ⟨certs, intoCerts, found⟩ := bind_eq_ok_iff.mp found
  obtain ⟨cert, intoCert, found⟩ := bind_eq_ok_iff.mp found
  obtain ⟨fields, intoFields, found⟩ := bind_eq_ok_iff.mp found
  obtain ⟨hash, pastAlgorithm, found⟩ := bind_eq_ok_iff.mp found
  exact (certHash_within found).trans ((followed_within pastAlgorithm).trans
    ((followed_within intoFields).trans ((followed_within intoCert).trans
      (followed_within intoCerts))))

end TrustLayer.ThemisEvidence.Timestamp
