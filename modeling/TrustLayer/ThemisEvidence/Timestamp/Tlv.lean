import TrustLayer.Library.Slices
import TrustLayer.Library.Der

/-!
# The hand-written element reader

The reader takes a length in one, two or three bytes.  It checks a length of two
or three bytes against the input, and slices by a length of one byte without a
check.
-/

namespace TrustLayer.ThemisEvidence.Timestamp

open TrustLayer.Library

variable {ε : Type} {profile : Profile}

/-! ## The readers -/

/-- `u16::from_be_bytes` as a size. -/
def u16FromBeBytes (high low : UInt8) : Nat :=
  high.toNat * 256 + low.toNat

/-- The length of the value, and how many bytes it takes besides the first. -/
def tlvHeader (lenByte : UInt8) (rest : List UInt8) : Call Unit (Nat × Nat) :=
  if lenByte < 0x80 then .ok (lenByte.toNat, 0)
  else if lenByte = 0x81 then
    match rest with
    | [] => .error (.error ())
    | len :: rest =>
        if rest.length < len.toNat then .error (.error ())
        else .ok (len.toNat, 1)
  else if lenByte = 0x82 then
    match rest with
    | high :: low :: rest =>
        if rest.length < u16FromBeBytes high low then .error (.error ())
        else .ok (u16FromBeBytes high low, 2)
    | _ => .error (.error ())
  else .error (.error ())

/-- The bytes of the first element, and its tag; no element is an error. -/
def readTlv (profile : Profile) (input : List UInt8) :
    Call Unit (List UInt8 × UInt8) :=
  match input with
  | tag :: lenByte :: rest => do
      let (valueLen, headerExtra) ← tlvHeader lenByte rest
      let headerLen ← profile.addUsize 2 headerExtra
      let stop ← profile.addUsize headerLen valueLen
      let tlv ← Call.slice 0 stop input
      return (tlv, tag)
  | _ => .error (.error ())

def tlvValueLen (input : List UInt8) : Nat :=
  match input with
  | _ :: lenByte :: rest =>
      if lenByte < 0x80 then lenByte.toNat
      else if lenByte = 0x81 then
        match rest with
        | [] => 0
        | len :: _ => len.toNat
      else if lenByte = 0x82 then
        match rest with
        | high :: low :: _ => u16FromBeBytes high low
        | _ => 0
      else 0
  | _ => 0

def skipTlv (profile : Profile) (input : List UInt8) : Call ε (List UInt8) :=
  match readTlv profile input with
  | .error (.error ()) => .ok []
  | .error (.panic panic) => .error (.panic panic)
  | .ok (tlv, _) => Call.slice tlv.length input.length input

def tlvValueBytes (profile : Profile) (input : List UInt8) :
    Call ε (List UInt8) :=
  match readTlv profile input with
  | .error (.error ()) => .ok []
  | .error (.panic panic) => .error (.panic panic)
  | .ok (tlv, _) => do
      let headerLen ← profile.subUsize tlv.length (tlvValueLen input)
      Call.slice headerLen tlv.length input

/-! ## What stands at the front -/

/-- The length fields that are read. -/
inductive Field : (length : Nat) → List UInt8 → Prop where
  | short {len : UInt8} (small : len < 0x80) : Field len.toNat [len]
  | one (len : UInt8) : Field len.toNat [0x81, len]
  | two (high low : UInt8) :
      Field (u16FromBeBytes high low) [0x82, high, low]

/-- The front of an input: nothing that is read, a short length that goes beyond
the input, or an element. -/
inductive Front where
  | none
  | overrun
  | element (tag : UInt8) (header value rest : List UInt8)
  deriving DecidableEq

def checked (tag : UInt8) (header : List UInt8) (length : Nat)
    (rest : List UInt8) : Front :=
  if rest.length < length then .none
  else .element tag header (rest.take length) (rest.drop length)

def frontOf (tag lenByte : UInt8) (rest : List UInt8) : Front :=
  if lenByte < 0x80 then
    if rest.length < lenByte.toNat then .overrun
    else .element tag [lenByte] (rest.take lenByte.toNat)
      (rest.drop lenByte.toNat)
  else if lenByte = 0x81 then
    match rest with
    | [] => .none
    | len :: rest => checked tag [lenByte, len] len.toNat rest
  else if lenByte = 0x82 then
    match rest with
    | high :: low :: rest =>
        checked tag [lenByte, high, low] (u16FromBeBytes high low) rest
    | _ => .none
  else .none

def front : List UInt8 → Front
  | tag :: lenByte :: rest => frontOf tag lenByte rest
  | _ => .none

/-- A reader stops at a length beyond the input. What it makes of an element, and
of nothing, is its own. -/
def Front.answer {α : Type} (nothing : Call ε α)
    (taken : (tag : UInt8) → (header value rest : List UInt8) → Call ε α) :
    Front → Call ε α
  | .none => nothing
  | .overrun => .error (.panic .outOfRange)
  | .element tag header value rest => taken tag header value rest

/-- The length of the first element goes beyond the input. -/
abbrev Overruns (input : List UInt8) : Prop :=
  front input = .overrun

/-- The input begins with an element, in any form that is read. -/
def Begins (tag : UInt8) (value rest input : List UInt8) : Prop :=
  ∃ header, Field value.length header ∧ input = tag :: header ++ value ++ rest

/-- From an element the way goes into its value, or behind it. -/
inductive Turn where
  | into
  | past
  deriving DecidableEq

def Turn.follow (turn : Turn) (value rest : List UInt8) : List UInt8 :=
  match turn with
  | .into => value
  | .past => rest

/-- On a way through elements with these tags, the first one without the tag
stops it; one of those before it or it itself goes beyond its input. -/
def OverrunsOn : (way : List (Turn × UInt8)) → List UInt8 → Prop
  | [], input => Overruns input
  | (turn, expected) :: way, input =>
      match front input with
      | .none => False
      | .overrun => True
      | .element tag _ value rest =>
          tag = expected ∧ OverrunsOn way (turn.follow value rest)

variable {input header value rest : List UInt8} {tag : UInt8} {length : Nat}

theorem Field.length_lt (field : Field length header) : length < 2 ^ 16 := by
  cases field with
  | short => exact lt_trans (UInt8.toNat_lt _) (by decide)
  | one => exact lt_trans (UInt8.toNat_lt _) (by decide)
  | two high low =>
      have upper := high.toNat_lt
      have lower := low.toNat_lt
      unfold u16FromBeBytes
      omega

theorem Field.header_length_le (field : Field length header) :
    header.length ≤ 3 := by
  cases field <;> simp

theorem Field.header_positive (field : Field length header) :
    0 < header.length := by
  cases field <;> simp

theorem checked_header {other : UInt8} {field behind : List UInt8}
    (element : checked other field length behind =
      .element tag header value rest) : other = tag ∧ field = header := by
  unfold checked at element
  split_ifs at element
  obtain ⟨same, sameField, -⟩ := Front.element.inj element
  exact ⟨same, sameField⟩

theorem checked_eq_element {behind : List UInt8}
    (element : checked tag header length behind =
      .element tag header value rest) :
    behind = value ++ rest ∧ length = value.length := by
  unfold checked at element
  split_ifs at element with beyond
  obtain ⟨-, -, rfl, rfl⟩ := Front.element.inj element
  exact ⟨(List.take_append_drop _ _).symm,
    (List.length_take_of_le (Nat.le_of_not_lt beyond)).symm⟩

theorem lt_of_checked_eq_none {behind : List UInt8}
    (none : checked tag header length behind = .none) :
    behind.length < length := by
  unfold checked at none
  split_ifs at none with beyond
  exact beyond

theorem checked_ne_overrun {behind : List UInt8} :
    checked tag header length behind ≠ .overrun := by
  unfold checked
  split_ifs <;> simp

theorem overruns_iff : Overruns input ↔ ∃ tag len rest,
    input = tag :: len :: rest ∧ len < 0x80 ∧ rest.length < len.toNat := by
  constructor
  · intro overrun
    match input, overrun with
    | tag :: len :: rest, overrun =>
        refine ⟨tag, len, rest, rfl, ?_⟩
        rw [Overruns, front] at overrun
        unfold frontOf at overrun
        split_ifs at overrun with short beyond
        · exact ⟨short, beyond⟩
        · split at overrun
          · cases overrun
          · exact absurd overrun checked_ne_overrun
        · split at overrun
          · exact absurd overrun checked_ne_overrun
          · cases overrun
  · rintro ⟨tag, len, rest, rfl, short, beyond⟩
    rw [Overruns, front]
    unfold frontOf
    rw [if_pos short, if_pos beyond]

/-- What is taken for an element is its bytes, and they are at the front. -/
theorem eq_of_front (element : front input = .element tag header value rest) :
    input = tag :: header ++ value ++ rest ∧ Field value.length header := by
  match input, element with
  | first :: lenByte :: behind, element =>
      rw [front] at element
      unfold frontOf at element
      split_ifs at element with short beyond one two
      · obtain ⟨rfl, rfl, rfl, rfl⟩ := Front.element.inj element
        constructor
        · simp
        · rw [List.length_take_of_le (Nat.le_of_not_lt beyond)]
          exact .short short
      · split at element
        · cases element
        · obtain ⟨rfl, rfl⟩ := checked_header element
          obtain ⟨rfl, length⟩ := checked_eq_element element
          subst one
          rw [← length]
          exact ⟨by simp, .one _⟩
      · split at element
        · obtain ⟨rfl, rfl⟩ := checked_header element
          obtain ⟨rfl, length⟩ := checked_eq_element element
          subst two
          rw [← length]
          exact ⟨by simp, .two _ _⟩
        · cases element

/-- An element at the front is taken. -/
theorem front_of_field (field : Field value.length header) :
    front (tag :: header ++ value ++ rest) =
      .element tag header value rest := by
  have one : ¬ (0x81 : UInt8) < 0x80 := by decide
  have two : ¬ (0x82 : UInt8) < 0x80 := by decide
  have differs : ¬ (0x82 : UInt8) = 0x81 := by decide
  have inside : ¬ (value ++ rest).length < value.length := by simp
  generalize same : value.length = length at field inside
  cases field with
  | short small =>
      simp only [List.cons_append, List.nil_append, front, frontOf,
        if_pos small, if_neg inside]
      rw [← same, List.take_left, List.drop_left]
  | one len =>
      simp only [List.cons_append, List.nil_append, front, frontOf,
        if_neg one, if_true, checked, if_neg inside]
      rw [← same, List.take_left, List.drop_left]
  | two high low =>
      simp only [List.cons_append, List.nil_append, front, frontOf,
        if_neg two, if_neg differs, if_true, checked, if_neg inside]
      rw [← same, List.take_left, List.drop_left]

theorem begins_iff : Begins tag value rest input ↔
    ∃ header, front input = .element tag header value rest := by
  constructor
  · rintro ⟨header, field, rfl⟩
    exact ⟨header, front_of_field field⟩
  · rintro ⟨header, element⟩
    obtain ⟨same, field⟩ := eq_of_front element
    exact ⟨header, field, same⟩

theorem begins_encode (tag : UInt8) (rest : List UInt8)
    (short : value.length < 128) :
    Begins tag value rest (Der.encode tag value ++ rest) := by
  have back : (UInt8.ofNat value.length).toNat = value.length :=
    toNat_ofNat_byte (by omega)
  have small : UInt8.ofNat value.length < 0x80 := by
    rw [UInt8.lt_iff_toNat_lt, back]
    exact short
  have field := Field.short small
  rw [back] at field
  refine ⟨[UInt8.ofNat value.length], field, ?_⟩
  rw [Der.encode, Der.lengthField_of_lt short]

/-- Two bytes hold the length of what is read. -/
theorem begins_encode_of_lt (tag : UInt8) (rest : List UInt8)
    (small : value.length < 2 ^ 16) :
    Begins tag value rest (Der.encode tag value ++ rest) := by
  rcases Nat.lt_or_ge value.length 128 with short | long
  · exact begins_encode tag rest short
  · have number := bytesValue_valueBytes value.length
    have few : (valueBytes value.length).length ≤ 2 := valueBytes_length_le small
    rw [Der.encode, Der.lengthField_of_le long]
    generalize valueBytes value.length = bytes at number few ⊢
    rcases bytes with _ | ⟨high, _ | ⟨low, _ | ⟨more, others⟩⟩⟩
    · rw [bytesValue_nil] at number
      omega
    · refine ⟨[0x81, high], ?_, rfl⟩
      have length : high.toNat = value.length := by
        simpa [bytesValue_cons] using number
      exact length ▸ .one high
    · refine ⟨[0x82, high, low], ?_, rfl⟩
      have length : u16FromBeBytes high low = value.length := by
        simpa [bytesValue_cons, u16FromBeBytes] using number
      exact length ▸ .two high low
    · simp at few

/-- A length of more bytes is not read. -/
theorem front_encode_of_le (tag : UInt8) (rest : List UInt8)
    (large : 2 ^ 16 ≤ value.length) (bounded : value.length < 2 ^ 63) :
    front (Der.encode tag value ++ rest) = .none := by
  have number := bytesValue_valueBytes value.length
  have few : (valueBytes value.length).length ≤ 8 :=
    valueBytes_length_le (bounded.trans (by decide))
  have many : 2 < (valueBytes value.length).length := by
    by_contra short
    have most := bytesValue_lt (valueBytes value.length)
    have power : 256 ^ (valueBytes value.length).length ≤ 256 ^ 2 :=
      Nat.pow_le_pow_right (by decide) (Nat.le_of_not_lt short)
    omega
  have first : (UInt8.ofNat (128 + (valueBytes value.length).length)).toNat =
      128 + (valueBytes value.length).length := toNat_ofNat_byte (by omega)
  rw [Der.encode, Der.lengthField_of_le (by omega)]
  generalize UInt8.ofNat (128 + (valueBytes value.length).length) = lenByte
    at first
  have short : ¬ lenByte < 0x80 := by
    rw [UInt8.lt_iff_toNat_lt, first]
    exact Nat.not_lt.mpr (Nat.le_add_right 128 _)
  have one : lenByte ≠ 0x81 := by
    rintro rfl
    change 129 = _ at first
    omega
  have two : lenByte ≠ 0x82 := by
    rintro rfl
    change 130 = _ at first
    omega
  simp only [List.cons_append, front, frontOf, if_neg short, if_neg one,
    if_neg two]

theorem begins_encode_or_none (tag : UInt8) (rest : List UInt8)
    (bounded : value.length < 2 ^ 63) :
    Begins tag value rest (Der.encode tag value ++ rest) ∨
      front (Der.encode tag value ++ rest) = .none := by
  rcases Nat.lt_or_ge value.length (2 ^ 16) with small | large
  · exact .inl (begins_encode_of_lt tag rest small)
  · exact .inr (front_encode_of_le tag rest large bounded)

/-! ## What the readers return -/

theorem tlvHeader_of_field (field : Field value.length header) :
    ∃ lenByte behind, header ++ value ++ rest = lenByte :: behind ∧
      tlvHeader lenByte behind = .ok (value.length, header.length - 1) ∧
      tlvValueLen (tag :: lenByte :: behind) = value.length := by
  have one : ¬ (0x81 : UInt8) < 0x80 := by decide
  have two : ¬ (0x82 : UInt8) < 0x80 := by decide
  have differs : ¬ (0x82 : UInt8) = 0x81 := by decide
  have inside : ¬ (value ++ rest).length < value.length := by simp
  generalize value.length = length at field inside
  cases field with
  | @short len small =>
      refine ⟨len, value ++ rest, by simp, ?_, ?_⟩
      · simp [tlvHeader, small]
      · simp [tlvValueLen, small]
  | one len =>
      refine ⟨0x81, len :: (value ++ rest), by simp, ?_, ?_⟩
      · simp only [tlvHeader, if_neg one, if_true, if_neg inside]
        rfl
      · simp only [tlvValueLen, if_neg one, if_true]
  | two high low =>
      refine ⟨0x82, high :: low :: (value ++ rest), by simp, ?_, ?_⟩
      · simp only [tlvHeader, if_neg two, if_neg differs, if_true,
          if_neg inside]
        rfl
      · simp only [tlvValueLen, if_neg two, if_neg differs, if_true]

theorem readTlv_of_field (field : Field value.length header) :
    readTlv profile (tag :: header ++ value ++ rest) =
      .ok (tag :: header ++ value, tag) := by
  obtain ⟨lenByte, behind, same, read, -⟩ := @tlvHeader_of_field _ _ rest 0 field
  have short := field.length_lt
  have few := field.header_length_le
  have whole : tag :: header ++ value ++ rest = tag :: lenByte :: behind := by
    rw [List.cons_append, List.cons_append, same]
  have positive := field.header_positive
  have stop : 2 + (header.length - 1) + value.length =
      (tag :: header ++ value).length := by
    simp only [List.length_append, List.length_cons]
    omega
  rw [whole, readTlv, read, Call.ok_bind]
  simp only
  rw [Profile.addUsize_of_lt (by omega), Call.ok_bind,
    Profile.addUsize_of_lt (by omega), Call.ok_bind, stop, ← whole,
    Call.slice_prefix]
  rfl

theorem readTlv_of_overruns (overrun : Overruns input) :
    readTlv profile input = .error (.panic .outOfRange) := by
  obtain ⟨tag, len, rest, rfl, short, beyond⟩ := overruns_iff.mp overrun
  have small := UInt8.lt_iff_toNat_lt.mp short
  have bound : len.toNat < 128 := small
  have read : tlvHeader len rest = .ok (len.toNat, 0) := by
    unfold tlvHeader
    rw [if_pos short]
  rw [readTlv, read, Call.ok_bind]
  simp only
  rw [Profile.addUsize_of_lt (by omega), Call.ok_bind,
    Profile.addUsize_of_lt (by omega), Call.ok_bind, Call.slice_of_lt]
  · rfl
  · simp only [List.length_cons]
    omega

theorem readTlv_of_none (none : front input = .none) :
    readTlv profile input = .error (.error ()) := by
  match input, none with
  | [], _ => rfl
  | [_], _ => rfl
  | tag :: lenByte :: behind, none =>
      have unread : tlvHeader lenByte behind = .error (.error ()) := by
        rw [front] at none
        unfold frontOf at none
        unfold tlvHeader
        split_ifs at none ⊢ with short beyond one two
        · cases behind with
          | nil => rfl
          | cons len behind =>
              exact if_pos (lt_of_checked_eq_none none)
        · match behind, none with
          | [], _ => rfl
          | [_], _ => rfl
          | high :: low :: behind, none =>
              exact if_pos (lt_of_checked_eq_none none)
        · rfl
      rw [readTlv, unread]
      rfl

theorem tlvValueLen_of_field (field : Field value.length header) :
    tlvValueLen (tag :: header ++ value ++ rest) = value.length := by
  obtain ⟨lenByte, behind, same, -, length⟩ :=
    @tlvHeader_of_field _ _ rest tag field
  rw [List.cons_append, List.cons_append, same, length]

theorem tlvValueBytes_of_field (field : Field value.length header) :
    (tlvValueBytes profile (tag :: header ++ value ++ rest) :
      Call ε (List UInt8)) = .ok value := by
  have back : (tag :: header ++ value).length - value.length =
      (tag :: header).length := by
    rw [List.length_append, Nat.add_sub_cancel]
  have inside : value.length ≤ (tag :: header ++ value).length := by
    rw [List.length_append]
    exact Nat.le_add_left _ _
  rw [tlvValueBytes, readTlv_of_field field]
  simp only
  rw [tlvValueLen_of_field field, Profile.subUsize_of_le inside, Call.ok_bind,
    back, Call.slice_append rfl List.length_append]

theorem skipTlv_of_field (field : Field value.length header) :
    (skipTlv profile (tag :: header ++ value ++ rest) :
      Call ε (List UInt8)) = .ok rest := by
  rw [skipTlv, readTlv_of_field field]
  exact Call.slice_suffix _ _

theorem readTlv_eq (input : List UInt8) :
    readTlv profile input = (front input).answer (.error (.error ()))
      fun tag header value _ => .ok (tag :: header ++ value, tag) := by
  cases same : front input with
  | none => exact readTlv_of_none same
  | overrun => exact readTlv_of_overruns same
  | element tag header value rest =>
      obtain ⟨rfl, field⟩ := eq_of_front same
      exact readTlv_of_field field

theorem tlvValueBytes_eq (input : List UInt8) :
    (tlvValueBytes profile input : Call ε (List UInt8)) =
      (front input).answer (.ok []) fun _ _ value _ => .ok value := by
  cases same : front input with
  | none =>
      rw [tlvValueBytes, readTlv_of_none same]
      rfl
  | overrun =>
      rw [tlvValueBytes, readTlv_of_overruns same]
      rfl
  | element tag header value rest =>
      obtain ⟨rfl, field⟩ := eq_of_front same
      exact tlvValueBytes_of_field field

theorem skipTlv_eq (input : List UInt8) :
    (skipTlv profile input : Call ε (List UInt8)) =
      (front input).answer (.ok []) fun _ _ _ rest => .ok rest := by
  cases same : front input with
  | none =>
      rw [skipTlv, readTlv_of_none same]
      rfl
  | overrun =>
      rw [skipTlv, readTlv_of_overruns same]
      rfl
  | element tag header value rest =>
      obtain ⟨rfl, field⟩ := eq_of_front same
      exact skipTlv_of_field field

/-! ## Ways through elements -/

variable {turn : Turn} {expected : UInt8} {way : List (Turn × UInt8)}

section

variable {α : Type} {nothing : Call ε α} {out : α}
  {taken : (tag : UInt8) → (header value rest : List UInt8) → Call ε α}

/-- At the end of a way any element is returned from. -/
theorem returns_answer (none : nothing.Returns)
    (element : ∀ tag header value rest,
      (taken tag header value rest).Returns) :
    ((front input).answer nothing taken).Returns ↔ ¬ OverrunsOn [] input := by
  rw [OverrunsOn, Overruns]
  cases front input with
  | none => exact iff_of_true none nofun
  | overrun => exact iff_of_false (Call.not_returns_panic _) (not_not.mpr rfl)
  | element tag header value rest =>
      exact iff_of_true (element tag header value rest) nofun

/-- Before that, any but the one expected. -/
theorem returns_answer_cons (none : nothing.Returns)
    (other : ∀ tag header value rest, tag ≠ expected →
      (taken tag header value rest).Returns)
    (goesOn : ∀ header value rest,
      front input = .element expected header value rest →
        ((taken expected header value rest).Returns ↔
          ¬ OverrunsOn way (turn.follow value rest))) :
    ((front input).answer nothing taken).Returns ↔
      ¬ OverrunsOn ((turn, expected) :: way) input := by
  rw [OverrunsOn]
  cases element : front input with
  | none => exact iff_of_true none not_false
  | overrun =>
      exact iff_of_false (Call.not_returns_panic _) (not_not.mpr trivial)
  | element tag header value rest =>
      by_cases same : tag = expected
      · subst same
        exact (goesOn header value rest element).trans
          (not_congr (and_iff_right rfl).symm)
      · exact iff_of_true (other tag header value rest same)
          fun both => same both.1

theorem answer_bind {β : Type} {next : α → Call ε β} (front : Front) :
    (front.answer nothing taken >>= next) =
      front.answer (nothing >>= next) fun tag header value rest =>
        taken tag header value rest >>= next := by
  cases front with
  | none => rfl
  | overrun => rfl
  | element tag header value rest => rfl

theorem answer_eq_ok_iff :
    (front input).answer nothing taken = .ok out ↔
      (front input = .none ∧ nothing = .ok out) ∨
      ∃ tag header value rest, front input = .element tag header value rest ∧
        taken tag header value rest = .ok out := by
  cases front input with
  | none => simp [Front.answer]
  | overrun => simp [Front.answer]
  | element tag header value rest => simp [Front.answer]

end

theorem follow_within (turn : Turn)
    (element : front input = .element tag header value rest) :
    turn.follow value rest <:+: input := by
  obtain ⟨rfl, -⟩ := eq_of_front element
  cases turn with
  | into => exact ⟨tag :: header, rest, rfl⟩
  | past => exact (List.suffix_append _ _).isInfix

end TrustLayer.ThemisEvidence.Timestamp
