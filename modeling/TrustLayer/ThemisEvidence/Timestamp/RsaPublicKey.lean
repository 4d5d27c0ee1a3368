import TrustLayer.Library.Der
import TrustLayer.Library.Slices
import TrustLayer.Library.Text

/-!
# The reader of RSA public keys

The reader goes on behind as many bytes as the sequence is long, where the
length field of the sequence would have to be skipped.
-/

namespace TrustLayer.ThemisEvidence.Timestamp

open TrustLayer.Library

/-- A length field, as its length and how many bytes it takes. -/
def readDerLength (buf : List UInt8) : Call Str (Nat × Nat) :=
  match buf with
  | [] => .error (.error "empty length".toList)
  | first :: rest =>
      if first < 0x80 then .ok (first.toNat, 1)
      else
        let n := (first &&& 0x7F).toNat
        if n = 0 ∨ 8 < n ∨ buf.length < 1 + n then
          .error (.error "invalid long-form length".toList)
        else
          .ok ((rest.take n).foldl
            (fun len byte => len <<< 8 % 2 ^ 64 ||| byte.toNat) 0, 1 + n)

def stripAsn1IntegerSign (bytes : List UInt8) : List UInt8 :=
  match bytes with
  | 0 :: second :: rest => if second &&& 0x80 ≠ 0 then second :: rest else bytes
  | _ => bytes

/-- The integer whose tag is at the place, and the place behind it. -/
def integerAt (profile : Profile) (name : Str) (der : List UInt8) (p : Nat) :
    Call Str (List UInt8 × Nat) := do
  let next ← profile.addUsize p 1
  let buf ← Call.slice next der.length der
  let (length, ll) ← readDerLength buf
  let header ← profile.addUsize 1 ll
  let p ← profile.addUsize p header
  let stop ← profile.addUsize p length
  if der.length < stop then
    .error (.error (name ++ " length exceeds buffer".toList))
  else
    let bytes ← Call.slice p stop der
    return (stripAsn1IntegerSign bytes, stop)

/-- The modulus from the place on, and the exponent behind it. -/
def integersFrom (profile : Profile) (der : List UInt8) (p : Nat) :
    Call Str (List UInt8 × List UInt8) := do
  if der.length < p then
    .error (.error "SEQUENCE length exceeds buffer".toList)
  else
    let tag ← Call.index p der
    if tag ≠ 0x02 then
      .error (.error "expected INTEGER tag 0x02 for modulus".toList)
    else
      let (nBytes, p) ← integerAt profile "modulus".toList der p
      if der[p]? ≠ some 0x02 then
        .error (.error "expected INTEGER tag 0x02 for exponent".toList)
      else
        let (eBytes, _) ← integerAt profile "exponent".toList der p
        return (nBytes, eBytes)

def parsePkcs1RsaPubkey (profile : Profile) (der : List UInt8) :
    Call Str (List UInt8 × List UInt8) := do
  if der.length < 2 ∨ der.head? ≠ some 0x30 then
    .error (.error "expected SEQUENCE tag 0x30".toList)
  else
    let buf ← Call.slice 1 der.length der
    let seqLen ← readDerLength buf
    let p ← profile.addUsize 1 seqLen.1
    integersFrom profile der p

/-! ## Length fields -/

/-- The length fields that are read: up to eight bytes, least or not. -/
inductive LengthField : (length : Nat) → List UInt8 → Prop where
  | short {len : UInt8} (small : len < 0x80) : LengthField len.toNat [len]
  | long {bytes : List UInt8} (nonempty : bytes ≠ [])
      (few : bytes.length ≤ 8) :
      LengthField (bytesValue bytes)
        (UInt8.ofNat (128 + bytes.length) :: bytes)

variable {profile : Profile} {buf der rest field value : List UInt8}
  {length count : Nat}

theorem LengthField.length_lt (lengthField : LengthField length field) :
    length < 2 ^ 64 := by
  cases lengthField with
  | @short len small => exact lt_trans len.toNat_lt (by norm_num)
  | @long bytes nonempty few =>
      refine (bytesValue_lt bytes).trans_le ?_
      exact (Nat.pow_le_pow_right (by omega) few).trans (by norm_num)

theorem LengthField.field_length_le (lengthField : LengthField length field) :
    field.length ≤ 9 := by
  cases lengthField with
  | short => simp
  | long nonempty few =>
      rw [List.length_cons]
      omega

theorem LengthField.field_positive (lengthField : LengthField length field) :
    0 < field.length := by
  cases lengthField <;> simp

/-- The bytes shift in from the right; eight of them fit. -/
theorem foldl_shift {bytes : List UInt8} (few : bytes.length ≤ 8) :
    bytes.foldl (fun len byte => len <<< 8 % 2 ^ 64 ||| byte.toNat) 0 =
      bytesValue bytes := by
  induction bytes using List.reverseRecOn with
  | nil => rfl
  | append_singleton bytes last inductionHypothesis =>
      rw [List.length_append, List.length_singleton] at few
      have low : last.toNat < 2 ^ 8 := last.toNat_lt
      have small : bytesValue bytes * 2 ^ 8 < 2 ^ 64 := by
        have bound := (bytesValue_lt bytes).trans_le
          (Nat.pow_le_pow_right (by omega) (show bytes.length ≤ 7 by omega))
        omega
      rw [List.foldl_append, inductionHypothesis (by omega)]
      simp only [List.foldl_cons, List.foldl_nil]
      rw [Nat.shiftLeft_eq, Nat.mod_eq_of_lt small, ← Nat.shiftLeft_eq,
        ← Nat.shiftLeft_add_eq_or_of_lt low, bytesValue_concat,
        Nat.shiftLeft_eq]

theorem toNat_and_low (first : UInt8) :
    (first &&& 0x7F).toNat = first.toNat % 128 := by
  rw [UInt8.toNat_and]
  exact Nat.and_two_pow_sub_one_eq_mod first.toNat 7

theorem readDerLength_of_field (lengthField : LengthField length field)
    (rest : List UInt8) :
    readDerLength (field ++ rest) = .ok (length, field.length) := by
  cases lengthField with
  | short small =>
      rw [List.cons_append, readDerLength, if_pos small]
      rfl
  | @long bytes nonempty few =>
      have positive := List.length_pos_of_ne_nil nonempty
      have first : (UInt8.ofNat (128 + bytes.length)).toNat =
          128 + bytes.length :=
        toNat_ofNat_byte (by omega)
      have large : ¬ UInt8.ofNat (128 + bytes.length) < 0x80 := by
        rw [UInt8.lt_iff_toNat_lt, first]
        change ¬ 128 + bytes.length < 128
        omega
      have low : (UInt8.ofNat (128 + bytes.length) &&& 0x7F).toNat =
          bytes.length := by
        rw [toNat_and_low, first]
        omega
      rw [List.cons_append, readDerLength, if_neg large, low]
      simp only
      rw [if_neg, List.take_left, foldl_shift few, List.length_cons,
        Nat.add_comm]
      simp only [List.length_cons, List.length_append]
      omega

theorem readDerLength_eq_ok_iff : readDerLength buf = .ok (length, count) ↔
    ∃ field rest, buf = field ++ rest ∧ LengthField length field ∧
      count = field.length := by
  constructor
  · intro read
    match buf, read with
    | first :: behind, read =>
        rw [readDerLength] at read
        by_cases small : first < 0x80
        · rw [if_pos small] at read
          obtain ⟨rfl, rfl⟩ := Prod.mk.inj (Except.ok.inj read)
          exact ⟨[first], behind, rfl, .short small, rfl⟩
        · rw [if_neg small] at read
          simp only at read
          split_ifs at read with invalid
          obtain ⟨positive, few, inside⟩ := by
            simpa only [not_or, Nat.not_lt] using invalid
          obtain ⟨rfl, rfl⟩ := Prod.mk.inj (Except.ok.inj read)
          rw [List.length_cons] at inside
          set n := (first &&& 0x7F).toNat with low
          have taken : (behind.take n).length = n :=
            List.length_take_of_le (by omega)
          have octet : UInt8.ofNat (128 + (behind.take n).length) = first := by
            rw [taken, low, toNat_and_low, ← UInt8.toNat_inj]
            have high := first.toNat_lt
            have large : 128 ≤ first.toNat := by
              rw [UInt8.lt_iff_toNat_lt] at small
              exact Nat.le_of_not_lt small
            have back : (UInt8.ofNat (128 + first.toNat % 128)).toNat =
                128 + first.toNat % 128 :=
              toNat_ofNat_byte (by omega)
            rw [back]
            omega
          have nonempty : behind.take n ≠ [] := by
            intro empty
            rw [empty, List.length_nil] at taken
            omega
          have long := LengthField.long nonempty (by omega)
          rw [octet] at long
          refine ⟨first :: behind.take n, behind.drop n, ?_, ?_, ?_⟩
          · rw [List.cons_append, List.take_append_drop]
          · rw [foldl_shift (by omega)]
            exact long
          · rw [List.length_cons, taken, Nat.add_comm]
  · rintro ⟨field, rest, rfl, lengthField, rfl⟩
    exact readDerLength_of_field lengthField rest

theorem returns_readDerLength (buf : List UInt8) :
    (readDerLength buf).Returns := by
  unfold readDerLength
  split
  · exact Call.returns_error _
  · simp only
    split_ifs
    · exact Call.returns_ok _
    · exact Call.returns_error _
    · exact Call.returns_ok _

/-- A length field is where its input begins, in one way. -/
theorem LengthField.unique {length' : Nat} {field' rest' : List UInt8}
    (left : LengthField length field) (right : LengthField length' field')
    (same : field ++ rest = field' ++ rest') :
    length = length' ∧ field = field' ∧ rest = rest' := by
  have first := readDerLength_of_field left rest
  have second := readDerLength_of_field right rest'
  rw [same, second] at first
  obtain ⟨rfl, count⟩ := Prod.mk.inj (Except.ok.inj first)
  obtain ⟨rfl, rfl⟩ := List.append_inj same count.symm
  exact ⟨rfl, rfl, rfl⟩

/-! ## One integer -/

variable {name : Str} {p stop : Nat} {bytes : List UInt8}

theorem bytesValue_stripAsn1IntegerSign (bytes : List UInt8) :
    bytesValue (stripAsn1IntegerSign bytes) = bytesValue bytes := by
  unfold stripAsn1IntegerSign
  split
  · split_ifs
    · rw [bytesValue_cons 0]
      simp
    · rfl
  · rfl

theorem strip_length_le (bytes : List UInt8) :
    (stripAsn1IntegerSign bytes).length ≤ bytes.length := by
  unfold stripAsn1IntegerSign
  split
  · split_ifs
    · exact Nat.le_succ _
    · exact le_rfl
  · exact le_rfl

/-- A length that takes the place beyond `usize` stops either build, one at the
sum and the other at the slice. -/
def beyondUsize : Profile → Panic
  | .dev => .overflow
  | .release => .outOfRange

theorem integerAt_of_field (bounded : der.length < 2 ^ 63)
    (inside : p < der.length) (lengthField : LengthField length field)
    (tail : der.drop (p + 1) = field ++ rest) :
    integerAt profile name der p =
      if 2 ^ 64 ≤ p + 1 + field.length + length then
        .error (.panic (beyondUsize profile))
      else if rest.length < length then
        .error (.error (name ++ " length exceeds buffer".toList))
      else
        .ok (stripAsn1IntegerSign (rest.take length),
          p + 1 + field.length + length) := by
  have few := lengthField.field_length_le
  have high := lengthField.length_lt
  have whole : der.length = p + 1 + field.length + rest.length := by
    have count := congrArg List.length tail
    rw [List.length_drop, List.length_append] at count
    omega
  have place : p + (1 + field.length) = p + 1 + field.length := by omega
  rw [integerAt, Profile.addUsize_of_lt (by omega), Call.ok_bind,
    Call.slice_drop (by omega), Call.ok_bind, tail,
    readDerLength_of_field lengthField, Call.ok_bind]
  simp only
  rw [Profile.addUsize_of_lt (by omega), Call.ok_bind,
    Profile.addUsize_of_lt (by omega), Call.ok_bind, place]
  split_ifs with beyond short
  · cases profile with
    | dev =>
        rw [Profile.addUsize, if_neg (by omega)]
        rfl
    | release =>
        -- the sum wraps around to a place before the value
        have wrapped : (p + 1 + field.length + length) % 2 ^ 64 <
            p + 1 + field.length := by omega
        rw [Profile.addUsize, if_neg (by omega)]
        simp only [Call.ok_bind]
        rw [if_neg (by omega), Call.slice, if_neg (by omega)]
        rfl
  · rw [Profile.addUsize_of_lt (by omega), Call.ok_bind, if_pos (by omega)]
  · have back : (der.take (p + 1 + field.length + length)).drop
        (p + 1 + field.length) = rest.take length := by
      rw [← List.take_drop, ← List.drop_drop, tail, List.drop_left]
    rw [Profile.addUsize_of_lt (by omega), Call.ok_bind, if_neg (by omega),
      Call.slice, if_pos (by omega), back]
    rfl

theorem integerAt_of_error (bounded : der.length < 2 ^ 63)
    (inside : p < der.length) {abort : Abort Str}
    (unread : readDerLength (der.drop (p + 1)) = .error abort) :
    integerAt profile name der p = .error abort := by
  rw [integerAt, Profile.addUsize_of_lt (by omega), Call.ok_bind,
    Call.slice_drop (by omega), Call.ok_bind, unread]
  rfl

/-- An integer at the front, with its length in a form that is read. -/
def IntegerFront (value rest input : List UInt8) : Prop :=
  ∃ field, LengthField value.length field ∧
    input = 0x02 :: field ++ value ++ rest

theorem drop_of_getElem? {place : Nat} {tag : UInt8}
    (found : der[place]? = some tag) :
    place < der.length ∧ der.drop place = tag :: der.drop (place + 1) := by
  obtain ⟨inside, rfl⟩ := List.getElem?_eq_some_iff.mp found
  exact ⟨inside, List.drop_eq_getElem_cons inside⟩

theorem integerAt_eq_ok_iff (bounded : der.length < 2 ^ 63)
    (integer : der[p]? = some 0x02) :
    integerAt profile name der p = .ok (bytes, stop) ↔
      ∃ value rest, IntegerFront value rest (der.drop p) ∧
        bytes = stripAsn1IntegerSign value ∧ der.drop stop = rest ∧
          stop ≤ der.length := by
  obtain ⟨inside, front⟩ := drop_of_getElem? integer
  constructor
  · intro read
    cases unread : readDerLength (der.drop (p + 1)) with
    | error abort =>
        rw [integerAt_of_error bounded inside unread] at read
        cases read
    | ok pair =>
        obtain ⟨length, count⟩ := pair
        obtain ⟨field, behind, tail, lengthField, rfl⟩ :=
          readDerLength_eq_ok_iff.mp unread
        rw [integerAt_of_field bounded inside lengthField tail] at read
        split_ifs at read with beyond short
        obtain ⟨rfl, rfl⟩ := Prod.mk.inj (Except.ok.inj read)
        have taken := List.length_take_of_le (Nat.le_of_not_lt short)
        have whole := congrArg List.length tail
        rw [List.length_drop, List.length_append] at whole
        refine ⟨behind.take length, behind.drop length, ⟨field, ?_, ?_⟩, rfl,
          ?_, ?_⟩
        · rw [taken]
          exact lengthField
        · rw [front, tail, List.cons_append, List.cons_append,
            List.append_assoc, List.take_append_drop]
        · rw [← List.drop_drop, ← List.drop_drop, tail, List.drop_left]
        · omega
  · rintro ⟨value, rest, ⟨field, lengthField, same⟩, rfl, rfl, within⟩
    have tail : der.drop (p + 1) = field ++ (value ++ der.drop stop) := by
      rw [front, List.cons_append, List.cons_append, List.append_assoc] at same
      exact (List.cons.inj same).2
    have whole := congrArg List.length tail
    rw [List.length_drop, List.length_append, List.length_append,
      List.length_drop] at whole
    have place : p + 1 + field.length + value.length = stop := by omega
    rw [integerAt_of_field bounded inside lengthField tail, place,
      if_neg (by omega), if_neg (by simp), List.take_left]

/-- The length of the integer at the front takes its end beyond `usize`. -/
def Beyond (der input : List UInt8) : Prop :=
  ∃ length field rest, LengthField length field ∧
    input = 0x02 :: field ++ rest ∧ 2 ^ 64 ≤ der.length - rest.length + length

theorem returns_integerAt (bounded : der.length < 2 ^ 63)
    (integer : der[p]? = some 0x02) :
    (integerAt profile name der p).Returns ↔ ¬ Beyond der (der.drop p) := by
  obtain ⟨inside, front⟩ := drop_of_getElem? integer
  cases unread : readDerLength (der.drop (p + 1)) with
  | error abort =>
      rw [integerAt_of_error bounded inside unread]
      refine iff_of_true ?_ ?_
      · intro panic same
        obtain rfl := Except.error.inj same
        exact returns_readDerLength _ panic unread
      · rintro ⟨length, field, rest, lengthField, same, -⟩
        rw [front, List.cons_append] at same
        rw [(List.cons.inj same).2, readDerLength_of_field lengthField]
          at unread
        cases unread
  | ok pair =>
      obtain ⟨length, count⟩ := pair
      obtain ⟨field, rest, tail, lengthField, rfl⟩ :=
        readDerLength_eq_ok_iff.mp unread
      have whole := congrArg List.length tail
      rw [List.length_drop, List.length_append] at whole
      have place : der.length - rest.length = p + 1 + field.length := by omega
      rw [integerAt_of_field bounded inside lengthField tail]
      by_cases beyond : 2 ^ 64 ≤ p + 1 + field.length + length
      · rw [if_pos beyond]
        refine iff_of_false (Call.not_returns_panic _) (not_not.mpr ?_)
        refine ⟨length, field, rest, lengthField, ?_, by rwa [place]⟩
        rw [front, tail, List.cons_append]
      · rw [if_neg beyond]
        refine iff_of_true ?_ ?_
        · split_ifs
          · exact Call.returns_error _
          · exact Call.returns_ok _
        · rintro ⟨length', field', rest', other, same, over'⟩
          rw [front, List.cons_append, tail] at same
          obtain ⟨rfl, rfl, rfl⟩ :=
            lengthField.unique other (List.cons.inj same).2
          rw [place] at over'
          exact beyond over'

/-! ## The key -/

/-- The place where the reader goes on: as many bytes behind the first as the
sequence is long. -/
def GoesOnAt (der : List UInt8) (place : Nat) : Prop :=
  ∃ length field rest, LengthField length field ∧
    der = 0x30 :: field ++ rest ∧ place = 1 + length

/-- The two integers that stand at that place. -/
def IntegersAt (der n e : List UInt8) : Prop :=
  ∃ place middle rest, GoesOnAt der place ∧
    IntegerFront n middle (der.drop place) ∧ IntegerFront e rest middle

/-- The inputs that stop the reader. -/
inductive Escapes (profile : Profile) (der : List UInt8) : Prop where
  | sequence (checks : profile = .dev) (goesOn : GoesOnAt der (2 ^ 64))
  | modulusTag (goesOn : GoesOnAt der der.length)
  | modulus {place : Nat} (goesOn : GoesOnAt der place)
      (beyond : Beyond der (der.drop place))
  | exponent {place : Nat} {n middle : List UInt8}
      (goesOn : GoesOnAt der place)
      (integer : IntegerFront n middle (der.drop place))
      (beyond : Beyond der middle)

variable {n e : List UInt8} {place : Nat}

theorem GoesOnAt.unique {other : Nat} (left : GoesOnAt der place)
    (right : GoesOnAt der other) : place = other := by
  obtain ⟨length, field, rest, lengthField, rfl, rfl⟩ := left
  obtain ⟨length', field', rest', other, same, rfl⟩ := right
  rw [List.cons_append, List.cons_append] at same
  rw [(lengthField.unique other (List.cons.inj same).2).1]

theorem IntegerFront.getElem? {middle : List UInt8}
    (integer : IntegerFront n middle (der.drop p)) : der[p]? = some 0x02 := by
  obtain ⟨field, -, same⟩ := integer
  rw [← Nat.add_zero p, ← List.getElem?_drop, same]
  rfl

/-- Without the tag of an integer there is nothing to return; at the end of the
input there is no tag either. -/
theorem integersFrom_of_ne (profile : Profile) (other : der[p]? ≠ some 0x02) :
    if p = der.length then
      integersFrom profile der p = .error (.panic .outOfRange)
    else ∃ text, integersFrom profile der p = .error (.error text) := by
  split_ifs with ends
  · have outside : der[p]? = none := List.getElem?_eq_none ends.ge
    rw [integersFrom, if_neg (by omega), Call.index_of_none outside]
    rfl
  · rcases Nat.lt_or_gt_of_ne ends with inside | beyond
    · have found : der[p]? = some der[p] := List.getElem?_eq_getElem inside
      have wrong : der[p] ≠ 0x02 := fun tag => other (tag ▸ found)
      rw [integersFrom, if_neg (by omega), Call.index_of_some found,
        Call.ok_bind, if_pos wrong]
      exact ⟨_, rfl⟩
    · rw [integersFrom, if_pos beyond]
      exact ⟨_, rfl⟩

theorem integersFrom_of_eq (integer : der[p]? = some 0x02) :
    integersFrom profile der p = (do
      let (nBytes, p) ← integerAt profile "modulus".toList der p
      if der[p]? ≠ some 0x02 then
        .error (.error "expected INTEGER tag 0x02 for exponent".toList)
      else
        let (eBytes, _) ← integerAt profile "exponent".toList der p
        return (nBytes, eBytes)) := by
  have inside := (drop_of_getElem? integer).1
  rw [integersFrom, if_neg (by omega), Call.index_of_some integer,
    Call.ok_bind, if_neg (not_not.mpr rfl)]

theorem Beyond.getElem? (beyond : Beyond der (der.drop p)) :
    der[p]? = some 0x02 := by
  obtain ⟨length, field, rest, -, same, -⟩ := beyond
  rw [← Nat.add_zero p, ← List.getElem?_drop, same]
  rfl

/-- An integer is read up to the place of what stands behind it. -/
theorem IntegerFront.exists_stop (profile : Profile) (name : Str)
    (bounded : der.length < 2 ^ 63) {middle : List UInt8}
    (integer : IntegerFront n middle (der.drop p)) :
    ∃ stop, der.drop stop = middle ∧ integerAt profile name der p =
      .ok (stripAsn1IntegerSign n, stop) := by
  have tag := integer.getElem?
  have inside := (drop_of_getElem? tag).1
  obtain ⟨field, lengthField, same⟩ := integer
  have whole := congrArg List.length same
  rw [List.length_append, List.length_drop] at whole
  have behind : der.drop (p + (0x02 :: field ++ n).length) = middle := by
    rw [← List.drop_drop, same, List.drop_left]
  refine ⟨_, behind, (integerAt_eq_ok_iff bounded tag).mpr ?_⟩
  exact ⟨n, middle, ⟨field, lengthField, same⟩, rfl, behind, by omega⟩

theorem integersFrom_eq_ok_iff (bounded : der.length < 2 ^ 63) :
    integersFrom profile der p = .ok (n, e) ↔
      ∃ modulus exponent middle rest,
        IntegerFront modulus middle (der.drop p) ∧
          IntegerFront exponent rest middle ∧
            n = stripAsn1IntegerSign modulus ∧
              e = stripAsn1IntegerSign exponent := by
  constructor
  · intro read
    by_cases integer : der[p]? = some 0x02
    · rw [integersFrom_of_eq integer] at read
      obtain ⟨⟨nBytes, next⟩, first, read⟩ := bind_eq_ok_iff.mp read
      simp only at read
      split_ifs at read with second
      have tag := not_not.mp second
      obtain ⟨⟨eBytes, stop⟩, last, read⟩ := bind_eq_ok_iff.mp read
      obtain ⟨rfl, rfl⟩ := Prod.mk.inj (Except.ok.inj read)
      obtain ⟨modulus, middle, nFront, rfl, rfl, -⟩ :=
        (integerAt_eq_ok_iff bounded integer).mp first
      obtain ⟨exponent, rest, eFront, rfl, -, -⟩ :=
        (integerAt_eq_ok_iff bounded tag).mp last
      exact ⟨modulus, exponent, _, rest, nFront, eFront, rfl, rfl⟩
    · have outcome := integersFrom_of_ne profile integer
      split_ifs at outcome with ends
      · rw [outcome] at read
        cases read
      · obtain ⟨text, refused⟩ := outcome
        rw [refused] at read
        cases read
  · rintro ⟨modulus, exponent, middle, rest, nFront, eFront, rfl, rfl⟩
    obtain ⟨stop, rfl, first⟩ :=
      nFront.exists_stop profile "modulus".toList bounded
    obtain ⟨last, rfl, second⟩ :=
      eFront.exists_stop profile "exponent".toList bounded
    rw [integersFrom_of_eq nFront.getElem?, first, Call.ok_bind]
    simp only
    rw [if_neg (not_not.mpr eFront.getElem?), second]
    rfl

theorem returns_integersFrom (bounded : der.length < 2 ^ 63) :
    (integersFrom profile der p).Returns ↔
      p ≠ der.length ∧ ¬ Beyond der (der.drop p) ∧
        ∀ modulus middle, IntegerFront modulus middle (der.drop p) →
          ¬ Beyond der middle := by
  by_cases integer : der[p]? = some 0x02
  · have inside := (drop_of_getElem? integer).1
    rw [integersFrom_of_eq integer, Call.returns_bind_iff,
      returns_integerAt bounded integer]
    constructor
    · rintro ⟨fits, following⟩
      refine ⟨inside.ne, fits, ?_⟩
      intro modulus middle front beyond
      obtain ⟨stop, rfl, read⟩ :=
        front.exists_stop profile "modulus".toList bounded
      have tag : der[stop]? = some 0x02 := beyond.getElem?
      have returns := following _ read
      simp only at returns
      rw [if_neg (not_not.mpr tag), Call.returns_bind_iff,
        returns_integerAt bounded tag] at returns
      exact returns.1 beyond
    · rintro ⟨-, fits, following⟩
      refine ⟨fits, ?_⟩
      rintro ⟨nBytes, stop⟩ read
      obtain ⟨modulus, middle, front, rfl, rfl, within⟩ :=
        (integerAt_eq_ok_iff bounded integer).mp read
      simp only
      split_ifs with second
      · exact Call.returns_error _
      · rw [Call.returns_bind_iff,
          returns_integerAt bounded (not_not.mp second)]
        exact ⟨following modulus _ front, fun _ _ => Call.returns_ok _⟩
  · have outcome := integersFrom_of_ne profile integer
    split_ifs at outcome with ends
    · rw [outcome]
      exact iff_of_false (Call.not_returns_panic _) fun all => all.1 ends
    · obtain ⟨text, refused⟩ := outcome
      rw [refused]
      refine iff_of_true (Call.returns_error _) ⟨ends, ?_, ?_⟩
      · exact fun beyond => integer beyond.getElem?
      · exact fun _ _ front => absurd front.getElem? integer

theorem parsePkcs1RsaPubkey_of_field
    (lengthField : LengthField length field) :
    parsePkcs1RsaPubkey profile (0x30 :: field ++ rest) =
      (profile.addUsize 1 length >>=
        integersFrom profile (0x30 :: field ++ rest)) := by
  have positive := lengthField.field_positive
  have long : 2 ≤ (0x30 :: field ++ rest).length := by
    rw [List.length_append, List.length_cons]
    omega
  have tag : ¬ (0x30 :: field ++ rest).head? ≠ some 0x30 :=
    not_not.mpr rfl
  have behind : (0x30 :: field ++ rest).drop 1 = field ++ rest := rfl
  rw [parsePkcs1RsaPubkey, if_neg (not_or.mpr ⟨by omega, tag⟩),
    Call.slice_drop (by omega), Call.ok_bind, behind,
    readDerLength_of_field lengthField, Call.ok_bind]

theorem parsePkcs1RsaPubkey_of_not (profile : Profile)
    (none : ∀ place, ¬ GoesOnAt der place) :
    ∃ text, parsePkcs1RsaPubkey profile der = .error (.error text) := by
  rw [parsePkcs1RsaPubkey]
  split_ifs with short
  · exact ⟨_, rfl⟩
  · obtain ⟨long, tag⟩ := not_or.mp short
    obtain ⟨rest, rfl⟩ := List.head?_eq_some_iff.mp (not_not.mp tag)
    rw [Call.slice_drop (by simp), Call.ok_bind]
    cases unread : readDerLength ((0x30 :: rest).drop 1) with
    | error abort =>
        cases abort with
        | error text => exact ⟨text, rfl⟩
        | panic panic => exact absurd unread (returns_readDerLength _ panic)
    | ok pair =>
        obtain ⟨length, count⟩ := pair
        obtain ⟨field, behind, tail, lengthField, -⟩ :=
          readDerLength_eq_ok_iff.mp unread
        rw [List.drop_one, List.tail_cons] at tail
        refine absurd ⟨length, field, behind, lengthField, ?_, rfl⟩
          (none (1 + length))
        rw [tail, List.cons_append]

/-- In an unchecked build the place wraps around to the tag of the sequence. -/
theorem parsePkcs1RsaPubkey_of_goesOnAt (goesOn : GoesOnAt der place) :
    parsePkcs1RsaPubkey profile der =
      if place < 2 ^ 64 then integersFrom profile der place
      else
        match profile with
        | .dev => .error (.panic .overflow)
        | .release => .error (.error
            "expected INTEGER tag 0x02 for modulus".toList) := by
  obtain ⟨length, field, rest, lengthField, rfl, rfl⟩ := goesOn
  rw [parsePkcs1RsaPubkey_of_field lengthField]
  split_ifs with fits
  · rw [Profile.addUsize_of_lt fits, Call.ok_bind]
  · have high := lengthField.length_lt
    have wraps : (1 + length) % 2 ^ 64 = 0 := by omega
    have tag : (0x30 :: field ++ rest)[0]? = some 0x30 := rfl
    cases profile with
    | dev =>
        rw [Profile.addUsize, if_neg fits]
        rfl
    | release =>
        rw [Profile.addUsize, if_neg fits]
        simp only [Call.ok_bind, wraps]
        rw [integersFrom, if_neg (Nat.not_lt_zero _), Call.index_of_some tag]
        rfl

theorem parsePkcs1RsaPubkey_eq_ok_iff (bounded : der.length < 2 ^ 63) :
    parsePkcs1RsaPubkey profile der = .ok (n, e) ↔
      ∃ modulus exponent, IntegersAt der modulus exponent ∧
        n = stripAsn1IntegerSign modulus ∧
          e = stripAsn1IntegerSign exponent := by
  by_cases goes : ∃ place, GoesOnAt der place
  · obtain ⟨place, goesOn⟩ := goes
    rw [parsePkcs1RsaPubkey_of_goesOnAt goesOn]
    split_ifs with fits
    · rw [integersFrom_eq_ok_iff bounded]
      constructor
      · rintro ⟨modulus, exponent, middle, rest, nFront, eFront, same⟩
        exact ⟨modulus, exponent, ⟨place, middle, rest, goesOn, nFront, eFront⟩,
          same⟩
      · rintro ⟨modulus, exponent,
          ⟨other, middle, rest, also, nFront, eFront⟩, same⟩
        obtain rfl := also.unique goesOn
        exact ⟨modulus, exponent, middle, rest, nFront, eFront, same⟩
    · refine iff_of_false (by cases profile <;> simp) ?_
      rintro ⟨modulus, exponent, ⟨other, middle, rest, also, nFront, -⟩, -⟩
      obtain rfl := also.unique goesOn
      have inside := (drop_of_getElem? nFront.getElem?).1
      omega
  · obtain ⟨text, refused⟩ := parsePkcs1RsaPubkey_of_not profile
      (not_exists.mp goes)
    rw [refused]
    refine iff_of_false nofun ?_
    rintro ⟨modulus, exponent, ⟨place, middle, rest, goesOn, -⟩, -⟩
    exact goes ⟨place, goesOn⟩

theorem returns_parsePkcs1RsaPubkey (bounded : der.length < 2 ^ 63) :
    (parsePkcs1RsaPubkey profile der).Returns ↔ ¬ Escapes profile der := by
  by_cases goes : ∃ place, GoesOnAt der place
  · obtain ⟨place, goesOn⟩ := goes
    rw [parsePkcs1RsaPubkey_of_goesOnAt goesOn]
    split_ifs with fits
    · rw [returns_integersFrom bounded]
      constructor
      · rintro ⟨ends, modulusFits, exponentFits⟩ escapes
        cases escapes with
        | sequence _ also => exact absurd (also.unique goesOn) (by omega)
        | modulusTag also => exact ends (goesOn.unique also)
        | modulus also beyond =>
            exact modulusFits (also.unique goesOn ▸ beyond)
        | exponent also integer beyond =>
            obtain rfl := also.unique goesOn
            exact exponentFits _ _ integer beyond
      · intro within
        refine ⟨?_, fun beyond => within (.modulus goesOn beyond),
          fun _ _ integer beyond => within (.exponent goesOn integer beyond)⟩
        rintro rfl
        exact within (.modulusTag goesOn)
    · have top : place = 2 ^ 64 := by
        obtain ⟨length, field, rest, lengthField, -, rfl⟩ := goesOn
        have high := lengthField.length_lt
        omega
      subst top
      cases profile with
      | dev =>
          exact iff_of_false (Call.not_returns_panic _)
            (not_not.mpr (.sequence rfl goesOn))
      | release =>
          refine iff_of_true (Call.returns_error _) fun escapes => ?_
          cases escapes with
          | sequence checks _ => cases checks
          | modulusTag also => exact absurd (also.unique goesOn) (by omega)
          | modulus also beyond =>
              have inside := (drop_of_getElem? beyond.getElem?).1
              have same := also.unique goesOn
              omega
          | exponent also integer _ =>
              have inside := (drop_of_getElem? integer.getElem?).1
              have same := also.unique goesOn
              omega
  · obtain ⟨text, refused⟩ := parsePkcs1RsaPubkey_of_not profile
      (not_exists.mp goes)
    rw [refused]
    refine iff_of_true (Call.returns_error _) fun escapes => goes ?_
    cases escapes with
    | sequence _ goesOn => exact ⟨_, goesOn⟩
    | modulusTag goesOn => exact ⟨_, goesOn⟩
    | modulus goesOn => exact ⟨_, goesOn⟩
    | exponent goesOn => exact ⟨_, goesOn⟩

/-! ## Encodings of keys -/

def rsaPublicKeyDer (n e : Nat) : List UInt8 :=
  Der.encode 0x30 (Der.integer n ++ Der.integer e)

/-- The sequence at the front contains these two integers and nothing else. -/
def ContainsIntegers (der : List UInt8) (n e : Nat) : Prop :=
  ∃ header content rest nHeader nValue eHeader eValue,
    der = 0x30 :: header ++ content ++ rest ∧
      Der.Definite content.length header ∧
      content = 0x02 :: nHeader ++ nValue ++ (0x02 :: eHeader ++ eValue) ∧
      (Der.Definite nValue.length nHeader ∧ nValue ≠ [] ∧
        Der.signed nValue = n) ∧
      (Der.Definite eValue.length eHeader ∧ eValue ≠ [] ∧
        Der.signed eValue = e)

theorem lengthField_field (high : length < 2 ^ 64) :
    LengthField length (Der.lengthField length) := by
  rw [Der.lengthField]
  split_ifs with small
  · have back : (UInt8.ofNat length).toNat = length :=
      toNat_ofNat_byte (by omega)
    have short : UInt8.ofNat length < 0x80 := by
      rw [UInt8.lt_iff_toNat_lt, back]
      exact small
    have field := LengthField.short short
    rwa [back] at field
  · have few : (valueBytes length).length ≤ 8 :=
      valueBytes_length_le (by norm_num at high ⊢; exact high)
    have field := LengthField.long (Der.valueBytes_ne_nil (by omega)) few
    rwa [bytesValue_valueBytes] at field

theorem IntegersAt.length_le (integers : IntegersAt der n e)
    (goesOn : GoesOnAt der place) :
    place + 4 + n.length + e.length ≤ der.length := by
  obtain ⟨other, middle, rest, also, nFront, ⟨eField, eLength, rfl⟩⟩ :=
    integers
  obtain rfl := also.unique goesOn
  have inside := (drop_of_getElem? nFront.getElem?).1
  obtain ⟨nField, nLength, same⟩ := nFront
  have whole := congrArg List.length same
  have nPositive := nLength.field_positive
  have ePositive := eLength.field_positive
  simp only [List.length_drop, List.length_append, List.length_cons] at whole
  omega

/-- Behind the length of the sequence at most the bytes of its length field are
left. -/
theorem IntegersAt.length_le_field {modulus exponent : Nat}
    (bounded : (rsaPublicKeyDer modulus exponent).length < 2 ^ 63)
    (integers : IntegersAt (rsaPublicKeyDer modulus exponent) n e) :
    4 + n.length + e.length ≤ (Der.lengthField
      (Der.integer modulus ++ Der.integer exponent).length).length ∧
    4 + n.length + e.length ≤ 9 := by
  set content := Der.integer modulus ++ Der.integer exponent
  have whole : rsaPublicKeyDer modulus exponent =
      0x30 :: Der.lengthField content.length ++ content := rfl
  have total : (rsaPublicKeyDer modulus exponent).length =
      1 + (Der.lengthField content.length).length + content.length := by
    rw [whole, List.length_append, List.length_cons]
    omega
  have field : LengthField content.length (Der.lengthField content.length) :=
    lengthField_field (by omega)
  have few := field.field_length_le
  have room := integers.length_le ⟨_, _, content, field, whole, rfl⟩
  omega

/-- A key that would fit there needs a length field of one byte only. -/
theorem not_integersAt_rsaPublicKeyDer {modulus exponent : Nat}
    (bounded : (rsaPublicKeyDer modulus exponent).length < 2 ^ 63)
    (nBytes : (valueBytes modulus).length ≤ n.length)
    (eBytes : (valueBytes exponent).length ≤ e.length) :
    ¬ IntegersAt (rsaPublicKeyDer modulus exponent) n e := by
  intro integers
  obtain ⟨room, few⟩ := integers.length_le_field bounded
  have nOctets := Der.integerBytes_length_le modulus
  have eOctets := Der.integerBytes_length_le exponent
  have nWhole : (Der.integer modulus).length =
      2 + (Der.integerBytes modulus).length :=
    Der.encode_length_of_lt (by omega)
  have eWhole : (Der.integer exponent).length =
      2 + (Der.integerBytes exponent).length :=
    Der.encode_length_of_lt (by omega)
  rw [Der.lengthField_of_lt, List.length_singleton] at room
  · omega
  · rw [List.length_append, nWhole, eWhole]
    omega

theorem parsePkcs1RsaPubkey_not_inverse (profile : Profile) :
    (∀ n e, 0 < n → 0 < e → (rsaPublicKeyDer n e).length < 2 ^ 63 →
      parsePkcs1RsaPubkey profile (rsaPublicKeyDer n e) ≠
        .ok (valueBytes n, valueBytes e)) ∧
    ∀ der, der.length < 2 ^ 63 →
      ((∀ n e, parsePkcs1RsaPubkey profile der = .ok (n, e) →
        ContainsIntegers der (bytesValue n) (bytesValue e)) ↔
          ∀ n e, IntegersAt der n e →
            ContainsIntegers der (bytesValue n) (bytesValue e)) := by
  constructor
  · intro n e _ _ bounded read
    obtain ⟨modulus, exponent, integers, nSame, eSame⟩ :=
      (parsePkcs1RsaPubkey_eq_ok_iff bounded).mp read
    refine not_integersAt_rsaPublicKeyDer bounded ?_ ?_ integers
    · rw [nSame]
      exact strip_length_le modulus
    · rw [eSame]
      exact strip_length_le exponent
  · intro der bounded
    constructor
    · intro sound n e integers
      have contained := sound _ _ ((parsePkcs1RsaPubkey_eq_ok_iff bounded).mpr
        ⟨n, e, integers, rfl, rfl⟩)
      rwa [bytesValue_stripAsn1IntegerSign, bytesValue_stripAsn1IntegerSign]
        at contained
    · intro sound n e read
      obtain ⟨modulus, exponent, integers, rfl, rfl⟩ :=
        (parsePkcs1RsaPubkey_eq_ok_iff bounded).mp read
      rw [bytesValue_stripAsn1IntegerSign, bytesValue_stripAsn1IntegerSign]
      exact sound modulus exponent integers

theorem five_three_not_read :
    parsePkcs1RsaPubkey .dev (rsaPublicKeyDer 5 3) ≠
      .ok (valueBytes 5, valueBytes 3) :=
  (parsePkcs1RsaPubkey_not_inverse .dev).1 5 3 (by decide) (by decide)
    (by decide)

/-- A sequence of one byte holds no two integers. -/
theorem not_containsIntegers_one {rest : List UInt8} {modulus exponent : Nat} :
    ¬ ContainsIntegers (0x30 :: 1 :: rest) modulus exponent := by
  rintro ⟨header, content, behind, nHeader, nValue, eHeader, eValue, same,
    field, rfl, -, -⟩
  rw [List.cons_append, List.cons_append] at same
  have first := (List.cons.inj same).2
  generalize lengthIs : (0x02 :: nHeader ++ nValue ++
    (0x02 :: eHeader ++ eValue)).length = length at field
  cases field with
  | short small =>
      have back : (UInt8.ofNat length).toNat = length :=
        toNat_ofNat_byte (by omega)
      rw [List.singleton_append, List.cons_append] at first
      rw [← (List.cons.inj first).1] at back
      change 1 = length at back
      simp only [List.length_append, List.length_cons] at lengthIs
      omega
  | @long bytes nonempty few =>
      have back : (UInt8.ofNat (128 + bytes.length)).toNat =
          128 + bytes.length := toNat_ofNat_byte (by omega)
      rw [List.cons_append, List.cons_append] at first
      rw [← (List.cons.inj first).1] at back
      change 1 = 128 + bytes.length at back
      omega

/-- An encoding is refused, and a sequence of one byte is taken for a key. -/
theorem key_misread :
    parsePkcs1RsaPubkey .release (rsaPublicKeyDer 143 3) =
      .error (.error "expected INTEGER tag 0x02 for modulus".toList) ∧
    parsePkcs1RsaPubkey .release [0x30, 1, 2, 1, 5, 2, 1, 3] =
      .ok ([5], [3]) ∧
    ¬ ContainsIntegers [0x30, 1, 2, 1, 5, 2, 1, 3] 5 3 :=
  ⟨by decide, by decide, not_containsIntegers_one⟩

end TrustLayer.ThemisEvidence.Timestamp
