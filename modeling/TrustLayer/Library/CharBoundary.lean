import TrustLayer.Library.Slices
import TrustLayer.Library.Text

/-!
# Character boundaries

A place in the bytes of a text is a boundary when whole characters stand in
front of it.
-/

namespace TrustLayer.Library

/-- `is_char_boundary`. -/
def CharBoundary (text : Str) (place : Nat) : Prop :=
  ∃ front rest, text = front ++ rest ∧ byteLen front = place

variable {text front rest : Str} {limit place : Nat}

theorem byteLen_cons (char : Char) (text : Str) :
    byteLen (char :: text) = char.utf8Size + byteLen text := by
  simp [byteLen, asBytes, utf8Bytes, String.length_utf8EncodeChar]

/-- A text has as many bytes as characters only where each takes one byte. -/
theorem byteLen_eq_length_iff : byteLen text = text.length ↔ IsAscii text := by
  constructor
  · intro same
    have atLeast : ∀ text : Str, text.length ≤ byteLen text := by
      intro text
      induction text with
      | nil => exact Nat.zero_le _
      | cons char text inductionHypothesis =>
          have positive := char.utf8Size_pos
          rw [byteLen_cons, List.length_cons]
          omega
    induction text with
    | nil => exact isAscii_nil
    | cons char text inductionHypothesis =>
        have positive := char.utf8Size_pos
        have tail := atLeast text
        rw [byteLen_cons, List.length_cons] at same
        have one : char.utf8Size = 1 := by omega
        have small := UInt32.le_iff_toNat_le.mp (Char.utf8Size_eq_one_iff.mp one)
        exact isAscii_cons.mpr
          ⟨Nat.lt_succ_of_le small, inductionHypothesis (by omega)⟩
  · intro ascii
    rw [byteLen, asBytes_of_ascii ascii]

theorem prefixWithin_prefix (limit : Nat) (text : Str) :
    prefixWithin limit text <+: text := by
  induction text generalizing limit with
  | nil => exact List.prefix_rfl
  | cons char rest inductionHypothesis =>
      rw [prefixWithin]
      split_ifs
      · exact (List.prefix_cons_inj char).mpr (inductionHypothesis _)
      · exact List.nil_prefix

/-- Characters that take as many bytes as there are to take are taken. -/
theorem prefixWithin_append (front rest : Str) :
    prefixWithin (byteLen front) (front ++ rest) = front := by
  induction front with
  | nil =>
      cases rest with
      | nil => rfl
      | cons char rest =>
          have positive := char.utf8Size_pos
          have none : byteLen ([] : Str) = 0 := rfl
          rw [List.nil_append, none, prefixWithin, if_neg (by omega)]
  | cons char front inductionHypothesis =>
      rw [List.cons_append, prefixWithin, byteLen_cons, if_pos (by omega),
        Nat.add_sub_cancel_left, inductionHypothesis]

theorem byteLen_prefixWithin_eq_iff :
    byteLen (prefixWithin limit text) = limit ↔ CharBoundary text limit := by
  constructor
  · intro whole
    obtain ⟨rest, same⟩ := prefixWithin_prefix limit text
    exact ⟨prefixWithin limit text, rest, same.symm, whole⟩
  · rintro ⟨front, rest, rfl, rfl⟩
    rw [prefixWithin_append]

instance (text : Str) (place : Nat) : Decidable (CharBoundary text place) :=
  decidable_of_iff _ byteLen_prefixWithin_eq_iff

theorem charBoundary_byteLen (text : Str) : CharBoundary text (byteLen text) :=
  ⟨text, [], (List.append_nil text).symm, rfl⟩

theorem charBoundary_append (front rest : Str) :
    CharBoundary (front ++ rest) (byteLen front) :=
  ⟨front, rest, rfl, rfl⟩

/-- There is none between the bytes of a character. -/
theorem not_charBoundary_inside {char : Char} (after : byteLen front < place)
    (before : place < byteLen front + char.utf8Size) :
    ¬ CharBoundary (front ++ char :: rest) place := by
  rintro ⟨taken, left, same, bytes⟩
  rcases List.append_eq_append_iff.mp same with
    ⟨more, rfl, behind⟩ | ⟨more, rfl, -⟩
  · rw [byteLen_append] at bytes
    cases more with
    | nil => exact absurd bytes (Nat.ne_of_lt after)
    | cons first more =>
        obtain ⟨rfl, -⟩ := List.cons.inj behind
        rw [byteLen_cons] at bytes
        omega
  · rw [byteLen_append] at after
    omega

/-- Every place of an ASCII text is a boundary. -/
theorem charBoundary_of_ascii (ascii : IsAscii text)
    (inside : place ≤ byteLen text) : CharBoundary text place := by
  rw [byteLen, asBytes_of_ascii ascii] at inside
  refine ⟨text.take place, text.drop place,
    (List.take_append_drop place text).symm, ?_⟩
  have front : IsAscii (text.take place) :=
    fun char member => ascii char (List.mem_of_mem_take member)
  rw [byteLen, asBytes_of_ascii front, List.length_take_of_le inside]

/-! ## Characters among the bytes -/

/-- An ASCII byte is a character of its own, between two boundaries. -/
theorem exists_of_asBytes {byte : Char} (ascii : byte.toNat < 128)
    {left right : List Char} (bytes : asBytes text = left ++ byte :: right) :
    ∃ front rest, text = front ++ byte :: rest ∧ asBytes front = left ∧
      asBytes rest = right := by
  induction text generalizing left with
  | nil => simp at bytes
  | cons char text inductionHypothesis =>
      rw [asBytes_cons] at bytes
      rcases List.append_eq_append_iff.mp bytes with
        ⟨middle, rfl, later⟩ | ⟨middle, same, later⟩
      · obtain ⟨front, rest, rfl, rfl, rfl⟩ := inductionHypothesis later
        exact ⟨char :: front, rest, rfl, asBytes_cons char front, rfl⟩
      · cases middle with
        | nil =>
            obtain ⟨front, rest, rfl, nothing, rfl⟩ :=
              @inductionHypothesis [] later.symm
            refine ⟨char :: front, rest, rfl, ?_, rfl⟩
            rw [asBytes_cons, nothing, same]
            simp
        | cons first middle =>
            obtain ⟨rfl, rfl⟩ := List.cons.inj later
            have small : char.toNat < 128 := by
              by_contra wide
              have large := le_toNat_of_mem_asBytes wide byte
                (by rw [same]; simp)
              omega
            rw [asBytes_singleton_of_ascii small] at same
            obtain ⟨rfl, alone⟩ :=
              List.append_eq_singleton_iff.mp same.symm |>.resolve_right
                (fun other => List.cons_ne_nil _ _ other.2)
            obtain ⟨rfl, rfl⟩ := List.cons.inj alone
            exact ⟨[], text, rfl, rfl, rfl⟩

theorem asBytes_eq_nil : asBytes text = [] ↔ text = [] := by
  cases text with
  | nil => exact iff_of_true rfl rfl
  | cons char text =>
      refine iff_of_false ?_ (List.cons_ne_nil _ _)
      rw [asBytes_cons]
      exact fun empty => asBytes_ne_nil char (List.append_eq_nil_iff.mp empty).1

theorem byteLen_eq_zero : byteLen text = 0 ↔ text = [] := by
  rw [byteLen, List.length_eq_zero_iff, asBytes_eq_nil]

/-- ASCII bytes at the start are the characters at the start. -/
theorem exists_of_asBytes_append {left right : List Char} (ascii : IsAscii left)
    (bytes : asBytes text = left ++ right) :
    ∃ rest, text = left ++ rest ∧ asBytes rest = right := by
  induction left generalizing text with
  | nil => exact ⟨text, rfl, bytes⟩
  | cons byte left inductionHypothesis =>
      obtain ⟨small, others⟩ := isAscii_cons.mp ascii
      obtain ⟨front, rest, rfl, nothing, later⟩ :=
        @exists_of_asBytes _ _ small [] _ bytes
      obtain rfl := asBytes_eq_nil.mp nothing
      obtain ⟨behind, rfl, same⟩ := inductionHypothesis others later
      exact ⟨behind, rfl, same⟩

/-- `find`, in bytes. -/
def find (pattern text : Str) : Option Nat :=
  (splitFirst pattern text).map fun found => byteLen found.1

/-! ## Slices of a text -/

/-- `&text[..limit]`. -/
def Call.sliceTo {ε : Type} (limit : Nat) (text : Str) : Call ε Str :=
  if byteLen (prefixWithin limit text) = limit then
    .ok (prefixWithin limit text)
  else .error (.panic .insideChar)

theorem Call.returns_sliceTo_iff {ε : Type} :
    (sliceTo limit text : Call ε Str).Returns ↔ CharBoundary text limit := by
  rw [← byteLen_prefixWithin_eq_iff, sliceTo]
  split_ifs with whole
  · exact iff_of_true (Call.returns_ok _) whole
  · exact iff_of_false (Call.not_returns_panic _) whole

/-- `&text[start..]`. -/
def Call.sliceFrom {ε : Type} (start : Nat) (text : Str) : Call ε Str :=
  if CharBoundary text start then
    .ok (text.drop (prefixWithin start text).length)
  else .error (.panic .insideChar)

/-- `&text[start..stop]`. -/
def Call.sliceBetween {ε : Type} (start stop : Nat) (text : Str) : Call ε Str :=
  if start ≤ stop ∧ CharBoundary text start ∧ CharBoundary text stop then
    .ok ((prefixWithin stop text).drop (prefixWithin start text).length)
  else .error (.panic .insideChar)

example : (Call.sliceBetween 1 3 "aé".toList : Call Empty Str) = .ok ['é'] ∧
    (Call.sliceBetween 1 2 "aé".toList : Call Empty Str) =
      .error (.panic .insideChar) :=
  ⟨rfl, rfl⟩

theorem Call.sliceTo_append {ε : Type} (front rest : Str) :
    sliceTo (byteLen front) (front ++ rest) = (.ok front : Call ε Str) := by
  rw [sliceTo, prefixWithin_append, if_pos rfl]

theorem Call.sliceFrom_append {ε : Type} (front rest : Str) :
    sliceFrom (byteLen front) (front ++ rest) = (.ok rest : Call ε Str) := by
  rw [sliceFrom, if_pos ⟨front, rest, rfl, rfl⟩, prefixWithin_append,
    List.drop_left]

theorem Call.sliceBetween_append {ε : Type} {middle : Str} {start stop : Nat}
    (begins : start = byteLen front) (ends : stop = start + byteLen middle) :
    sliceBetween start stop (front ++ middle ++ rest) =
      (.ok middle : Call ε Str) := by
  subst begins ends
  have starts : CharBoundary (front ++ middle ++ rest) (byteLen front) :=
    ⟨front, middle ++ rest, List.append_assoc _ _ _, rfl⟩
  have stops : CharBoundary (front ++ middle ++ rest)
      (byteLen front + byteLen middle) :=
    ⟨front ++ middle, rest, rfl, byteLen_append front middle⟩
  rw [sliceBetween, if_pos ⟨Nat.le_add_right _ _, starts, stops⟩,
    ← byteLen_append, prefixWithin_append, List.append_assoc,
    prefixWithin_append, List.drop_left]

/-- The largest boundary up to `limit`. -/
def boundaryBelow (text : Str) : (limit : Nat) → Nat
  | 0 => 0
  | limit + 1 =>
      if CharBoundary text (limit + 1) then limit + 1
      else boundaryBelow text limit

/-- A limit inside a character takes no more in than the limit before it. -/
theorem prefixWithin_succ (inside : ¬ CharBoundary text (limit + 1)) :
    prefixWithin (limit + 1) text = prefixWithin limit text := by
  induction text generalizing limit with
  | nil => rfl
  | cons char text inductionHypothesis =>
      have other : char.utf8Size ≠ limit + 1 := by
        intro whole
        refine inside ⟨[char], text, rfl, ?_⟩
        rw [byteLen_cons, whole]
        rfl
      rw [prefixWithin, prefixWithin]
      by_cases fits : char.utf8Size ≤ limit
      · rw [if_pos (Nat.le_succ_of_le fits), if_pos fits, Nat.succ_sub fits,
          inductionHypothesis]
        rintro ⟨front, rest, rfl, length⟩
        refine inside ⟨char :: front, rest, rfl, ?_⟩
        rw [byteLen_cons, length]
        omega
      · rw [if_neg (by omega), if_neg fits]

theorem Call.sliceTo_boundaryBelow {ε : Type} (text : Str) (limit : Nat) :
    sliceTo (boundaryBelow text limit) text =
      (.ok (prefixWithin limit text) : Call ε Str) := by
  induction limit with
  | zero =>
      rw [boundaryBelow, sliceTo, if_pos]
      exact byteLen_prefixWithin_eq_iff.mpr ⟨[], text, rfl, rfl⟩
  | succ limit inductionHypothesis =>
      rw [boundaryBelow]
      split_ifs with boundary
      · rw [sliceTo, if_pos (byteLen_prefixWithin_eq_iff.mpr boundary)]
      · rw [inductionHypothesis, prefixWithin_succ boundary]

end TrustLayer.Library
