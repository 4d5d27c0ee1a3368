import TrustLayer.Library.Radix
import TrustLayer.Library.Text
import Mathlib.Data.UInt

/-!
# Base64

The encoder with padding, and the decoder that skips foreign characters unless
it is strict.  The strict decoder of the alphabet that is safe in URLs takes
back what the encoder without padding writes, and nothing else.
-/

namespace TrustLayer.Library.Base64

/-! ## The alphabet -/

/-- The value of a character of the standard alphabet. -/
def sextet (char : Char) : Option Nat :=
  if 'A' ≤ char ∧ char ≤ 'Z' then some (char.toNat - 'A'.toNat)
  else if 'a' ≤ char ∧ char ≤ 'z' then some (char.toNat - 'a'.toNat + 26)
  else if '0' ≤ char ∧ char ≤ '9' then some (char.toNat - '0'.toNat + 52)
  else if char = '+' then some 62
  else if char = '/' then some 63
  else none

/-- The character of a value below 64. -/
def digit (value : Nat) : Char :=
  if value < 26 then Char.ofNat (value + 'A'.toNat)
  else if value < 52 then Char.ofNat (value - 26 + 'a'.toNat)
  else if value < 62 then Char.ofNat (value - 52 + '0'.toNat)
  else if value = 62 then '+'
  else '/'

/-- The standard alphabet for the one that is safe in URLs. -/
def fromUrlsafe (char : Char) : Char :=
  if char = '-' then '+' else if char = '_' then '/' else char

def toUrlsafe (char : Char) : Char :=
  if char = '+' then '-' else if char = '/' then '_' else char

/-! ## Encoding -/

/-- `base64.b64encode`. -/
def b64encode : List UInt8 → Str
  | [] => []
  | [first] =>
      [digit (first.toNat / 4), digit (first.toNat % 4 * 16), '=', '=']
  | [first, second] =>
      [digit (first.toNat / 4),
        digit (first.toNat % 4 * 16 + second.toNat / 16),
        digit (second.toNat % 16 * 4), '=']
  | first :: second :: third :: rest =>
      digit (first.toNat / 4) ::
        digit (first.toNat % 4 * 16 + second.toNat / 16) ::
        digit (second.toNat % 16 * 4 + third.toNat / 64) ::
        digit (third.toNat % 64) :: b64encode rest

/-- `base64.urlsafe_b64encode(data).rstrip(b"=")`. -/
def urlsafeUnpadded (bytes : List UInt8) : Str :=
  ((b64encode bytes).map toUrlsafe).rdropWhile fun char => char == '='

/-! ## Decoding -/

/-- What the decoder has read of the current group of four characters. -/
structure Quad where
  position : Nat
  left : Nat
  pads : Nat
  padding : Bool
  deriving DecidableEq

def Quad.start : Quad :=
  { position := 0, left := 0, pads := 0, padding := false }

/-- The byte that a digit completes, if any, and the group behind it. -/
def Quad.read (quad : Quad) (value : Nat) : Option UInt8 × Quad :=
  match quad.position with
  | 0 => (none, { quad with position := 1, left := value, pads := 0 })
  | 1 => (some (UInt8.ofNat (quad.left * 4 + value / 16)),
      { quad with position := 2, left := value % 16, pads := 0 })
  | 2 => (some (UInt8.ofNat (quad.left * 16 + value / 4)),
      { quad with position := 3, left := value % 4, pads := 0 })
  | _ => (some (UInt8.ofNat (quad.left * 64 + value)),
      { quad with position := 0, left := 0, pads := 0 })

/-- The error at the end of a text that ends inside a group, `size` bytes being
decoded. -/
def endError (position size : Nat) : Str :=
  if position = 1 then
    ("Invalid base64-encoded string: number of data characters (" ++
      toString (size / 3 * 4 + 1) ++
      ") cannot be 1 more than a multiple of 4").toList
  else "Incorrect padding".toList

/-- The loop of `binascii.a2b_base64`; `size` counts the bytes decoded. -/
def a2bBase64 (strict : Bool) : (text : List Char) → Quad → (size : Nat) →
    Except Str (List UInt8)
  | [], quad, size =>
      if quad.position = 0 then .ok [] else .error (endError quad.position size)
  | char :: rest, quad, size =>
      if char = '=' then
        let pads := if quad.position ≥ 2 then quad.pads + 1 else quad.pads
        if quad.position ≥ 2 ∧ quad.position + pads ≥ 4 then
          if strict ∧ rest ≠ [] then
            .error "Excess data after padding".toList
          else .ok []
        else a2bBase64 strict rest { quad with pads, padding := true } size
      else
        match sextet char with
        | none =>
            if strict then .error "Only base64 data is allowed".toList
            else a2bBase64 strict rest quad size
        | some value =>
            if strict ∧ quad.padding then
              .error "Discontinuous padding not allowed".toList
            else
              match quad.read value with
              | (none, quad) => a2bBase64 strict rest quad size
              | (some byte, quad) =>
                  (a2bBase64 strict rest quad (size + 1)).map (byte :: ·)

/-- `base64.b64decode(text, validate=strict)` of a `str`. -/
def b64decode (strict : Bool) (text : Str) : Except Str (List UInt8) :=
  if ¬ IsAscii text then
    .error "string argument should contain only ASCII characters".toList
  else if strict ∧ text.head? = some '=' then
    .error "Leading padding not allowed".toList
  else a2bBase64 strict text .start 0

/-- `base64.urlsafe_b64decode` of a `str`. -/
def urlsafeB64decode (text : Str) : Except Str (List UInt8) :=
  if ¬ IsAscii text then
    .error "string argument should contain only ASCII characters".toList
  else a2bBase64 false (text.map fromUrlsafe) .start 0

example : b64decode true (b64encode [77, 97, 110, 33]) =
    .ok [77, 97, 110, 33] := by
  decide

/-! ## Foreign characters -/

/-- A strict decoder rejects a text with a character outside the alphabet. -/
theorem a2bBase64_foreign {text : List Char} {char : Char}
    (member : char ∈ text) (notPad : char ≠ '=') (foreign : sextet char = none)
    (quad : Quad) (size : Nat) :
    ∃ error, a2bBase64 true text quad size = .error error := by
  induction text generalizing quad size with
  | nil => cases member
  | cons first rest induction =>
      by_cases same : char = first
      · subst same
        exact ⟨"Only base64 data is allowed".toList,
          by simp [a2bBase64, notPad, foreign]⟩
      · have later : char ∈ rest := by
          rcases List.mem_cons.mp member with here | later
          · exact absurd here same
          · exact later
        have nonempty : rest ≠ [] := List.ne_nil_of_mem later
        rw [a2bBase64]
        by_cases pad : first = '='
        · rw [if_pos pad]
          dsimp only
          generalize (if quad.position ≥ 2 then quad.pads + 1 else quad.pads) =
            pads
          by_cases ends : quad.position ≥ 2 ∧ quad.position + pads ≥ 4
          · rw [if_pos ends, if_pos ⟨rfl, nonempty⟩]
            exact ⟨_, rfl⟩
          · rw [if_neg ends]
            exact induction later _ _
        · rw [if_neg pad]
          cases sextet first with
          | none => exact ⟨_, rfl⟩
          | some value =>
              by_cases discontinuous : true = true ∧ quad.padding = true
              · exact ⟨_, if_pos discontinuous⟩
              · dsimp only
                rw [if_neg discontinuous]
                rcases quad.read value with ⟨byte, next⟩
                cases byte with
                | none => exact induction later _ _
                | some byte =>
                    obtain ⟨error, failed⟩ := induction later next (size + 1)
                    exact ⟨error, by simp [failed, Except.map]⟩

theorem b64decode_foreign {text : Str} {char : Char} (member : char ∈ text)
    (notPad : char ≠ '=') (foreign : sextet char = none) :
    ∃ error, b64decode true text = .error error := by
  unfold b64decode
  by_cases wide : ¬ IsAscii text
  · exact ⟨_, if_pos wide⟩
  · rw [if_neg wide]
    by_cases leading : true = true ∧ text.head? = some '='
    · exact ⟨_, if_pos leading⟩
    · rw [if_neg leading]
      exact a2bBase64_foreign member notPad foreign _ _

/-! ## The alphabet that is safe in URLs -/

def urlDigit (value : Nat) : Char :=
  toUrlsafe (digit value)

/-- The value of a character of the alphabet that is safe in URLs. -/
def urlSextet (char : Char) : Option Nat :=
  if char = '+' ∨ char = '/' then none else sextet (fromUrlsafe char)

theorem urlSextet_urlDigit {value : Nat} (bound : value < 64) :
    urlSextet (urlDigit value) = some value := by
  have table : ∀ digit : Fin 64, urlSextet (urlDigit digit) = some digit.val := by
    decide
  exact table ⟨value, bound⟩

theorem urlDigit_ne {value : Nat} (bound : value < 64) :
    urlDigit value ≠ '=' ∧ urlDigit value ≠ '~' := by
  have table : ∀ digit : Fin 64, urlDigit digit ≠ '=' ∧ urlDigit digit ≠ '~' := by
    decide
  exact table ⟨value, bound⟩

theorem sextet_eq_some {char : Char} {value : Nat}
    (read : sextet char = some value) : value < 64 ∧ digit value = char := by
  have upperA : 'A'.toNat = 65 := rfl
  have lowerA : 'a'.toNat = 97 := rfl
  have zero : '0'.toNat = 48 := rfl
  unfold sextet at read
  split_ifs at read with upper lower numeral plus slash
  · obtain rfl := Option.some.inj read
    have least : 65 ≤ char.toNat := upper.1
    have most : char.toNat ≤ 90 := upper.2
    have same : char.toNat - 'A'.toNat + 'A'.toNat = char.toNat := by omega
    refine ⟨by omega, ?_⟩
    rw [digit, if_pos (by omega), same, Char.ofNat_toNat]
  · obtain rfl := Option.some.inj read
    have least : 97 ≤ char.toNat := lower.1
    have most : char.toNat ≤ 122 := lower.2
    have same : char.toNat - 'a'.toNat + 26 - 26 + 'a'.toNat = char.toNat := by
      omega
    refine ⟨by omega, ?_⟩
    rw [digit, if_neg (by omega), if_pos (by omega), same, Char.ofNat_toNat]
  · obtain rfl := Option.some.inj read
    have least : 48 ≤ char.toNat := numeral.1
    have most : char.toNat ≤ 57 := numeral.2
    have same : char.toNat - '0'.toNat + 52 - 52 + '0'.toNat = char.toNat := by
      omega
    refine ⟨by omega, ?_⟩
    rw [digit, if_neg (by omega), if_neg (by omega), if_pos (by omega), same,
      Char.ofNat_toNat]
  · obtain rfl := Option.some.inj read
    exact ⟨by decide, plus.symm⟩
  · obtain rfl := Option.some.inj read
    exact ⟨by decide, slash.symm⟩

theorem urlSextet_eq_some_iff {char : Char} {value : Nat} :
    urlSextet char = some value ↔ value < 64 ∧ char = urlDigit value := by
  constructor
  · intro read
    unfold urlSextet at read
    split_ifs at read with other
    obtain ⟨bound, same⟩ := sextet_eq_some read
    refine ⟨bound, ?_⟩
    rw [urlDigit, same]
    by_cases dash : char = '-'
    · subst dash
      rfl
    · by_cases line : char = '_'
      · subst line
        rfl
      · have plain : fromUrlsafe char = char := by
          rw [fromUrlsafe, if_neg dash, if_neg line]
        rw [plain, toUrlsafe, if_neg fun plus => other (.inl plus),
          if_neg fun slash => other (.inr slash)]
  · rintro ⟨bound, rfl⟩
    exact urlSextet_urlDigit bound

/-! ## The encoder -/

theorem rdropWhile_cons_of_neg {α : Type} {p : α → Bool} {first : α}
    (stays : ¬ p first) (rest : List α) :
    (first :: rest).rdropWhile p = first :: rest.rdropWhile p := by
  rw [List.rdropWhile, List.reverse_cons, List.dropWhile_append]
  split_ifs with empty
  · rw [List.isEmpty_iff] at empty
    have front : rest.rdropWhile p = [] := by
      rw [List.rdropWhile, empty, List.reverse_nil]
    rw [front, List.dropWhile_cons_of_neg stays]
    rfl
  · rw [List.reverse_append]
    rfl

/-- Digits in front are kept, and what follows is stripped. -/
theorem stripped_urlDigits {values : List Nat}
    (bound : ∀ value ∈ values, value < 64) (rest : Str) :
    ((values.map urlDigit) ++ rest).rdropWhile (fun char => char == '=') =
      values.map urlDigit ++ rest.rdropWhile fun char => char == '=' := by
  induction values with
  | nil => rfl
  | cons value values induction =>
      have stays : ¬ (urlDigit value == '=') = true := by
        simpa using (urlDigit_ne (bound value List.mem_cons_self)).1
      have later := induction fun other member =>
        bound other (List.mem_cons_of_mem _ member)
      exact (@rdropWhile_cons_of_neg _ (fun char => char == '=') _ stays
        _).trans (congrArg (urlDigit value :: ·) later)

theorem urlsafeUnpadded_one (first : UInt8) :
    urlsafeUnpadded [first] =
      [first.toNat / 4, first.toNat % 4 * 16].map urlDigit := by
  have size := first.toNat_lt
  have bound : ∀ value ∈ [first.toNat / 4, first.toNat % 4 * 16],
      value < 64 := by
    simp only [List.mem_cons, List.not_mem_nil, or_false]
    rintro value (rfl | rfl) <;> omega
  exact (stripped_urlDigits bound ['=', '=']).trans (List.append_nil _)

theorem urlsafeUnpadded_two (first second : UInt8) :
    urlsafeUnpadded [first, second] =
      [first.toNat / 4, first.toNat % 4 * 16 + second.toNat / 16,
        second.toNat % 16 * 4].map urlDigit := by
  have size := first.toNat_lt
  have nextSize := second.toNat_lt
  have bound : ∀ value ∈ [first.toNat / 4,
      first.toNat % 4 * 16 + second.toNat / 16, second.toNat % 16 * 4],
      value < 64 := by
    simp only [List.mem_cons, List.not_mem_nil, or_false]
    rintro value (rfl | rfl | rfl) <;> omega
  exact (stripped_urlDigits bound ['=']).trans (List.append_nil _)

theorem urlsafeUnpadded_three (first second third : UInt8)
    (rest : List UInt8) :
    urlsafeUnpadded (first :: second :: third :: rest) =
      [first.toNat / 4, first.toNat % 4 * 16 + second.toNat / 16,
        second.toNat % 16 * 4 + third.toNat / 64, third.toNat % 64].map
          urlDigit ++ urlsafeUnpadded rest := by
  have size := first.toNat_lt
  have nextSize := second.toNat_lt
  have lastSize := third.toNat_lt
  have bound : ∀ value ∈ [first.toNat / 4,
      first.toNat % 4 * 16 + second.toNat / 16,
      second.toNat % 16 * 4 + third.toNat / 64, third.toNat % 64],
      value < 64 := by
    simp only [List.mem_cons, List.not_mem_nil, or_false]
    rintro value (rfl | rfl | rfl | rfl) <;> omega
  exact stripped_urlDigits bound _

theorem mem_urlsafeUnpadded {bytes : List UInt8} {char : Char}
    (member : char ∈ urlsafeUnpadded bytes) :
    ∃ value, value < 64 ∧ char = urlDigit value := by
  induction bytes using b64encode.induct with
  | case1 => cases member
  | case2 first =>
      have size := first.toNat_lt
      rw [urlsafeUnpadded_one] at member
      obtain ⟨value, among, rfl⟩ := List.mem_map.mp member
      refine ⟨value, ?_, rfl⟩
      simp only [List.mem_cons, List.not_mem_nil, or_false] at among
      rcases among with rfl | rfl <;> omega
  | case3 first second =>
      have size := first.toNat_lt
      have nextSize := second.toNat_lt
      rw [urlsafeUnpadded_two] at member
      obtain ⟨value, among, rfl⟩ := List.mem_map.mp member
      refine ⟨value, ?_, rfl⟩
      simp only [List.mem_cons, List.not_mem_nil, or_false] at among
      rcases among with rfl | rfl | rfl <;> omega
  | case4 first second third rest induction =>
      have size := first.toNat_lt
      have nextSize := second.toNat_lt
      have lastSize := third.toNat_lt
      rw [urlsafeUnpadded_three, List.mem_append] at member
      rcases member with inGroup | inRest
      · obtain ⟨value, among, rfl⟩ := List.mem_map.mp inGroup
        refine ⟨value, ?_, rfl⟩
        simp only [List.mem_cons, List.not_mem_nil, or_false] at among
        rcases among with rfl | rfl | rfl | rfl <;> omega
      · exact induction inRest

theorem tilde_notMem_urlsafeUnpadded (bytes : List UInt8) :
    '~' ∉ urlsafeUnpadded bytes := by
  intro member
  obtain ⟨value, bound, same⟩ := mem_urlsafeUnpadded member
  exact (urlDigit_ne bound).2 same.symm

theorem urlsafeUnpadded_ne_nil {bytes : List UInt8} (nonempty : bytes ≠ []) :
    urlsafeUnpadded bytes ≠ [] := by
  rcases bytes with _ | ⟨first, _ | ⟨second, _ | ⟨third, rest⟩⟩⟩
  · exact absurd rfl nonempty
  · rw [urlsafeUnpadded_one]
    exact List.cons_ne_nil _ _
  · rw [urlsafeUnpadded_two]
    exact List.cons_ne_nil _ _
  · rw [urlsafeUnpadded_three]
    exact List.cons_ne_nil _ _

/-! ## The decoder -/

/-- The bits that a last group has left are zero. -/
def decodeUrlSafeNoPad : Str → Option (List UInt8)
  | [] => some []
  | [_] => none
  | [a, b] => do
      let first ← urlSextet a
      let second ← urlSextet b
      if second % 16 = 0 then some [UInt8.ofNat (first * 4 + second / 16)]
      else none
  | [a, b, c] => do
      let first ← urlSextet a
      let second ← urlSextet b
      let third ← urlSextet c
      if third % 4 = 0 then
        some [UInt8.ofNat (first * 4 + second / 16),
          UInt8.ofNat (second % 16 * 16 + third / 4)]
      else none
  | a :: b :: c :: d :: rest => do
      let first ← urlSextet a
      let second ← urlSextet b
      let third ← urlSextet c
      let fourth ← urlSextet d
      let bytes ← decodeUrlSafeNoPad rest
      return UInt8.ofNat (first * 4 + second / 16) ::
        UInt8.ofNat (second % 16 * 16 + third / 4) ::
        UInt8.ofNat (third % 4 * 64 + fourth) :: bytes

theorem ofNat_toNat_of {byte : UInt8} {value : Nat}
    (same : value = byte.toNat) : UInt8.ofNat value = byte := by
  rw [same, UInt8.ofNat_toNat]

/-- What is encoded is read back. -/
theorem decodeUrlSafeNoPad_urlsafeUnpadded (bytes : List UInt8) :
    decodeUrlSafeNoPad (urlsafeUnpadded bytes) = some bytes := by
  induction bytes using b64encode.induct with
  | case1 => rfl
  | case2 first =>
      have size := first.toNat_lt
      rw [urlsafeUnpadded_one]
      simp only [List.map_cons, List.map_nil, decodeUrlSafeNoPad]
      rw [urlSextet_urlDigit (by omega), urlSextet_urlDigit (by omega)]
      simp only [Option.bind_eq_bind, Option.bind_some]
      rw [if_pos (by omega), @ofNat_toNat_of first _ (by omega)]
  | case3 first second =>
      have size := first.toNat_lt
      have nextSize := second.toNat_lt
      rw [urlsafeUnpadded_two]
      simp only [List.map_cons, List.map_nil, decodeUrlSafeNoPad]
      rw [urlSextet_urlDigit (by omega), urlSextet_urlDigit (by omega),
        urlSextet_urlDigit (by omega)]
      simp only [Option.bind_eq_bind, Option.bind_some]
      rw [if_pos (by omega), @ofNat_toNat_of first _ (by omega),
        @ofNat_toNat_of second _ (by omega)]
  | case4 first second third rest induction =>
      have size := first.toNat_lt
      have nextSize := second.toNat_lt
      have lastSize := third.toNat_lt
      rw [urlsafeUnpadded_three]
      simp only [List.map_cons, List.map_nil, List.cons_append,
        List.nil_append, decodeUrlSafeNoPad, induction]
      rw [urlSextet_urlDigit (by omega), urlSextet_urlDigit (by omega),
        urlSextet_urlDigit (by omega), urlSextet_urlDigit (by omega)]
      simp only [Option.bind_eq_bind, Option.bind_some, Option.pure_def]
      rw [@ofNat_toNat_of first _ (by omega),
        @ofNat_toNat_of second _ (by omega),
        @ofNat_toNat_of third _ (by omega)]

/-- What is read is what is encoded. -/
theorem decodeUrlSafeNoPad_eq_some_iff {text : Str} {bytes : List UInt8} :
    decodeUrlSafeNoPad text = some bytes ↔ text = urlsafeUnpadded bytes := by
  constructor
  · intro read
    induction text using decodeUrlSafeNoPad.induct generalizing bytes with
    | case1 =>
        obtain rfl := Option.some.inj read
        rfl
    | case2 a => cases read
    | case3 a b =>
        simp only [decodeUrlSafeNoPad, Option.bind_eq_bind,
          Option.bind_eq_some_iff, Option.ite_none_right_eq_some,
          Option.some.injEq] at read
        obtain ⟨first, isFirst, second, isSecond, clear, rfl⟩ := read
        obtain ⟨firstBound, rfl⟩ := urlSextet_eq_some_iff.mp isFirst
        obtain ⟨secondBound, rfl⟩ := urlSextet_eq_some_iff.mp isSecond
        have one : (first * 4 + second / 16) / 4 = first := by omega
        have two : (first * 4 + second / 16) % 4 * 16 = second := by omega
        rw [urlsafeUnpadded_one, toNat_ofNat_byte (by omega), one, two]
        rfl
    | case4 a b c =>
        simp only [decodeUrlSafeNoPad, Option.bind_eq_bind,
          Option.bind_eq_some_iff, Option.ite_none_right_eq_some,
          Option.some.injEq] at read
        obtain ⟨first, isFirst, second, isSecond, third, isThird, clear, rfl⟩ :=
          read
        obtain ⟨firstBound, rfl⟩ := urlSextet_eq_some_iff.mp isFirst
        obtain ⟨secondBound, rfl⟩ := urlSextet_eq_some_iff.mp isSecond
        obtain ⟨thirdBound, rfl⟩ := urlSextet_eq_some_iff.mp isThird
        have one : (first * 4 + second / 16) / 4 = first := by omega
        have two : (first * 4 + second / 16) % 4 * 16 +
            (second % 16 * 16 + third / 4) / 16 = second := by
          omega
        have three : (second % 16 * 16 + third / 4) % 16 * 4 = third := by
          omega
        rw [urlsafeUnpadded_two, toNat_ofNat_byte (by omega),
          toNat_ofNat_byte (by omega), one, two, three]
        rfl
    | case5 a b c d rest induction =>
        simp only [decodeUrlSafeNoPad, Option.bind_eq_bind, Option.pure_def,
          Option.bind_eq_some_iff, Option.some.injEq] at read
        obtain ⟨first, isFirst, second, isSecond, third, isThird, fourth,
          isFourth, later, readLater, rfl⟩ := read
        obtain ⟨firstBound, rfl⟩ := urlSextet_eq_some_iff.mp isFirst
        obtain ⟨secondBound, rfl⟩ := urlSextet_eq_some_iff.mp isSecond
        obtain ⟨thirdBound, rfl⟩ := urlSextet_eq_some_iff.mp isThird
        obtain ⟨fourthBound, rfl⟩ := urlSextet_eq_some_iff.mp isFourth
        have one : (first * 4 + second / 16) / 4 = first := by omega
        have two : (first * 4 + second / 16) % 4 * 16 +
            (second % 16 * 16 + third / 4) / 16 = second := by
          omega
        have three : (second % 16 * 16 + third / 4) % 16 * 4 +
            (third % 4 * 64 + fourth) / 64 = third := by
          omega
        have four : (third % 4 * 64 + fourth) % 64 = fourth := by omega
        rw [urlsafeUnpadded_three, toNat_ofNat_byte (by omega),
          toNat_ofNat_byte (by omega), toNat_ofNat_byte (by omega), one, two,
          three, four, induction readLater]
        rfl
  · rintro rfl
    exact decodeUrlSafeNoPad_urlsafeUnpadded bytes

end TrustLayer.Library.Base64
