import TrustLayer.Library.Radix
import TrustLayer.Library.Text

/-!
# Texts of `std` that depend on Unicode

Lower case, the debug text of a string, and the lossy decoding of bytes.  The
tables of the standard library beyond ASCII are parameters.
-/

namespace TrustLayer.Library

class UnicodeTables where
  /-- The lower case of a character outside ASCII. -/
  lower : Char → Str
  cased : Char → Bool
  caseIgnorable : Char → Bool
  graphemeExtend : Char → Bool
  printable : Char → Bool

/-- Tables that know no case beyond ASCII, and print everything. -/
@[reducible] def plainTables : UnicodeTables where
  lower char := [char]
  cased _ := false
  caseIgnorable _ := false
  graphemeExtend _ := false
  printable _ := true

section

variable [UnicodeTables]

/-! ## Lower case -/

/-- The first character that is not ignored is a cased one. -/
def caseIgnorableThenCased (text : Str) : Bool :=
  (text.dropWhile UnicodeTables.caseIgnorable).head?.any UnicodeTables.cased

/-- A capital sigma depends on what stands around it. -/
def lowerChar (before : Str) (char : Char) (behind : Str) : Str :=
  if char.toNat < 128 then [toAsciiLower char]
  else if char = 'Σ' then
    if caseIgnorableThenCased before && !caseIgnorableThenCased behind then
      ['ς']
    else ['σ']
  else UnicodeTables.lower char

/-- The characters in front are listed backwards. -/
def lowerFrom : (before : Str) → Str → Str
  | _, [] => []
  | before, char :: behind =>
      lowerChar before char behind ++ lowerFrom (char :: before) behind

/-- `str::to_lowercase`. -/
def toLowercase (text : Str) : Str :=
  lowerFrom [] text

/-! ## Debug texts -/

def unicodeEscape (char : Char) : Str :=
  "\\u\x7b".toList ++ Nat.toDigits 16 char.toNat ++ ['\x7d']

def escapeDebug (char : Char) : Str :=
  if char = '\x00' then "\\0".toList
  else if char = '\t' then "\\t".toList
  else if char = '\r' then "\\r".toList
  else if char = '\n' then "\\n".toList
  else if char = '"' then "\\\"".toList
  else if char = '\\' then "\\\\".toList
  else if UnicodeTables.graphemeExtend char then unicodeEscape char
  else if UnicodeTables.printable char then [char]
  else unicodeEscape char

/-- `{:?}` of a string. -/
def debugStr (text : Str) : Str :=
  '"' :: (text.flatMap escapeDebug ++ ['"'])

end

/-! ## Lossy decoding -/

/-- What may follow the first byte of a character. -/
def continuations (first : Nat) : Option (List (Nat × Nat)) :=
  let tail := (0x80, 0xBF)
  if first < 0x80 then some []
  else if 0xC2 ≤ first ∧ first ≤ 0xDF then some [tail]
  else if first = 0xE0 then some [(0xA0, 0xBF), tail]
  else if first = 0xED then some [(0x80, 0x9F), tail]
  else if 0xE1 ≤ first ∧ first ≤ 0xEF then some [tail, tail]
  else if first = 0xF0 then some [(0x90, 0xBF), tail, tail]
  else if first = 0xF4 then some [(0x80, 0x8F), tail, tail]
  else if 0xF1 ≤ first ∧ first ≤ 0xF3 then some [tail, tail, tail]
  else none

/-- The bytes that follow as they may, up to the first that does not. -/
def followed : List (Nat × Nat) → List UInt8 → List Nat
  | range :: ranges, byte :: bytes =>
      if range.1 ≤ byte.toNat ∧ byte.toNat ≤ range.2 then
        byte.toNat :: followed ranges bytes
      else []
  | _, _ => []

/-- The bits of the first byte. -/
def leadBits (first tails : Nat) : Nat :=
  match tails with
  | 0 => first
  | 1 => first % 32
  | 2 => first % 16
  | _ => first % 8

/-- The character in front, and how many more bytes it takes; a part of a
character is replaced as a whole. -/
def decodeFront (first : UInt8) (bytes : List UInt8) : Char × Nat :=
  match continuations first.toNat with
  | none => ('\uFFFD', 0)
  | some ranges =>
      let tails := followed ranges bytes
      if tails.length = ranges.length then
        (Char.ofNat (tails.foldl (fun value tail => value * 64 + tail % 64)
          (leadBits first.toNat tails.length)), tails.length)
      else ('\uFFFD', tails.length)

def lossyFrom : (skip : Nat) → List UInt8 → Str
  | _, [] => []
  | skip + 1, _ :: bytes => lossyFrom skip bytes
  | 0, first :: bytes =>
      let (char, more) := decodeFront first bytes
      char :: lossyFrom more bytes

/-- `String::from_utf8_lossy`. -/
def fromUtf8Lossy (bytes : List UInt8) : Str :=
  lossyFrom 0 bytes

example : fromUtf8Lossy [0x61, 0xC3, 0xA9, 0xE2, 0x82, 0x62, 0xED, 0xA0, 0x80] =
    "aé\uFFFDb\uFFFD\uFFFD\uFFFD".toList := by
  decide

/-! ### Lossless on texts -/

theorem decodeFront_of_followed {first : UInt8} {bytes : List UInt8}
    {ranges : List (Nat × Nat)} {tails : List Nat} {code : Nat}
    (known : continuations first.toNat = some ranges)
    (taken : followed ranges bytes = tails)
    (whole : tails.length = ranges.length)
    (bits : tails.foldl (fun value tail => value * 64 + tail % 64)
      (leadBits first.toNat tails.length) = code) :
    decodeFront first bytes = (Char.ofNat code, tails.length) := by
  simp only [decodeFront, known, taken, if_pos whole, bits]

theorem toNat_continuation (value : Nat) :
    (UInt8.ofNat (value % 64 + 0x80)).toNat = value % 64 + 0x80 :=
  toNat_ofNat_byte (by omega)

theorem continuation_inside (value : Nat) :
    0x80 ≤ value % 64 + 0x80 ∧ value % 64 + 0x80 ≤ 0xBF := by
  omega

theorem utf8EncodeChar_eq (char : Char) :
    String.utf8EncodeChar char =
      let code := char.toNat
      let last := UInt8.ofNat (code % 64 + 0x80)
      if code ≤ 0x7F then [UInt8.ofNat code]
      else if code ≤ 0x7FF then [UInt8.ofNat (code / 64 % 32 + 0xC0), last]
      else if code ≤ 0xFFFF then
        [UInt8.ofNat (code / 4096 % 16 + 0xE0),
          UInt8.ofNat (code / 64 % 64 + 0x80), last]
      else
        [UInt8.ofNat (code / 262144 % 8 + 0xF0),
          UInt8.ofNat (code / 4096 % 64 + 0x80),
          UInt8.ofNat (code / 64 % 64 + 0x80), last] :=
  rfl

/-- Only the range of the second byte depends on the first. -/
theorem continuations_three {first second : Nat}
    (lead : 0xE0 ≤ first ∧ first ≤ 0xEF)
    (tail : 0x80 ≤ second ∧ second ≤ 0xBF)
    (short : first = 0xE0 → 0xA0 ≤ second)
    (surrogate : first = 0xED → second ≤ 0x9F) :
    ∃ low high, continuations first = some [(low, high), (0x80, 0xBF)] ∧
      low ≤ second ∧ second ≤ high := by
  by_cases atShort : first = 0xE0
  · subst atShort
    exact ⟨0xA0, 0xBF, rfl, short rfl, tail.2⟩
  by_cases atSurrogate : first = 0xED
  · subst atSurrogate
    exact ⟨0x80, 0x9F, rfl, tail.1, surrogate rfl⟩
  refine ⟨0x80, 0xBF, ?_, tail⟩
  rw [continuations, if_neg (by omega), if_neg (by omega), if_neg atShort,
    if_neg atSurrogate, if_pos (by omega)]

theorem continuations_four {first second : Nat}
    (lead : 0xF0 ≤ first ∧ first ≤ 0xF4)
    (tail : 0x80 ≤ second ∧ second ≤ 0xBF)
    (short : first = 0xF0 → 0x90 ≤ second)
    (last : first = 0xF4 → second ≤ 0x8F) :
    ∃ low high,
      continuations first = some [(low, high), (0x80, 0xBF), (0x80, 0xBF)] ∧
      low ≤ second ∧ second ≤ high := by
  by_cases atShort : first = 0xF0
  · subst atShort
    exact ⟨0x90, 0xBF, rfl, short rfl, tail.2⟩
  by_cases atLast : first = 0xF4
  · subst atLast
    exact ⟨0x80, 0x8F, rfl, tail.1, last rfl⟩
  refine ⟨0x80, 0xBF, ?_, tail⟩
  rw [continuations, if_neg (by omega), if_neg (by omega), if_neg (by omega),
    if_neg (by omega), if_neg (by omega), if_neg atShort, if_neg atLast,
    if_pos (by omega)]

theorem decodeFront_one {code : Nat} (most : code ≤ 0x7F) (bytes : List UInt8) :
    decodeFront (UInt8.ofNat code) bytes = (Char.ofNat code, 0) := by
  have lead : (UInt8.ofNat code).toNat = code :=
    toNat_ofNat_byte (by omega)
  have known : continuations (UInt8.ofNat code).toNat = some [] := by
    rw [lead, continuations, if_pos (by omega)]
  have taken : followed [] bytes = [] := rfl
  have bits : leadBits (UInt8.ofNat code).toNat 0 = code := lead
  exact decodeFront_of_followed known taken rfl bits

theorem decodeFront_two {code : Nat} (least : 0x7F < code)
    (most : code ≤ 0x7FF) (bytes : List UInt8) :
    decodeFront (UInt8.ofNat (code / 64 % 32 + 0xC0))
        (UInt8.ofNat (code % 64 + 0x80) :: bytes) =
      (Char.ofNat code, 1) := by
  have lead : (UInt8.ofNat (code / 64 % 32 + 0xC0)).toNat =
      code / 64 % 32 + 0xC0 :=
    toNat_ofNat_byte (by omega)
  have known : continuations (UInt8.ofNat (code / 64 % 32 + 0xC0)).toNat =
      some [(0x80, 0xBF)] := by
    rw [lead, continuations, if_neg (by omega), if_pos (by omega)]
  have taken : followed [(0x80, 0xBF)]
      (UInt8.ofNat (code % 64 + 0x80) :: bytes) = [code % 64 + 0x80] := by
    simp only [followed, toNat_continuation, if_pos (continuation_inside _)]
  have bits : leadBits (UInt8.ofNat (code / 64 % 32 + 0xC0)).toNat 1 * 64 +
      (code % 64 + 0x80) % 64 = code := by
    rw [lead]
    simp only [leadBits]
    omega
  exact decodeFront_of_followed known taken rfl bits

theorem decodeFront_three {code : Nat} (least : 0x7FF < code)
    (most : code ≤ 0xFFFF) (valid : code < 0xD800 ∨ 0xDFFF < code)
    (bytes : List UInt8) :
    decodeFront (UInt8.ofNat (code / 4096 % 16 + 0xE0))
        (UInt8.ofNat (code / 64 % 64 + 0x80) ::
          UInt8.ofNat (code % 64 + 0x80) :: bytes) =
      (Char.ofNat code, 2) := by
  have lead : (UInt8.ofNat (code / 4096 % 16 + 0xE0)).toNat =
      code / 4096 % 16 + 0xE0 :=
    toNat_ofNat_byte (by omega)
  have leads : 0xE0 ≤ code / 4096 % 16 + 0xE0 ∧
      code / 4096 % 16 + 0xE0 ≤ 0xEF := by
    omega
  obtain ⟨low, high, known, inside⟩ := continuations_three leads
    (continuation_inside (code / 64)) (by omega) (by omega)
  have taken : followed [(low, high), (0x80, 0xBF)]
      (UInt8.ofNat (code / 64 % 64 + 0x80) ::
        UInt8.ofNat (code % 64 + 0x80) :: bytes) =
      [code / 64 % 64 + 0x80, code % 64 + 0x80] := by
    simp only [followed, toNat_continuation, if_pos inside,
      if_pos (continuation_inside _)]
  have bits : (leadBits (UInt8.ofNat (code / 4096 % 16 + 0xE0)).toNat 2 * 64 +
      (code / 64 % 64 + 0x80) % 64) * 64 + (code % 64 + 0x80) % 64 = code := by
    rw [lead]
    simp only [leadBits]
    omega
  rw [← lead] at known
  exact decodeFront_of_followed known taken rfl bits

theorem decodeFront_four {code : Nat} (least : 0xFFFF < code)
    (most : code < 0x110000) (bytes : List UInt8) :
    decodeFront (UInt8.ofNat (code / 262144 % 8 + 0xF0))
        (UInt8.ofNat (code / 4096 % 64 + 0x80) ::
          UInt8.ofNat (code / 64 % 64 + 0x80) ::
            UInt8.ofNat (code % 64 + 0x80) :: bytes) =
      (Char.ofNat code, 3) := by
  have lead : (UInt8.ofNat (code / 262144 % 8 + 0xF0)).toNat =
      code / 262144 % 8 + 0xF0 :=
    toNat_ofNat_byte (by omega)
  have leads : 0xF0 ≤ code / 262144 % 8 + 0xF0 ∧
      code / 262144 % 8 + 0xF0 ≤ 0xF4 := by
    omega
  obtain ⟨low, high, known, inside⟩ := continuations_four leads
    (continuation_inside (code / 4096)) (by omega) (by omega)
  have taken : followed [(low, high), (0x80, 0xBF), (0x80, 0xBF)]
      (UInt8.ofNat (code / 4096 % 64 + 0x80) ::
        UInt8.ofNat (code / 64 % 64 + 0x80) ::
          UInt8.ofNat (code % 64 + 0x80) :: bytes) =
      [code / 4096 % 64 + 0x80, code / 64 % 64 + 0x80, code % 64 + 0x80] := by
    simp only [followed, toNat_continuation, if_pos inside,
      if_pos (continuation_inside _)]
  have bits :
      ((leadBits (UInt8.ofNat (code / 262144 % 8 + 0xF0)).toNat 3 * 64 +
        (code / 4096 % 64 + 0x80) % 64) * 64 +
          (code / 64 % 64 + 0x80) % 64) * 64 + (code % 64 + 0x80) % 64 =
        code := by
    rw [lead]
    simp only [leadBits]
    omega
  rw [← lead] at known
  exact decodeFront_of_followed known taken rfl bits

theorem decodeFront_utf8EncodeChar (char : Char) (bytes : List UInt8) :
    ∃ first rest, String.utf8EncodeChar char = first :: rest ∧
      decodeFront first (rest ++ bytes) = (char, rest.length) := by
  have valid : char.toNat < 0xD800 ∨
      0xDFFF < char.toNat ∧ char.toNat < 0x110000 := char.valid
  have same : Char.ofNat char.toNat = char := Char.ofNat_toNat char
  rw [utf8EncodeChar_eq]
  generalize char.toNat = code at valid same ⊢
  subst same
  simp only
  split_ifs with one two three
  · exact ⟨_, _, rfl, decodeFront_one one bytes⟩
  · exact ⟨_, _, rfl, decodeFront_two (by omega) two bytes⟩
  · exact ⟨_, _, rfl, decodeFront_three (by omega) three (by omega) bytes⟩
  · exact ⟨_, _, rfl, decodeFront_four (by omega) (by omega) bytes⟩

theorem lossyFrom_append (skipped bytes : List UInt8) :
    lossyFrom skipped.length (skipped ++ bytes) = lossyFrom 0 bytes := by
  induction skipped with
  | nil => rfl
  | cons byte skipped induction => exact induction

theorem fromUtf8Lossy_utf8Bytes (text : Str) :
    fromUtf8Lossy (utf8Bytes text) = text := by
  induction text with
  | nil => rfl
  | cons char text induction =>
      obtain ⟨first, rest, encoded, decoded⟩ :=
        decodeFront_utf8EncodeChar char (utf8Bytes text)
      have bytes : utf8Bytes (char :: text) =
          first :: (rest ++ utf8Bytes text) := by
        rw [utf8Bytes, List.flatMap_cons, encoded]
        rfl
      rw [fromUtf8Lossy, bytes, lossyFrom, decoded]
      simp only [lossyFrom_append]
      exact congrArg (char :: ·) induction

/-- The strict decoding reads a text back as well. -/
theorem fromUtf8_asBytes (text : Str) : fromUtf8 (asBytes text) = some text := by
  have bytes : (asBytes text).map Char.toUInt8 = utf8Bytes text := by
    rw [asBytes, List.map_map]
    refine (List.map_congr_left fun byte _ => ?_).trans (List.map_id _)
    apply UInt8.toNat_inj.mp
    rw [Function.comp_apply, Char.toUInt8, UInt32.toNat_toUInt8]
    exact (congrArg (· % 256) (toNat_byteChar byte)).trans
      (Nat.mod_eq_of_lt byte.toNat_lt)
  have encoded : (utf8Bytes text).toByteArray = text.utf8Encode := rfl
  rw [fromUtf8, bytes, encoded, List.utf8Decode?_utf8Encode, Option.map_some]

/-- Bytes that are read as a text encode it. -/
theorem asBytes_of_fromUtf8 {bytes : List Char} {text : Str}
    (small : ∀ byte ∈ bytes, byte.toNat < 256)
    (read : fromUtf8 bytes = some text) : asBytes text = bytes := by
  obtain ⟨decoded, found, rfl⟩ := Option.map_eq_some_iff.mp read
  obtain ⟨text, encoded⟩ := ByteArray.isSome_utf8Decode?_iff.mp
    (Option.isSome_iff_exists.mpr ⟨decoded, found⟩)
  rw [encoded, List.utf8Decode?_utf8Encode, Option.some.injEq] at found
  subst found
  have same : utf8Bytes text = bytes.map Char.toUInt8 :=
    (List.toByteArray_inj.mp encoded).symm
  rw [List.toList_toArray, asBytes, same, List.map_map]
  refine (List.map_congr_left fun byte member => ?_).trans (List.map_id _)
  apply Char.toNat_inj.mp
  rw [Function.comp_apply, toNat_byteChar, Char.toUInt8, UInt32.toNat_toUInt8]
  exact Nat.mod_eq_of_lt (small byte member)

/-- A text that loses nothing is the encoding of one. -/
theorem utf8Bytes_fromUtf8Lossy_iff {bytes : List UInt8} :
    utf8Bytes (fromUtf8Lossy bytes) = bytes ↔
      ∃ text, utf8Bytes text = bytes := by
  constructor
  · intro kept
    exact ⟨_, kept⟩
  · rintro ⟨text, rfl⟩
    rw [fromUtf8Lossy_utf8Bytes]

end TrustLayer.Library
