import Mathlib.Data.List.DropRight
import Mathlib.Data.List.Infix
import Mathlib.Tactic.Set

/-!
# Rust strings as lists of characters

`Str` stands for `str` and `String`.  The functions below carry the names of
the standard-library methods they follow.  A byte is written as the character
`byte as char` yields, so that byte scanners and what they push share a type;
on ASCII text `asBytes` is the identity, and every byte of a non-ASCII
character becomes a character from U+0080 to U+00FF.
-/

namespace TrustLayer.Library

abbrev Str := List Char

instance lawfulBEq_str : LawfulBEq Str := inferInstance

/-- `byte as char`. -/
def byteChar (byte : UInt8) : Char :=
  Char.ofNat byte.toNat

/-- The UTF-8 encoding of a text. -/
def utf8Bytes (text : Str) : List UInt8 :=
  text.flatMap String.utf8EncodeChar

/-- `as_bytes`, each byte widened by `as char`. -/
def asBytes (text : Str) : List Char :=
  (utf8Bytes text).map byteChar

/-- `String::from_utf8(bytes).ok()`. -/
def fromUtf8 (bytes : List Char) : Option Str :=
  (bytes.map Char.toUInt8).toByteArray.utf8Decode?.map Array.toList

/-- `len`, the number of UTF-8 bytes. -/
def byteLen (text : Str) : Nat :=
  (asBytes text).length

/-- `char::is_whitespace`, the Unicode property `White_Space`. -/
def isWhitespace (char : Char) : Bool :=
  let code := char.toNat
  (9 ≤ code && code ≤ 13) || code == 0x20 || code == 0x85 || code == 0xA0 ||
    code == 0x1680 || (0x2000 ≤ code && code ≤ 0x200A) || code == 0x2028 ||
    code == 0x2029 || code == 0x202F || code == 0x205F || code == 0x3000

/-- `char::is_ascii_alphabetic`. -/
def isAsciiAlphabetic (char : Char) : Bool :=
  ('a' ≤ char && char ≤ 'z') || ('A' ≤ char && char ≤ 'Z')

/-- `char::is_ascii_digit`. -/
def isAsciiDigit (char : Char) : Bool :=
  '0' ≤ char && char ≤ '9'

/-- `char::is_ascii_alphanumeric`. -/
def isAsciiAlphanumeric (char : Char) : Bool :=
  isAsciiAlphabetic char || isAsciiDigit char

/-- `[A-Za-z0-9_]`. -/
def isNameChar (char : Char) : Bool :=
  isAsciiAlphanumeric char || char == '_'

/-- `char::is_ascii_hexdigit`. -/
def isAsciiHexdigit (char : Char) : Bool :=
  isAsciiDigit char || ('a' ≤ char && char ≤ 'f') || ('A' ≤ char && char ≤ 'F')

/-- `char::to_ascii_lowercase`. -/
def toAsciiLower (char : Char) : Char :=
  if 'A' ≤ char ∧ char ≤ 'Z' then Char.ofNat (char.toNat + 32) else char

/-- `str::to_ascii_lowercase`. -/
def toAsciiLowercase (text : Str) : Str :=
  text.map toAsciiLower

/-- `trim_start`. -/
def trimStart (text : Str) : Str :=
  text.dropWhile isWhitespace

/-- `trim`. -/
def trim (text : Str) : Str :=
  (trimStart text).rdropWhile isWhitespace

/-- `split(separator)` for a character. -/
def splitChar (separator : Char) (text : Str) : List Str :=
  text.splitOn separator

/-- `split_whitespace`. -/
def splitWhitespace (text : Str) : List Str :=
  (text.splitOnP isWhitespace).filter fun word => !word.isEmpty

/-- `contains` for a string pattern. -/
def contains (text pattern : Str) : Bool :=
  decide (pattern <:+: text)

/-- `strip_prefix` for a string pattern. -/
def stripPrefix (front text : Str) : Option Str :=
  if front.isPrefixOf text then some (text.drop front.length) else none

/-- `find` for a string pattern, as the text before the leftmost occurrence
and the text after it. -/
def splitFirst (pattern : Str) : Str → Option (Str × Str)
  | [] => if pattern = [] then some ([], []) else none
  | char :: rest =>
      if pattern.isPrefixOf (char :: rest) then
        some ([], (char :: rest).drop pattern.length)
      else
        (splitFirst pattern rest).map fun found => (char :: found.1, found.2)

/-- `replace` of a character by a space. -/
def blankOut (separator : Char) (text : Str) : Str :=
  text.map fun char => if char = separator then ' ' else char

/-- The longest prefix of whole characters within `limit` bytes. -/
def prefixWithin : (limit : Nat) → Str → Str
  | _, [] => []
  | limit, char :: rest =>
      if char.utf8Size ≤ limit then
        char :: prefixWithin (limit - char.utf8Size) rest
      else []

theorem toAsciiLower_cases (char : Char) :
    toAsciiLower char = char ∨ 65 ≤ char.toNat ∧ char.toNat ≤ 90 ∧
      (toAsciiLower char).toNat = char.toNat + 32 := by
  unfold toAsciiLower
  split
  · rename_i upper
    have low : 65 ≤ char.toNat := upper.1
    have high : char.toNat ≤ 90 := upper.2
    have valid : (char.toNat + 32).isValidChar := .inl (by omega)
    refine .inr ⟨low, high, ?_⟩
    rw [Char.ofNat, dif_pos valid]
    rfl
  · exact .inl rfl

theorem stripPrefix_eq_some_iff {front text rest : Str} :
    stripPrefix front text = some rest ↔ text = front ++ rest := by
  unfold stripPrefix
  constructor
  · intro stripped
    split at stripped
    · rename_i starts
      obtain ⟨behind, rfl⟩ := List.isPrefixOf_iff_prefix.mp starts
      simpa using stripped
    · cases stripped
  · rintro rfl
    simp

theorem splitFirst_sound {pattern text before after : Str}
    (found : splitFirst pattern text = some (before, after)) :
    text = before ++ pattern ++ after := by
  induction text generalizing before with
  | nil =>
      rw [splitFirst] at found
      split_ifs at found with empty
      obtain ⟨rfl, rfl⟩ := Prod.mk.inj (Option.some.inj found)
      simp [empty]
  | cons char text induction =>
      rw [splitFirst] at found
      split_ifs at found with starts
      · obtain ⟨rfl, rfl⟩ := Prod.mk.inj (Option.some.inj found)
        obtain ⟨behind, same⟩ := List.isPrefixOf_iff_prefix.mp starts
        rw [← same]
        simp
      · obtain ⟨⟨front, behind⟩, later, same⟩ := Option.map_eq_some_iff.mp found
        obtain ⟨rfl, rfl⟩ := Prod.mk.inj same
        rw [induction later]
        rfl

/-- What is left behind the leftmost occurrence holds what is left behind any
other. -/
theorem exists_splitFirst (pattern before after : Str) :
    ∃ front behind,
      splitFirst pattern (before ++ pattern ++ after) = some (front, behind) ∧
        after <:+ behind := by
  induction before with
  | nil =>
      have starts : pattern.isPrefixOf (pattern ++ after) = true :=
        List.isPrefixOf_iff_prefix.mpr (List.prefix_append pattern after)
      refine ⟨[], after, ?_, List.suffix_refl after⟩
      cases text : pattern ++ after with
      | nil =>
          obtain ⟨rfl, rfl⟩ := List.append_eq_nil_iff.mp text
          rfl
      | cons char rest =>
          rw [text] at starts
          rw [List.nil_append, text, splitFirst, if_pos starts, ← text,
            List.drop_left]
  | cons char before induction =>
      obtain ⟨front, behind, found, left⟩ := induction
      rw [List.cons_append, List.cons_append, splitFirst]
      split_ifs with starts
      · refine ⟨[], _, rfl, ?_⟩
        obtain ⟨later, same⟩ := List.isPrefixOf_iff_prefix.mp starts
        rw [← same, List.drop_left]
        cases pattern with
        | nil =>
            rw [List.nil_append] at same
            rw [same]
            exact ⟨char :: before, by simp⟩
        | cons first pattern =>
            have ends : after <:+ char :: (before ++ first :: pattern ++ after) :=
              ⟨char :: (before ++ first :: pattern), by simp⟩
            have other : later <:+ char :: (before ++ first :: pattern ++ after) :=
              ⟨first :: pattern, same⟩
            apply List.suffix_of_suffix_length_le ends other
            have lengths := congrArg List.length same
            simp only [List.length_append, List.length_cons] at lengths
            omega
      · rw [found]
        exact ⟨char :: front, behind, rfl, left⟩

theorem splitFirst_eq_some_iff {text name value : Str} {char : Char} :
    splitFirst [char] text = some (name, value) ↔
      char ∉ name ∧ text = name ++ char :: value := by
  induction text generalizing name with
  | nil => simp [splitFirst]
  | cons head text induction =>
      rw [splitFirst]
      by_cases same : char = head
      · subst same
        cases name with
        | nil => simp [eq_comm]
        | cons first name =>
            have differs : char ≠ first → char ∉ name → char = first →
                text ≠ name ++ char :: value :=
              fun absent _ here => absurd here absent
            simpa using differs
      · have starts : ¬ [char].isPrefixOf (head :: text) = true := by
          simpa using same
        rw [if_neg starts]
        cases name with
        | nil => simp [Ne.symm same]
        | cons first name =>
            simp only [Option.map_eq_some_iff, Prod.mk.injEq, Prod.exists,
              List.cons.injEq, List.cons_append, List.mem_cons, not_or]
            constructor
            · rintro ⟨before, after, later, ⟨rfl, rfl⟩, rfl⟩
              obtain ⟨absent, rfl⟩ := induction.mp later
              exact ⟨⟨same, absent⟩, rfl, rfl⟩
            · rintro ⟨⟨-, absent⟩, rfl, rfl⟩
              exact ⟨name, value, induction.mpr ⟨absent, rfl⟩, ⟨rfl, rfl⟩, rfl⟩

/-! ## Bytes -/

theorem utf8Bytes_injective : Function.Injective utf8Bytes := by
  intro left right same
  have encoded : left.utf8Encode = right.utf8Encode :=
    congrArg List.toByteArray same
  rw [← String.toByteArray_ofList, ← String.toByteArray_ofList,
    String.toByteArray_inj] at encoded
  simpa using congrArg String.toList encoded

/-- A law of the characters of a text is decided along the text. -/
instance decidableForallText (p : Char → Prop) [DecidablePred p] (text : Str) :
    Decidable (∀ char ∈ text, p char) :=
  List.decidableBAll p text

instance decidableForallChar (p : Char → Prop) [DecidablePred p]
    (char? : Option Char) :
    Decidable (∀ char ∈ char?, p char) :=
  Option.decidableForallMem char?

/-- Every character is ASCII. -/
def IsAscii (text : Str) : Prop :=
  ∀ char ∈ text, char.toNat < 128

instance (text : Str) : Decidable (IsAscii text) :=
  inferInstanceAs (Decidable (∀ char ∈ text, char.toNat < 128))

@[simp] theorem isAscii_nil : IsAscii [] := by
  simp [IsAscii]

@[simp] theorem isAscii_cons {char : Char} {text : Str} :
    IsAscii (char :: text) ↔ char.toNat < 128 ∧ IsAscii text := by
  simp [IsAscii]

@[simp] theorem isAscii_append {left right : Str} :
    IsAscii (left ++ right) ↔ IsAscii left ∧ IsAscii right := by
  simp [IsAscii, or_imp, forall_and]

@[simp] theorem asBytes_nil : asBytes [] = [] := rfl

@[simp] theorem asBytes_append (left right : Str) :
    asBytes (left ++ right) = asBytes left ++ asBytes right := by
  simp [asBytes, utf8Bytes]

theorem asBytes_cons (char : Char) (text : Str) :
    asBytes (char :: text) = asBytes [char] ++ asBytes text := by
  rw [← asBytes_append, List.singleton_append]

theorem asBytes_singleton_of_ascii {char : Char} (ascii : char.toNat < 128) :
    asBytes [char] = [char] := by
  have small : char.toNat ≤ 127 := by omega
  have encoded : String.utf8EncodeChar char = [UInt8.ofNat char.toNat] := by
    simp [String.utf8EncodeChar, small]
  have fits : (UInt8.ofNat char.toNat).toNat = char.toNat := by
    simp only [UInt8.toNat_ofNat']
    omega
  simp [asBytes, utf8Bytes, encoded, byteChar, fits]

theorem asBytes_of_ascii {text : Str} (ascii : IsAscii text) :
    asBytes text = text := by
  induction text with
  | nil => rfl
  | cons char text induction =>
      obtain ⟨head, tail⟩ := isAscii_cons.mp ascii
      rw [asBytes_cons, asBytes_singleton_of_ascii head, induction tail]
      rfl

theorem toNat_byteChar (byte : UInt8) : (byteChar byte).toNat = byte.toNat := by
  have small := byte.toNat_lt
  have valid : byte.toNat.isValidChar := .inl (by omega)
  rw [byteChar, Char.ofNat, dif_pos valid]
  rfl

/-- A byte of a character is the character itself, or lies outside ASCII. -/
theorem mem_asBytes_singleton {char byte : Char}
    (member : byte ∈ asBytes [char]) :
    (byte = char ∧ char.toNat < 128) ∨
      (128 ≤ char.toNat ∧ 128 ≤ byte.toNat) := by
  by_cases ascii : char.toNat < 128
  · rw [asBytes_singleton_of_ascii ascii] at member
    exact .inl ⟨List.mem_singleton.mp member, ascii⟩
  · right
    refine ⟨by omega, ?_⟩
    simp only [asBytes, utf8Bytes, List.flatMap_cons, List.flatMap_nil,
      List.append_nil, List.mem_map] at member
    obtain ⟨raw, encoded, rfl⟩ := member
    rw [toNat_byteChar]
    have large : ¬ char.toNat ≤ 127 := by omega
    have valid := char.valid
    simp only [String.utf8EncodeChar] at encoded
    split at encoded
    · exact absurd ‹_› large
    · split at encoded
      · simp only [List.mem_cons, List.not_mem_nil, or_false] at encoded
        rcases encoded with rfl | rfl <;> simp <;> omega
      · split at encoded
        · simp only [List.mem_cons, List.not_mem_nil, or_false] at encoded
          rcases encoded with rfl | rfl | rfl <;> simp <;> omega
        · simp only [List.mem_cons, List.not_mem_nil, or_false] at encoded
          rcases encoded with rfl | rfl | rfl | rfl <;> simp <;> omega

/-- An ASCII character occurs in the bytes where it occurs in the text. -/
theorem mem_asBytes_iff {char : Char} (ascii : char.toNat < 128) {text : Str} :
    char ∈ asBytes text ↔ char ∈ text := by
  induction text with
  | nil => simp
  | cons head text induction =>
      rw [asBytes_cons, List.mem_append, induction, List.mem_cons]
      refine or_congr_left ⟨fun member => ?_, fun same => ?_⟩
      · rcases mem_asBytes_singleton member with ⟨same, -⟩ | ⟨-, large⟩
        · exact same
        · omega
      · rw [← same, asBytes_singleton_of_ascii ascii]
        exact List.mem_singleton_self char

theorem asBytes_cons_of_ascii {char : Char} (ascii : char.toNat < 128)
    (text : Str) : asBytes (char :: text) = char :: asBytes text := by
  rw [asBytes_cons, asBytes_singleton_of_ascii ascii, List.singleton_append]

theorem le_toNat_of_mem_asBytes {char : Char} (wide : ¬ char.toNat < 128) :
    ∀ byte ∈ asBytes [char], 128 ≤ byte.toNat := by
  intro byte member
  rcases mem_asBytes_singleton member with ⟨-, ascii⟩ | ⟨-, large⟩
  · exact absurd ascii wide
  · exact large

theorem asBytes_ne_nil (char : Char) : asBytes [char] ≠ [] := by
  have size := String.length_utf8EncodeChar char
  have positive := char.utf8Size_pos
  intro empty
  have none := congrArg List.length empty
  simp [asBytes, utf8Bytes] at none
  omega

theorem byteLen_append (left right : Str) :
    byteLen (left ++ right) = byteLen left + byteLen right := by
  simp [byteLen]

/-! ## Trimming -/

theorem trim_cons_of_isWhitespace {char : Char} (space : isWhitespace char = true)
    (text : Str) : trim (char :: text) = trim text := by
  simp [trim, trimStart, space]

theorem trim_append_of_isWhitespace {char : Char}
    (space : isWhitespace char = true) (text : Str) :
    trim (text ++ [char]) = trim text := by
  have start : trimStart (text ++ [char]) =
      if trimStart text = [] then [] else trimStart text ++ [char] := by
    simp only [trimStart, List.dropWhile_append]
    by_cases blank : text.dropWhile isWhitespace = []
    · simp [blank, space]
    · simp [blank]
  rw [trim, start, trim]
  split_ifs with blank
  · rw [blank]
  · rw [List.rdropWhile_concat_pos _ _ _ space]

theorem trim_cons_ne_nil {char : Char} (visible : isWhitespace char = false)
    (text : Str) : trim (char :: text) ≠ [] := by
  intro empty
  have start : trimStart (char :: text) = char :: text := by
    simp [trimStart, visible]
  rw [trim, start, List.rdropWhile_eq_nil_iff] at empty
  simp [empty char List.mem_cons_self] at visible

theorem trim_sublist (text : Str) : (trim text).Sublist text :=
  (List.rdropWhile_prefix _ _).sublist.trans (List.dropWhile_sublist _)

/-- A text that is not blank keeps a visible character when it is trimmed. -/
theorem exists_visible_of_trim {text : Str} (nonempty : trim text ≠ []) :
    ∃ char ∈ trim text, isWhitespace char = false :=
  ⟨(trim text).getLast nonempty, List.getLast_mem nonempty,
    Bool.eq_false_iff.mpr (List.rdropWhile_last_not isWhitespace _ nonempty)⟩

theorem trim_append_of_blank {blank : Str}
    (spaces : ∀ char ∈ blank, isWhitespace char = true) (text : Str) :
    trim (blank ++ text) = trim text := by
  induction blank with
  | nil => rfl
  | cons char blank induction =>
      obtain ⟨head, tail⟩ := List.forall_mem_cons.mp spaces
      rw [List.cons_append, trim_cons_of_isWhitespace head, induction tail]

/-- A text with visible ends is trimmed already. -/
theorem trim_of_ends {text : Str}
    (front : ∀ char ∈ text.head?, isWhitespace char = false)
    (back : ∀ char ∈ text.getLast?, isWhitespace char = false) :
    trim text = text := by
  cases text with
  | nil => rfl
  | cons head text =>
      have start : trimStart (head :: text) = head :: text := by
        simp [trimStart, front head (by simp)]
      rw [trim, start, List.rdropWhile_eq_self_iff]
      intro nonempty
      have last := back ((head :: text).getLast nonempty)
        (List.getLast?_eq_some_getLast nonempty)
      simp [last]

/-! ## Words -/

theorem splitWhitespace_append {char : Char} (space : isWhitespace char = true)
    (left right : Str) :
    splitWhitespace (left ++ char :: right) =
      splitWhitespace left ++ splitWhitespace right := by
  simp [splitWhitespace, List.splitOnP_append_cons _ _ space]

theorem splitWhitespace_cons_of_isWhitespace {char : Char}
    (space : isWhitespace char = true) (text : Str) :
    splitWhitespace (char :: text) = splitWhitespace text := by
  simpa [splitWhitespace] using splitWhitespace_append space [] text

@[simp] theorem splitWhitespace_trimStart (text : Str) :
    splitWhitespace (trimStart text) = splitWhitespace text := by
  induction text with
  | nil => rfl
  | cons char text induction =>
      by_cases space : isWhitespace char = true
      · rw [splitWhitespace_cons_of_isWhitespace space, ← induction]
        simp [trimStart, space]
      · simp [trimStart, space]

/-- The first word of a text that starts with a visible character. -/
theorem splitWhitespace_cons {char : Char} (visible : isWhitespace char = false)
    (text : Str) :
    splitWhitespace (char :: text) =
      (char :: text.takeWhile fun char => !isWhitespace char) ::
        splitWhitespace (text.dropWhile fun char => !isWhitespace char) := by
  have word : ∀ other ∈ char :: text.takeWhile (fun char => !isWhitespace char),
      isWhitespace other = false := by
    intro other member
    rcases List.mem_cons.mp member with rfl | later
    · exact visible
    · simpa using List.mem_takeWhile_imp later
  have parts := @List.takeWhile_append_dropWhile _
    (fun char => !isWhitespace char) text
  cases rest : text.dropWhile fun char => !isWhitespace char with
  | nil =>
      rw [rest, List.append_nil] at parts
      rw [parts] at word
      rw [splitWhitespace, List.splitOnP_eq_singleton word, parts]
      rfl
  | cons space after =>
      have isSpace : isWhitespace space = true := by
        have stopped := @List.head_dropWhile_not _
          (fun char => !isWhitespace char) text (by simp [rest])
        simpa [rest] using stopped
      rw [rest] at parts
      nth_rewrite 1 [← parts]
      rw [← List.cons_append, splitWhitespace_append isSpace,
        splitWhitespace_cons_of_isWhitespace isSpace]
      rw [splitWhitespace, List.splitOnP_eq_singleton word]
      rfl

/-! ## Parts -/

theorem intercalate_cons (separator : Char) (part : Str) (parts : List Str) :
    [separator].intercalate (part :: parts) =
      part ++ parts.flatMap fun other => separator :: other := by
  induction parts generalizing part with
  | nil => simp
  | cons other parts induction =>
      rw [List.intercalate_cons_cons, induction]
      simp

theorem mem_intercalate {separator char : Char} {parts : List Str}
    (member : char ∈ [separator].intercalate parts) :
    char = separator ∨ ∃ part ∈ parts, char ∈ part := by
  induction parts with
  | nil => simp at member
  | cons part parts induction =>
      cases parts with
      | nil => exact .inr ⟨part, by simp, by simpa using member⟩
      | cons next parts =>
          rw [List.intercalate_cons_cons, List.mem_append, List.mem_append,
            List.mem_singleton] at member
          rcases member with (here | separates) | later
          · exact .inr ⟨part, List.mem_cons_self, here⟩
          · exact .inl separates
          · rcases induction later with separates | ⟨other, among, inPart⟩
            · exact .inl separates
            · exact .inr ⟨other, List.mem_cons_of_mem _ among, inPart⟩

/-- An occurrence does not go over a character that the mark has not. -/
theorem prefix_of_prefix_append_cons {mark left right : Str} {char : Char}
    (outer : char ∉ mark) (starts : mark <+: left ++ char :: right) :
    mark <+: left := by
  obtain ⟨rest, same⟩ := starts
  rcases List.append_eq_append_iff.mp same with
    ⟨more, rfl, -⟩ | ⟨more, rfl, behind⟩
  · exact List.prefix_append mark more
  · cases more with
    | nil =>
        rw [List.append_nil]
    | cons first more =>
        obtain ⟨rfl, -⟩ := List.cons.inj behind
        exact absurd (by simp) outer

/-- A pattern that no character of the first text starts is not found there. -/
theorem contains_append {before text : Str} {first : Char} {later : Str}
    (absent : first ∉ before) :
    contains (before ++ text) (first :: later) = contains text (first :: later) := by
  rw [contains, contains, decide_eq_decide]
  induction before with
  | nil => rfl
  | cons char before induction =>
      obtain ⟨differs, tail⟩ := not_or.mp (mt List.mem_cons.mpr absent)
      rw [List.cons_append, List.infix_cons_iff, induction tail]
      constructor
      · rintro (front | later)
        · exact absurd (List.cons_prefix_cons.mp front).1 differs
        · exact later
      · exact Or.inr

theorem splitChar_append_tail {separator : Char} {before : Str}
    (absent : separator ∉ before) (text : Str) :
    (splitChar separator (before ++ text)).tail =
      (splitChar separator text).tail := by
  induction before with
  | nil => rfl
  | cons char before induction =>
      obtain ⟨head, later⟩ := not_or.mp (mt List.mem_cons.mpr absent)
      rw [List.cons_append, splitChar, List.splitOn_cons_eq_if_modifyHead,
        if_neg (by simpa using Ne.symm head), List.tail_modifyHead]
      exact induction later

end TrustLayer.Library
