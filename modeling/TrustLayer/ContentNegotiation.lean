import TrustLayer.Library.MediaRange
import TrustLayer.Library.PyFloat
import TrustLayer.Library.StableSort
import TrustLayer.OrgResolver

/-!
# The content type of a receipt

The header is read as a list of ranges, heaviest first, and the first range
that names or covers a supported type decides.
-/

namespace TrustLayer.ContentNegotiation

open TrustLayer.Library
open TrustLayer.OrgResolver (isSpace strip lower)

def applicationJson : Str := "application/json".toList

def applicationScittJson : Str := "application/scitt+json".toList

def supportedTypes : List Str := [applicationJson, applicationScittJson]

/-- One turn of the loop over the parameters of a range. -/
def readParam (q : PyFloat) (paramPart : Str) : PyFloat :=
  match stripPrefix "q=".toList (strip paramPart) with
  | none => q
  | some value => (PyFloat.ofText (strip value)).getD (.finite 1)

/-- The weight and the media range of a chunk, unless it is blank. -/
def parseChunk (rawChunk : Str) : Option (PyFloat × Str) :=
  let chunk := strip rawChunk
  if chunk = [] then none
  else
    let parts := chunk.splitOn ';'
    some (parts.tail.foldl readParam (.finite 1), strip (parts.headD []))

/-- The order that sorts by `-t[0]`: the key of the later item is not less. -/
def sortsBefore (item other : PyFloat × Str) : Prop :=
  other.1.neg.lt item.1.neg = false

instance : DecidableRel sortsBefore :=
  fun _ _ => inferInstanceAs (Decidable (_ = _))

def parseAccept (acceptHeader : Str) : List Str :=
  if strip acceptHeader = [] then ["*/*".toList]
  else
    (((acceptHeader.splitOn ',').filterMap parseChunk).insertionSort
      sortsBefore).map Prod.snd

/-- What the loop over the candidates returns at one of them. -/
def answerFor (candidate : Str) : Option Str :=
  let cl := lower candidate
  if cl = applicationScittJson then some applicationScittJson
  else if cl = applicationJson then some applicationJson
  else if cl = "*/*".toList ∨ cl = "application/*".toList then
    some applicationJson
  else if cl ∈ supportedTypes then some cl
  else none

def selectContentType : Option Str → Option Str
  | none => some applicationJson
  | some acceptHeader => (parseAccept acceptHeader).findSome? answerFor

/-! ## Headers -/

/-- Spaces and tabs. -/
abbrev Blank : Type :=
  { text : Str // ∀ char ∈ text, char = ' ' ∨ char = '\t' }

def isTokenChar (char : Char) : Bool :=
  isAsciiAlphanumeric char || char ∈ "!#$%&'*+-.^_`|~".toList

/-- A name that is not the wildcard. -/
def IsToken (text : Str) : Prop :=
  text ≠ [] ∧ text ≠ ['*'] ∧ ∀ char ∈ text, isTokenChar char = true

instance (text : Str) : Decidable (IsToken text) :=
  inferInstanceAs (Decidable (_ ∧ _ ∧ _))

def rangeText : MediaRange → Str
  | .any => "*/*".toList
  | .anyOf type => type ++ "/*".toList
  | .exact type subtype => type ++ '/' :: subtype

def IsMediaRange : MediaRange → Prop
  | .any => True
  | .anyOf type => IsToken type
  | .exact type subtype => IsToken type ∧ IsToken subtype

instance (range : MediaRange) : Decidable (IsMediaRange range) :=
  match range with
  | .any => inferInstanceAs (Decidable True)
  | .anyOf type => inferInstanceAs (Decidable (IsToken type))
  | .exact type subtype =>
      inferInstanceAs (Decidable (IsToken type ∧ IsToken subtype))

/-- A `qvalue`: 0 or 1, with up to three digits behind a point. -/
structure Qvalue where
  one : Bool
  fraction : Option Str
  digits : ∀ digit ∈ fraction.getD [], isAsciiDigit digit = true
  short : (fraction.getD []).length ≤ 3
  most : one = true → ∀ digit ∈ fraction.getD [], digit = '0'

namespace Qvalue

variable (qvalue : Qvalue)

def first : Char :=
  if qvalue.one then '1' else '0'

def text : Str :=
  qvalue.first ::
    match qvalue.fraction with
    | none => []
    | some digits => '.' :: digits

def value : ℚ :=
  let digits := qvalue.fraction.getD []
  digitsNumber (qvalue.first :: digits) / 10 ^ digits.length

end Qvalue

/-- A weight, with the blanks around its semicolon. -/
structure Weight where
  before : Blank
  after : Blank
  qvalue : Qvalue

/-- An element of a header, with the blanks around it. -/
structure Element where
  range : MediaRange
  weight : Option Weight
  lead : Blank
  trail : Blank
  isMediaRange : IsMediaRange range

namespace Element

variable (element : Element)

def value : ℚ :=
  match element.weight with
  | none => 1
  | some weight => weight.qvalue.value

/-- What stands behind the range. -/
def weightText : Str :=
  match element.weight with
  | none => []
  | some weight =>
      weight.before.1 ++
        ';' :: (weight.after.1 ++ "q=".toList ++ weight.qvalue.text)

def text : Str :=
  element.lead.1 ++ (rangeText element.range ++ element.weightText) ++
    element.trail.1

end Element

/-- The header that a list of elements makes. -/
def headerText (elements : List Element) : Str :=
  [','].intercalate (elements.map Element.text)

/-! ## What is read of a header -/

/-- Neither space nor separator. -/
def IsPlain (char : Char) : Prop :=
  isSpace char = false ∧ char ≠ ',' ∧ char ≠ ';'

instance : DecidablePred IsPlain :=
  fun _ => inferInstanceAs (Decidable (_ ∧ _ ∧ _))

theorem strip_pad {lead core trail : Str}
    (before : ∀ char ∈ lead, isSpace char = true)
    (behind : ∀ char ∈ trail, isSpace char = true)
    (front : ∃ char ∈ core.head?, isSpace char = false)
    (back : ∃ char ∈ core.getLast?, isSpace char = false) :
    strip (lead ++ core ++ trail) = core := by
  obtain ⟨first, head, firstVisible⟩ := front
  obtain ⟨last, end_, lastVisible⟩ := back
  obtain ⟨rest, rfl⟩ := List.head?_eq_some_iff.mp head
  have start : (lead ++ (first :: rest) ++ trail).dropWhile isSpace =
      (first :: rest) ++ trail := by
    rw [List.append_assoc, List.dropWhile_append_of_pos before,
      List.cons_append, List.dropWhile_cons_of_neg (by simp [firstVisible])]
  obtain ⟨middle, whole⟩ := List.getLast?_eq_some_iff.mp end_
  have reversed : ((first :: rest) ++ trail).reverse =
      trail.reverse ++ last :: middle.reverse := by
    rw [whole]
    simp
  have spaces : ∀ char ∈ trail.reverse, isSpace char = true := fun char member =>
    behind char (List.mem_reverse.mp member)
  rw [strip, start, List.rdropWhile, reversed,
    List.dropWhile_append_of_pos spaces,
    List.dropWhile_cons_of_neg (by simp [lastVisible]), whole]
  simp

theorem strip_ne_nil {text : Str}
    (visible : ∃ char ∈ text, isSpace char = false) : strip text ≠ [] := by
  obtain ⟨char, member, seen⟩ := visible
  intro blank
  have spaces := List.rdropWhile_eq_nil_iff.mp blank
  rw [← List.takeWhile_append_dropWhile (p := isSpace) (l := text)] at member
  rcases List.mem_append.mp member with front | behind
  · rw [List.mem_takeWhile_imp front] at seen
    cases seen
  · rw [spaces char behind] at seen
    cases seen

theorem strip_plain {core : Str} (nonempty : core ≠ [])
    (plain : ∀ char ∈ core, IsPlain char) {lead trail : Str}
    (before : ∀ char ∈ lead, isSpace char = true)
    (behind : ∀ char ∈ trail, isSpace char = true) :
    strip (lead ++ core ++ trail) = core :=
  strip_pad before behind
    ⟨core.head nonempty, List.head?_eq_some_head nonempty,
      (plain _ (List.head_mem nonempty)).1⟩
    ⟨core.getLast nonempty, List.getLast?_eq_some_getLast nonempty,
      (plain _ (List.getLast_mem nonempty)).1⟩

theorem Blank.isSpace (blank : Blank) :
    ∀ char ∈ blank.1, OrgResolver.isSpace char = true := by
  intro char member
  rcases blank.2 char member with rfl | rfl <;> decide

theorem Blank.not_mem (blank : Blank) {mark : Char}
    (visible : OrgResolver.isSpace mark = false) : mark ∉ blank.1 := by
  intro member
  rw [blank.isSpace mark member] at visible
  cases visible

theorem codes_of_isAsciiAlphanumeric {char : Char}
    (alphanumeric : isAsciiAlphanumeric char = true) :
    48 ≤ char.toNat ∧ char.toNat ≤ 57 ∨
      65 ≤ char.toNat ∧ char.toNat ≤ 122 := by
  simp only [isAsciiAlphanumeric, isAsciiAlphabetic, isAsciiDigit,
    Bool.or_eq_true, Bool.and_eq_true, decide_eq_true_iff] at alphanumeric
  rcases alphanumeric with (⟨low, high⟩ | ⟨low, high⟩) | ⟨low, high⟩
  · have low : 97 ≤ char.toNat := low
    have high : char.toNat ≤ 122 := high
    omega
  · have low : 65 ≤ char.toNat := low
    have high : char.toNat ≤ 90 := high
    omega
  · have low : 48 ≤ char.toNat := low
    have high : char.toNat ≤ 57 := high
    omega

theorem isPlain_of_isAsciiAlphanumeric {char : Char}
    (alphanumeric : isAsciiAlphanumeric char = true) : IsPlain char := by
  have codes := codes_of_isAsciiAlphanumeric alphanumeric
  refine ⟨?_, ?_, ?_⟩
  · simp only [isSpace, isWhitespace, Bool.or_eq_false_iff,
      Bool.and_eq_false_iff, decide_eq_false_iff_not, beq_eq_false_iff_ne]
    omega
  · rintro rfl
    exact absurd codes (by decide)
  · rintro rfl
    exact absurd codes (by decide)

theorem isPlain_of_isTokenChar {char : Char}
    (token : isTokenChar char = true) : IsPlain char := by
  have marks : ∀ char ∈ "!#$%&'*+-.^_`|~".toList, IsPlain char := by decide
  rcases Bool.or_eq_true_iff.mp token with alphanumeric | mark
  · exact isPlain_of_isAsciiAlphanumeric alphanumeric
  · exact marks char (of_decide_eq_true mark)

section

variable {range : MediaRange}

theorem rangeText_plain (isMediaRange : IsMediaRange range) :
    ∀ char ∈ rangeText range, IsPlain char := by
  have token {text : Str} (isToken : IsToken text) :
      ∀ char ∈ text, IsPlain char := fun char member =>
    isPlain_of_isTokenChar (isToken.2.2 char member)
  have slash : IsPlain '/' := by decide
  cases range with
  | any => decide
  | anyOf type =>
      refine List.forall_mem_append.mpr ⟨token isMediaRange, by decide⟩
  | exact type subtype =>
      exact List.forall_mem_append.mpr ⟨token isMediaRange.1,
        List.forall_mem_cons.mpr ⟨slash, token isMediaRange.2⟩⟩

theorem rangeText_ne_nil (range : MediaRange) : rangeText range ≠ [] := by
  cases range <;> simp [rangeText]

end

namespace Qvalue

variable (qvalue : Qvalue)

theorem first_isAsciiDigit : isAsciiDigit qvalue.first = true := by
  unfold first
  split <;> decide

theorem text_plain : ∀ char ∈ qvalue.text, IsPlain char ∧ char ≠ '_' := by
  have digit {char : Char} (isDigit : isAsciiDigit char = true) :
      IsPlain char ∧ char ≠ '_' :=
    ⟨isPlain_of_isAsciiAlphanumeric (by simp [isAsciiAlphanumeric, isDigit]),
      PyFloat.isAsciiDigit_ne isDigit rfl⟩
  have digits := qvalue.digits
  unfold text
  cases fraction : qvalue.fraction with
  | none => exact List.forall_mem_singleton.mpr (digit qvalue.first_isAsciiDigit)
  | some decimals =>
      rw [fraction] at digits
      exact List.forall_mem_cons.mpr ⟨digit qvalue.first_isAsciiDigit,
        List.forall_mem_cons.mpr ⟨by decide,
          fun char member => digit (digits char member)⟩⟩

/-- `float` reads the value of a weight. -/
theorem ofText_text :
    PyFloat.ofText qvalue.text = some (.finite qvalue.value) := by
  have plain : '_' ∉ qvalue.text := fun member =>
    (qvalue.text_plain '_' member).2 rfl
  have digits := qvalue.digits
  unfold text value at *
  rw [PyFloat.ofText_of_digit qvalue.first_isAsciiDigit plain]
  cases fraction : qvalue.fraction with
  | none =>
      rw [PyFloat.decimal_digit qvalue.first_isAsciiDigit]
      simp
  | some decimals =>
      rw [fraction] at digits
      have pointed := PyFloat.decimal_pointed qvalue.first_isAsciiDigit digits
      simp only [Option.getD_some] at pointed ⊢
      rw [pointed]
      simp [zpow_neg, div_eq_mul_inv]

end Qvalue

namespace Element

variable (element : Element)

theorem value_nonneg : 0 ≤ element.value := by
  unfold value
  split
  · decide
  · unfold Qvalue.value
    positivity

theorem readParam_qvalue (after : Blank) (qvalue : Qvalue) (q : PyFloat) :
    readParam q (after.1 ++ "q=".toList ++ qvalue.text) =
      .finite qvalue.value := by
  have plain : ∀ char ∈ qvalue.text, IsPlain char := fun char member =>
    (qvalue.text_plain char member).1
  have whole : ∀ char ∈ "q=".toList ++ qvalue.text, IsPlain char :=
    List.forall_mem_append.mpr ⟨by decide, plain⟩
  have none : ∀ char ∈ ([] : Str), isSpace char = true := by simp
  have param : strip (after.1 ++ "q=".toList ++ qvalue.text) =
      "q=".toList ++ qvalue.text := by
    have stripped := strip_plain (by simp) whole after.isSpace none
    rwa [List.append_nil, ← List.append_assoc] at stripped
  have value : strip qvalue.text = qvalue.text := by
    have stripped := strip_plain (List.cons_ne_nil _ _) plain none none
    rwa [List.append_nil] at stripped
  have found : stripPrefix "q=".toList ("q=".toList ++ qvalue.text) =
      some qvalue.text :=
    stripPrefix_eq_some_iff.mpr rfl
  rw [readParam, param, found]
  simp only [value, qvalue.ofText_text, Option.getD_some]

/-- The range and the weight, without the blanks around them. -/
theorem strip_text :
    strip element.text = rangeText element.range ++ element.weightText := by
  have range := rangeText_plain element.isMediaRange
  have nonempty := rangeText_ne_nil element.range
  refine strip_pad element.lead.isSpace element.trail.isSpace ?_ ?_
  · refine ⟨(rangeText element.range).head nonempty, ?_,
      (range _ (List.head_mem nonempty)).1⟩
    rw [List.head?_append_of_ne_nil _ nonempty]
    exact List.head?_eq_some_head nonempty
  · unfold weightText
    cases element.weight with
    | none =>
        refine ⟨(rangeText element.range).getLast nonempty, ?_,
          (range _ (List.getLast_mem nonempty)).1⟩
        rw [List.append_nil]
        exact List.getLast?_eq_some_getLast nonempty
    | some weight =>
        have last : weight.qvalue.text ≠ [] := List.cons_ne_nil _ _
        have whole : rangeText element.range ++ (weight.before.1 ++
            ';' :: (weight.after.1 ++ "q=".toList ++ weight.qvalue.text)) =
            (rangeText element.range ++ weight.before.1 ++
              ';' :: (weight.after.1 ++ "q=".toList)) ++ weight.qvalue.text := by
          simp
        refine ⟨weight.qvalue.text.getLast last, ?_,
          (weight.qvalue.text_plain _ (List.getLast_mem last)).1.1⟩
        simp only [whole, List.getLast?_append_of_ne_nil _ last]
        exact List.getLast?_eq_some_getLast last

theorem parseChunk_text :
    parseChunk element.text =
      some (.finite element.value, rangeText element.range) := by
  have range := rangeText_plain element.isMediaRange
  have nonempty := rangeText_ne_nil element.range
  have noSemicolon : ';' ∉ rangeText element.range := fun member =>
    (range _ member).2.2 rfl
  have none : ∀ char ∈ ([] : Str), isSpace char = true := by simp
  have visible : rangeText element.range ++ element.weightText ≠ [] := by
    simp [nonempty]
  rw [parseChunk, element.strip_text]
  simp only [visible, if_false, Option.some.injEq, Prod.mk.injEq]
  unfold weightText value
  cases element.weight with
  | none =>
      have alone : (rangeText element.range ++ []).splitOn ';' =
          [rangeText element.range] := by
        rw [List.append_nil]
        exact List.splitOn_eq_singleton noSemicolon
      have stripped := strip_plain nonempty range none none
      rw [List.append_nil] at stripped
      rw [alone]
      exact ⟨rfl, stripped⟩
  | some weight =>
      have noMore : ';' ∉
          weight.after.1 ++ "q=".toList ++ weight.qvalue.text := by
        simp only [List.mem_append, not_or]
        exact ⟨⟨weight.after.not_mem rfl, by decide⟩, fun member =>
          (weight.qvalue.text_plain _ member).1.2.2 rfl⟩
      have noEarlier : ';' ∉ rangeText element.range ++ weight.before.1 := by
        simp only [List.mem_append, not_or]
        exact ⟨noSemicolon, weight.before.not_mem rfl⟩
      have parts : (rangeText element.range ++ (weight.before.1 ++
          ';' :: (weight.after.1 ++ "q=".toList ++ weight.qvalue.text))).splitOn
            ';' =
          [rangeText element.range ++ weight.before.1,
            weight.after.1 ++ "q=".toList ++ weight.qvalue.text] := by
        rw [← List.append_assoc, List.splitOn_append_cons_self,
          List.splitOn_eq_singleton noEarlier,
          List.splitOn_eq_singleton noMore]
        rfl
      have stripped := strip_plain nonempty range none weight.before.isSpace
      rw [parts]
      exact ⟨readParam_qvalue _ _ _, stripped⟩

theorem comma_not_mem_text : ',' ∉ element.text := by
  have range : ',' ∉ rangeText element.range := fun member =>
    (rangeText_plain element.isMediaRange _ member).2.1 rfl
  have weight : ',' ∉ element.weightText := by
    unfold weightText
    cases element.weight with
    | none => exact List.not_mem_nil
    | some weight =>
        have qvalue : ',' ∉ weight.qvalue.text := fun member =>
          (weight.qvalue.text_plain _ member).1.2.1 rfl
        have before := weight.before.not_mem (show isSpace ',' = false from rfl)
        have after := weight.after.not_mem (show isSpace ',' = false from rfl)
        simp [qvalue, before, after]
  have lead := element.lead.not_mem (show isSpace ',' = false from rfl)
  have trail := element.trail.not_mem (show isSpace ',' = false from rfl)
  simp [text, range, weight, lead, trail]

end Element

/-- The candidates are the ranges of the header, sorted stably by weight. -/
def heavier (element other : Element) : Prop :=
  other.value ≤ element.value

instance : DecidableRel heavier :=
  fun element other => inferInstanceAs (Decidable (other.value ≤ element.value))

instance : Std.Total heavier :=
  ⟨fun element other => le_total other.value element.value⟩

instance : IsTrans Element heavier :=
  ⟨fun _ _ _ first second => le_trans second first⟩

theorem parseAccept_headerText {elements : List Element}
    (nonempty : elements ≠ []) :
    parseAccept (headerText elements) =
      (elements.insertionSort heavier).map fun element =>
        rangeText element.range := by
  have parts : (headerText elements).splitOn ',' = elements.map Element.text := by
    refine List.splitOn_intercalate ',' ?_ (by simpa using nonempty)
    intro text member
    obtain ⟨element, -, rfl⟩ := List.mem_map.mp member
    exact element.comma_not_mem_text
  have chunks : (elements.map Element.text).filterMap parseChunk =
      elements.map fun element =>
        (.finite element.value, rangeText element.range) := by
    rw [List.filterMap_map, ← List.filterMap_eq_map]
    exact List.filterMap_congr fun element _ => element.parseChunk_text
  have order (element other : Element) : heavier element other ↔
      sortsBefore (.finite element.value, rangeText element.range)
        (.finite other.value, rangeText other.range) := by
    simp [heavier, sortsBefore, PyFloat.neg, PyFloat.lt]
  have visible : strip (headerText elements) ≠ [] := by
    obtain ⟨element, rest, rfl⟩ := List.exists_cons_of_ne_nil nonempty
    have range := rangeText_ne_nil element.range
    have plain := rangeText_plain element.isMediaRange _ (List.head_mem range)
    refine strip_ne_nil ⟨_, ?_, plain.1⟩
    cases rest <;>
      simp [headerText, Element.text, List.head_mem range, List.intercalate]
  rw [parseAccept, if_neg visible, parts, chunks,
    ← List.map_insertionSort heavier sortsBefore _ elements
      fun element _ other _ => order element other, List.map_map]
  rfl

/-! ## Supported types -/

def json : MediaType :=
  { type := "application".toList, subtype := "json".toList }

def scittJson : MediaType :=
  { type := "application".toList, subtype := "scitt+json".toList }

def supportedMedia : List MediaType := [json, scittJson]

def mediaText (media : MediaType) : Str :=
  media.type ++ '/' :: media.subtype

/-- The supported type that a range stands for in the loop. -/
def target (range : MediaRange) : Option MediaType :=
  supportedMedia.find? fun media => range.matches? media

theorem isTokenChar_spec {char : Char} (token : isTokenChar char = true) :
    char.toNat < 0xC0 ∧ char ≠ '/' := by
  have marks : ∀ char ∈ "!#$%&'*+-.^_`|~".toList,
      char.toNat < 0xC0 ∧ char ≠ '/' := by decide
  rcases Bool.or_eq_true_iff.mp token with alphanumeric | mark
  · have codes := codes_of_isAsciiAlphanumeric alphanumeric
    refine ⟨by omega, ?_⟩
    rintro rfl
    exact absurd codes (by decide)
  · exact marks char (of_decide_eq_true mark)

theorem lowerChar_of_low {char : Char} (low : char.toNat < 0xC0) :
    OrgResolver.lowerChar char = toAsciiLower char := by
  unfold OrgResolver.lowerChar toAsciiLower
  by_cases upper : 65 ≤ char.toNat ∧ char.toNat ≤ 90
  · exact (if_pos (.inl upper)).trans
      (if_pos (show 'A' ≤ char ∧ char ≤ 'Z' from upper)).symm
  · have noLatin : ¬ (0xC0 ≤ char.toNat ∧ char.toNat ≤ 0xDE ∧
        char.toNat ≠ 0xD7) := by omega
    exact (if_neg (not_or.mpr ⟨upper, noLatin⟩)).trans
      (if_neg (show ¬ ('A' ≤ char ∧ char ≤ 'Z') from upper)).symm

/-- Only a letter is changed to another character, and to a letter. -/
theorem toAsciiLower_eq_mark {char mark : Char}
    (other : ¬ (97 ≤ mark.toNat ∧ mark.toNat ≤ 122))
    (same : toAsciiLower char = mark) : char = mark := by
  rcases toAsciiLower_cases char with kept | ⟨low, high, moved⟩
  · exact kept.symm.trans same
  · rw [same] at moved
    omega

namespace IsToken

variable {text : Str}

theorem lower_eq (token : IsToken text) : lower text = toAsciiLowercase text :=
  List.map_congr_left fun char member =>
    lowerChar_of_low (isTokenChar_spec (token.2.2 char member)).1

theorem slash_not_mem (token : IsToken text) :
    '/' ∉ toAsciiLowercase text := by
  intro member
  obtain ⟨char, inText, same⟩ := List.mem_map.mp member
  have slash := toAsciiLower_eq_mark (by decide) same
  exact (isTokenChar_spec (token.2.2 char inText)).2 slash

theorem ne_star (token : IsToken text) : toAsciiLowercase text ≠ ['*'] := by
  intro same
  obtain ⟨char, rfl, star⟩ := List.map_eq_singleton_iff.mp same
  have starred := toAsciiLower_eq_mark (by decide) star
  exact token.2.1 (congrArg (fun char => [char]) starred)

end IsToken

theorem slash_inj {left right other otherRight : Str} (absent : '/' ∉ left)
    (absentRight : '/' ∉ right) :
    left ++ '/' :: right = other ++ '/' :: otherRight ↔
      left = other ∧ right = otherRight := by
  rw [List.append_cons_inj_of_notMem absent absentRight]
  simp

/-- The loop compares a range part by part. -/
theorem answerFor_eq {candidate left right : Str} (absent : '/' ∉ left)
    (absentRight : '/' ∉ right) (parts : lower candidate = left ++ '/' :: right) :
    answerFor candidate =
      if left = scittJson.type ∧ right = scittJson.subtype then
        some (mediaText scittJson)
      else if left = json.type ∧ right = json.subtype then some (mediaText json)
      else if (left = ['*'] ∧ right = ['*']) ∨
          (left = json.type ∧ right = ['*']) then
        some (mediaText json)
      else none := by
  have scitt : applicationScittJson = scittJson.type ++
      '/' :: scittJson.subtype := rfl
  have plain : applicationJson = json.type ++ '/' :: json.subtype := rfl
  have any : "*/*".toList = ['*'] ++ '/' :: ['*'] := rfl
  have anyOf : "application/*".toList = json.type ++ '/' :: ['*'] := rfl
  unfold answerFor
  simp only [parts, supportedTypes, List.mem_cons, List.not_mem_nil, or_false,
    scitt, plain, any, anyOf, slash_inj absent absentRight, mediaText]
  split_ifs <;> first | rfl | tauto

theorem answerFor_rangeText {range : MediaRange}
    (isMediaRange : IsMediaRange range) :
    answerFor (rangeText range) = (target range).map mediaText := by
  cases range with
  | any => decide
  | anyOf type =>
      have token : IsToken type := isMediaRange
      have parts : lower (rangeText (.anyOf type)) =
          toAsciiLowercase type ++ '/' :: ['*'] := by
        rw [← token.lower_eq]
        simp [rangeText, lower, OrgResolver.lowerChar]
      have noSubtype : ['*'] ≠ scittJson.subtype ∧ ['*'] ≠ json.subtype := by
        decide
      have found : target (.anyOf type) =
          if toAsciiLowercase type = json.type then some json else none := by
        by_cases application : toAsciiLowercase type = json.type
        · simp [target, supportedMedia, MediaRange.matches?, application]
        · have other : toAsciiLowercase type ≠ scittJson.type := application
          simp [target, supportedMedia, MediaRange.matches?, application, other]
      rw [answerFor_eq token.slash_not_mem (by decide) parts, found]
      simp only [noSubtype, and_false, if_false, token.ne_star, and_true,
        false_or]
      split_ifs <;> rfl
  | exact type subtype =>
      obtain ⟨token, subtoken⟩ := isMediaRange
      have parts : lower (rangeText (.exact type subtype)) =
          toAsciiLowercase type ++ '/' :: toAsciiLowercase subtype := by
        rw [← token.lower_eq, ← subtoken.lower_eq]
        simp [rangeText, lower, OrgResolver.lowerChar]
      have different : json.subtype ≠ scittJson.subtype := by decide
      have sameType : scittJson.type = json.type := rfl
      rw [answerFor_eq token.slash_not_mem subtoken.slash_not_mem parts]
      simp only [subtoken.ne_star, and_false, or_self, if_false, target,
        supportedMedia, List.find?_cons, List.find?_nil, MediaRange.matches?,
        sameType]
      by_cases application : toAsciiLowercase type = json.type
      · by_cases isJson : toAsciiLowercase subtype = json.subtype
        · simp [application, isJson, different]
        · by_cases isScitt : toAsciiLowercase subtype = scittJson.subtype
          · simp [application, isScitt, different.symm]
          · simp [application, isJson, isScitt]
      · simp [application]

/-! ## Negotiation -/

/-- The range of the element names or covers a supported type. -/
def covers (element : Element) : Bool :=
  (target element.range).isSome

/-- The quality of a type under a header. -/
def qualityOf (elements : List Element) (media : MediaType) : ℚ :=
  quality Element.range Element.value elements media

/-- The weight that decides on a type: of its own ranges, else of
`application/*`, else of everything. -/
def decisiveWeight (elements : List Element) (media : MediaType) : Option ℚ :=
  weightUpTo Element.range Element.value elements media 2

/-- The answer is acceptable and of maximal quality, and is missing only where
nothing is acceptable. -/
structure Negotiated (elements : List Element) (answer : Option Str) :
    Prop where
  best : ∀ text ∈ answer, ∃ media ∈ supportedMedia, mediaText media = text ∧
    0 < qualityOf elements media ∧
      ∀ other ∈ supportedMedia, qualityOf elements other ≤ qualityOf elements media
  refused : answer = none → ∀ media ∈ supportedMedia, qualityOf elements media = 0

/-- The heaviest range that covers a supported type has a weight, and if it is
a wildcard, the ranges that are more specific leave JSON a weight and give
SCITT none above it. -/
def HeaviestDecides (elements : List Element) : Prop :=
  elements ≠ [] ∧ ∀ first ∈ foremost heavier covers elements,
    0 < first.value ∧ (first.range.specificity = 2 ∨
      ∃ own ∈ decisiveWeight elements json, 0 < own ∧
        ∀ weight ∈ decisiveWeight elements scittJson, weight ≤ own)

theorem findSome?_eq_bind {α β : Type} (answer : α → Option β)
    (items : List α) :
    items.findSome? answer =
      (items.find? fun item => (answer item).isSome).bind answer := by
  induction items with
  | nil => rfl
  | cons item items induction =>
      rw [List.findSome?_cons, List.find?_cons]
      cases answered : answer item with
      | none => exact induction
      | some found => exact answered.symm

theorem selectContentType_headerText {elements : List Element}
    (nonempty : elements ≠ []) :
    selectContentType (some (headerText elements)) =
      (foremost heavier covers elements).bind fun first =>
        (target first.range).map mediaText := by
  have answers (element : Element) : answerFor (rangeText element.range) =
      (target element.range).map mediaText :=
    answerFor_rangeText element.isMediaRange
  rw [selectContentType, parseAccept_headerText nonempty, List.findSome?_map]
  simp only [Function.comp_def, answers]
  rw [findSome?_eq_bind]
  simp only [Option.isSome_map]
  rw [← find?_insertionSort]
  rfl

section

variable {elements : List Element} {media : MediaType}

theorem covers_of_matches (supported : media ∈ supportedMedia)
    {element : Element} (isMatch : element.range.matches? media = true) :
    covers element = true := by
  rw [covers, target, List.find?_isSome]
  exact ⟨media, supported, isMatch⟩

theorem qualityOf_le (supported : media ∈ supportedMedia) {bound : ℚ}
    (nonneg : 0 ≤ bound)
    (heaviest : ∀ element ∈ elements, covers element = true →
      element.value ≤ bound) :
    qualityOf elements media ≤ bound := by
  rw [qualityOf]
  rcases quality_cases Element.range Element.value elements media with
    none | weighed
  · rwa [none]
  · obtain ⟨element, among, isMatch, weighs⟩ := weighed
    rw [weighs]
    exact heaviest element among (covers_of_matches supported isMatch)

theorem target_spec {range : MediaRange} (found : target range = some media) :
    media ∈ supportedMedia ∧ range.matches? media = true := by
  rw [target] at found
  exact ⟨List.mem_of_find?_eq_some found, by simpa using List.find?_some found⟩

/-- A wildcard stands for JSON. -/
theorem target_wildcard {range : MediaRange} (wildcard : range.specificity ≠ 2)
    (found : target range = some media) : media = json := by
  have first : range.matches? json = true → media = json := by
    intro isMatch
    rw [target, supportedMedia, List.find?_cons, isMatch] at found
    exact (Option.some.inj found).symm
  obtain ⟨supported, isMatch⟩ := target_spec found
  cases range with
  | any => exact first rfl
  | anyOf type =>
      have types : ∀ media ∈ supportedMedia, media.type = json.type := by
        decide
      have sameType := types media supported
      refine first ?_
      simpa [MediaRange.matches?, sameType] using isMatch
  | exact type subtype => exact absurd rfl wildcard

theorem negotiated_some_iff (supported : media ∈ supportedMedia) :
    Negotiated elements (some (mediaText media)) ↔
      0 < qualityOf elements media ∧
        ∀ other ∈ supportedMedia,
          qualityOf elements other ≤ qualityOf elements media := by
  have distinct : ∀ one ∈ supportedMedia, ∀ other ∈ supportedMedia,
      mediaText one = mediaText other → one = other := by decide
  constructor
  · intro negotiated
    obtain ⟨other, otherSupported, same, best⟩ := negotiated.best _ rfl
    rwa [distinct other otherSupported media supported same] at best
  · intro best
    refine ⟨?_, fun none => by cases none⟩
    rintro _ ⟨⟩
    exact ⟨media, supported, rfl, best⟩

theorem qualityOf_eq : qualityOf elements media =
    (decisiveWeight elements media).getD 0 :=
  quality_eq

theorem exists_decisiveWeight_iff :
    (0 < qualityOf elements json ∧
        qualityOf elements scittJson ≤ qualityOf elements json) ↔
      ∃ own ∈ decisiveWeight elements json, 0 < own ∧
        ∀ weight ∈ decisiveWeight elements scittJson, weight ≤ own := by
  rw [qualityOf_eq, qualityOf_eq]
  cases decisiveWeight elements json with
  | none => simp
  | some own =>
      cases decisiveWeight elements scittJson with
      | none => simpa using le_of_lt
      | some weight => simp

end

/-- The answer follows the header exactly where its heaviest range decides. -/
theorem selectContentType_negotiates_iff (elements : List Element) :
    Negotiated elements (selectContentType (some (headerText elements))) ↔
      HeaviestDecides elements := by
  rcases eq_or_ne elements [] with rfl | nonempty
  · have answered : selectContentType (some (headerText [])) =
        some (mediaText json) := rfl
    have unweighted : qualityOf [] json = 0 := quality_of_unmatched (by simp)
    rw [answered, negotiated_some_iff (by decide), unweighted]
    simp [HeaviestDecides]
  · rw [selectContentType_headerText nonempty, HeaviestDecides]
    cases search : foremost heavier covers elements with
    | none =>
        have uncovered := foremost_eq_none_iff.mp search
        refine iff_of_true ⟨by simp, fun _ media supported => ?_⟩
          ⟨nonempty, by simp⟩
        refine quality_of_unmatched fun element among => ?_
        by_contra isMatch
        have covered :=
          covers_of_matches supported (Bool.not_eq_false _ ▸ isMatch)
        rw [uncovered element among] at covered
        cases covered
    | some first =>
        obtain ⟨among, covered⟩ := foremost_mem search
        obtain ⟨media, found⟩ := Option.isSome_iff_exists.mp covered
        obtain ⟨supported, isMatch⟩ := target_spec found
        have heaviest : ∀ element ∈ elements, covers element = true →
            element.value ≤ first.value := fun element inElements covered =>
          show heavier first element from foremost_le search inElements covered
        have bound : ∀ other ∈ supportedMedia,
            qualityOf elements other ≤ first.value := fun other supported =>
          qualityOf_le supported first.value_nonneg heaviest
        simp only [Option.bind_some, found, Option.map_some, Option.mem_def,
          Option.some.injEq, forall_eq', negotiated_some_iff supported]
        by_cases exact : first.range.specificity = 2
        · have weighs : qualityOf elements media = first.value :=
            quality_of_exact among isMatch exact fun other inElements matched =>
              heaviest other inElements (covers_of_matches supported matched)
          rw [weighs]
          exact ⟨fun best => ⟨nonempty, best.1, .inl exact⟩,
            fun decides => ⟨decides.2.1, bound⟩⟩
        · obtain rfl := target_wildcard exact found
          have both : (∀ other ∈ supportedMedia,
              qualityOf elements other ≤ qualityOf elements json) ↔
                qualityOf elements scittJson ≤ qualityOf elements json := by
            simp [supportedMedia]
          rw [both, exists_decisiveWeight_iff]
          constructor
          · intro own
            have positive := (exists_decisiveWeight_iff.mpr own).1
            exact ⟨nonempty, positive.trans_le (bound json supported),
              .inr own⟩
          · rintro ⟨-, -, named | own⟩
            · exact absurd named exact
            · exact own

/-! ## Two headers -/

def qvalueOf (one : Bool) : Qvalue where
  one
  fraction := none
  digits := by simp
  short := by simp
  most := by simp

def exactElement (subtype : Str) (isToken : IsToken subtype) (one : Bool) :
    Element where
  range := .exact "application".toList subtype
  weight := some
    { before := ⟨[], by simp⟩, after := ⟨[], by simp⟩, qvalue := qvalueOf one }
  lead := ⟨[], by simp⟩
  trail := ⟨[], by simp⟩
  isMediaRange := ⟨by decide, isToken⟩

def anyElement : Element where
  range := .any
  weight := none
  lead := ⟨[], by simp⟩
  trail := ⟨[' '], by simp⟩
  isMediaRange := trivial

/-- JSON alone, and excluded. -/
def excludedOnly : List Element :=
  [exactElement "json".toList (by decide) false]

/-- Everything but JSON. -/
def allButJson : List Element :=
  [anyElement, exactElement "json".toList (by decide) false]

theorem allButJson_not_negotiated :
    headerText excludedOnly = "application/json;q=0".toList ∧
      headerText allButJson = "*/* ,application/json;q=0".toList ∧
      (∀ elements ∈ [excludedOnly, allButJson],
        selectContentType (some (headerText elements)) = some applicationJson ∧
          ¬ Negotiated elements
            (selectContentType (some (headerText elements)))) := by
  refine ⟨by decide, by decide, ?_⟩
  have answered : ∀ elements ∈ [excludedOnly, allButJson],
      selectContentType (some (headerText elements)) = some applicationJson ∧
        ¬ 0 < qualityOf elements json := by
    decide +kernel
  intro elements member
  obtain ⟨answer, excluded⟩ := answered elements member
  refine ⟨answer, fun negotiated => ?_⟩
  rw [answer] at negotiated
  exact excluded ((negotiated_some_iff (by decide)).mp negotiated).1

end TrustLayer.ContentNegotiation
