import TrustLayer.SerdeJson.Leaves
import TrustLayer.SerdeJson.Reordering
import TrustLayer.ThemisAgents

/-!
# The canonical hash in two languages

The hash of a JSON text without its layout, and the check of the hash that a
bundle carries, in Go and in Rust.
-/

namespace TrustLayer.TlWasm

open TrustLayer.Library hiding Json
open TrustLayer.AgentGuard (Json)
open TrustLayer.SerdeJson
open TrustLayer.ThemisAgents (oneF64)

/-! ## Texts and their trees -/

/-- A character of a string literal, or an escaped surrogate that is not half
of a pair. -/
inductive TextUnit where
  | char (value : Char)
  | surrogate (code : UInt16)
  deriving DecidableEq

/-- What the grammar finds in a text: a number is its literal, and an object
lists its fields as they stand. -/
inductive Syntax where
  | null
  | bool (value : Bool)
  | number (literal : Str)
  | string (units : List TextUnit)
  | array (items : List Syntax)
  | object (fields : List (List TextUnit × Syntax))

mutual

def Syntax.depth : Syntax → Nat
  | .null | .bool _ | .number _ | .string _ => 0
  | .array items => depthOfItems items + 1
  | .object fields => depthOfFields fields + 1

def depthOfItems : List Syntax → Nat
  | [] => 0
  | item :: items => max item.depth (depthOfItems items)

def depthOfFields : List (List TextUnit × Syntax) → Nat
  | [] => 0
  | (_, value) :: fields => max value.depth (depthOfFields fields)

end

/-- The grammar of JSON, and how the two libraries read a floating-point number
and write it. -/
class JsonLibraries where
  tree : (text : Str) → Option Syntax
  /-- `strconv.ParseFloat`; a number out of range has none. -/
  parseFloat : (literal : Str) → Option F64
  formatFloat : F64 → Str
  readF64 : (literal : Str) → Option F64
  writeF64 : F64 → Str

/-- The digest of BLAKE3, in hexadecimal digits. -/
class Blake3Hex where
  blake3Hex : List UInt8 → Str

/-- Of equal keys the last one counts. -/
def lastWins {α : Type} : List (Str × α) → List (Str × α)
  | [] => []
  | (key, value) :: fields =>
      if key ∈ fields.map Prod.fst then lastWins fields
      else (key, value) :: lastWins fields

section

variable (text : List TextUnit → Option Str) (number : Str → Option Str)

mutual

/-- The value of a tree, from the readers of its leaves. -/
def decode : Syntax → Option Json
  | .null => some .null
  | .bool value => some (.bool value)
  | .number literal => (number literal).map .number
  | .string units => (text units).map .string
  | .array items => (decodeItems items).map .array
  | .object fields =>
      (decodeFields fields).map fun fields => .object (lastWins fields)

def decodeItems : List Syntax → Option (List Json)
  | [] => some []
  | item :: items => do return (← decode item) :: (← decodeItems items)

def decodeFields :
    List (List TextUnit × Syntax) → Option (List (Str × Json))
  | [] => some []
  | (key, value) :: fields => do
      return (← text key, ← decode value) :: (← decodeFields fields)

end

end

def rowHash : Str := "row_hash".toList

/-- The bundle without its hash. -/
def withoutRowHash (fields : List (Str × Json)) : Json :=
  .object (fields.filter fun field => field.1 ≠ rowHash)

/-! ## Go -/

namespace Go

inductive GoError where
  | invalidJson
  | invalidBundleJson
  | missingRowHash
  | rowHashNotString
  | notObject
  deriving DecidableEq

def maxNestingDepth : Nat := 10000

/-- A surrogate without its half is read as U+FFFD. -/
def textOf (units : List TextUnit) : Str :=
  units.map fun unit =>
    match unit with
    | .char value => value
    | .surrogate _ => '\ufffd'

/-- The escapes of `json.Marshal`, HTML included. -/
def escape (char : Char) : Str :=
  if char = '"' ∨ char = '\\' then ['\\', char]
  else if char = '\n' then ['\\', 'n']
  else if char = '\r' then ['\\', 'r']
  else if char = '\t' then ['\\', 't']
  else if char.toNat < 32 ∨ char = '<' ∨ char = '>' ∨ char = '&' then
    ['\\', 'u', '0', '0', hexDigit (char.toNat / 16), hexDigit (char.toNat % 16)]
  else if char.toNat = 0x2028 ∨ char.toNat = 0x2029 then
    ['\\', 'u', '2', '0', '2', hexDigit (char.toNat % 16)]
  else [char]

def marshalString (text : Str) : Str :=
  '"' :: (text.flatMap escape ++ ['"'])

section

variable [JsonLibraries]

/-- A number is a `float64`, kept as the text that `json.Marshal` writes. -/
def number (literal : Str) : Option Str :=
  (JsonLibraries.parseFloat literal).map JsonLibraries.formatFloat

/-- What the scanner accepts. -/
def scan (text : Str) : Option Syntax :=
  (JsonLibraries.tree text).filter fun found =>
    decide (found.depth ≤ maxNestingDepth)

/-- `json.Unmarshal` into an `interface{}`. -/
def unmarshal (text : Str) : Option Json :=
  (scan text).bind (decode (fun units => some (textOf units)) number)

/-- `json.Unmarshal` into a map of raw messages, which null leaves empty. -/
def unmarshalRaw (text : Str) : Option (List (Str × Syntax)) :=
  match scan text with
  | some .null => some []
  | some (.object fields) =>
      some (lastWins (fields.map fun field => (textOf field.1, field.2)))
  | _ => none

/-- `json.Unmarshal` into a string, which null leaves empty. -/
def unmarshalString : Syntax → Option Str
  | .null => some []
  | .string units => some (textOf units)
  | _ => none

omit [JsonLibraries] in
/-- The keys are sorted on the way down. -/
def canonicalMarshal (value : Json) : Str :=
  printWith marshalString id (ordered value)

variable [Blake3Hex]

def verifyBundleHash (bundleJson : Str) : Except GoError Bool :=
  match unmarshalRaw bundleJson with
  | none => .error .invalidBundleJson
  | some raw =>
      match raw.lookup rowHash with
      | none => .error .missingRowHash
      | some expected =>
          match unmarshalString expected with
          | none => .error .rowHashNotString
          | some expectedStr =>
              match unmarshal bundleJson with
              | none => .error .invalidBundleJson
              | some (.object fields) =>
                  let canonical := canonicalMarshal (withoutRowHash fields)
                  .ok (Blake3Hex.blake3Hex (utf8Bytes canonical) == expectedStr)
              | some _ => .error .notObject

def computeCanonicalHash (jsonStr : Str) : Except GoError Str :=
  match unmarshal jsonStr with
  | none => .error .invalidJson
  | some value =>
      .ok (Blake3Hex.blake3Hex (utf8Bytes (canonicalMarshal value)))

end

end Go

/-! ## Rust -/

namespace Rust

inductive WasmError where
  | invalidJson
  | expectedJsonObject
  | missingField (field : Str)
  deriving DecidableEq

def recursionLimit : Nat := 128

/-- A surrogate without its half is an error. -/
def textOf (units : List TextUnit) : Option Str :=
  units.mapM fun unit =>
    match unit with
    | .char value => some value
    | .surrogate _ => none

def digitsValue (digits : Str) : Nat :=
  digits.foldl (fun value digit => value * 10 + (digit.toNat - 48)) 0

/-- The integers that are kept as such; `-0` is a float. -/
def isInteger (literal : Str) : Bool :=
  match literal with
  | '-' :: digits =>
      digits.all isAsciiDigit && 0 < digitsValue digits &&
        digitsValue digits ≤ 2 ^ 63
  | digits => digits.all isAsciiDigit && digitsValue digits < 2 ^ 64

section

variable [JsonLibraries]

/-- A number, kept as the text that `to_vec` writes. -/
def number (literal : Str) : Option Str :=
  if isInteger literal then some literal
  else (JsonLibraries.readF64 literal).map JsonLibraries.writeF64

/-- `serde_json::from_str` of a `Value`. -/
def fromStr (text : Str) : Option Json :=
  ((JsonLibraries.tree text).filter fun found =>
    decide (found.depth < recursionLimit)).bind (decode textOf number)

omit [JsonLibraries] in
def canonicalizeJson (value : Json) : Json :=
  ordered value

variable [Blake3Hex]

def verifyBundleHashPure (bundleJson : Str) : Except WasmError Bool :=
  match fromStr bundleJson with
  | none => .error .invalidJson
  | some (.object fields) =>
      match (fields.lookup rowHash).bind Json.asStr with
      | none => .error (.missingField rowHash)
      | some expected =>
          let canonical := canonicalizeJson (withoutRowHash fields)
          .ok (Blake3Hex.blake3Hex (toVec canonical) == expected)
  | some _ => .error .expectedJsonObject

def computeCanonicalHashPure (jsonStr : Str) : Except WasmError Str :=
  match fromStr jsonStr with
  | none => .error .invalidJson
  | some value => .ok (Blake3Hex.blake3Hex (toVec (canonicalizeJson value)))

end

end Rust

/-! ## One tree for both -/

section

variable {text other : List TextUnit → Option Str}
  {number : Str → Option Str}

/-- The text that is kept for a number. -/
def written (number : Str → Option Str) (literal : Str) : Str :=
  (number literal).getD []

theorem lastWins_renumber (change : Str → Str) (fields : List (Str × Json)) :
    lastWins (renumberFields change fields) =
      renumberFields change (lastWins fields) := by
  induction fields with
  | nil => rfl
  | cons field fields induction =>
      have keys : (renumberFields change fields).map Prod.fst =
          fields.map Prod.fst := by
        rw [renumberFields_eq, List.map_map]
        rfl
      rw [renumberFields, lastWins, lastWins, keys, induction]
      split_ifs
      · rfl
      · rw [renumberFields]

theorem lastWins_sublist {α : Type} (fields : List (Str × α)) :
    (lastWins fields).Sublist fields := by
  induction fields with
  | nil => exact .slnil
  | cons field fields induction =>
      rw [lastWins]
      split_ifs
      · exact induction.cons _
      · exact induction.cons_cons _

/-- The number of a leaf is read. -/
abbrev NumbersRead (number : Str → Option Str) : Json → Prop :=
  AllLeaves (fun _ => True) fun literal => (number literal).isSome

theorem decodeItems_cons {item : Syntax} {items : List Syntax} {all : List Json}
    (decoded : decodeItems text number (item :: items) = some all) :
    ∃ value values, decode text number item = some value ∧
      decodeItems text number items = some values ∧ all = value :: values := by
  rw [decodeItems] at decoded
  simp only [Option.bind_eq_bind, Option.bind_eq_some_iff, Option.pure_def,
    Option.some.injEq] at decoded
  obtain ⟨value, read, values, later, rfl⟩ := decoded
  exact ⟨value, values, read, later, rfl⟩

theorem decodeFields_cons {key : List TextUnit} {tree : Syntax}
    {fields : List (List TextUnit × Syntax)} {all : List (Str × Json)}
    (decoded : decodeFields text number ((key, tree) :: fields) = some all) :
    ∃ name value values, text key = some name ∧
      decode text number tree = some value ∧
      decodeFields text number fields = some values ∧
      all = (name, value) :: values := by
  rw [decodeFields] at decoded
  simp only [Option.bind_eq_bind, Option.bind_eq_some_iff, Option.pure_def,
    Option.some.injEq] at decoded
  obtain ⟨name, readKey, value, read, values, later, rfl⟩ := decoded
  exact ⟨name, value, values, readKey, read, later, rfl⟩

mutual

/-- A value is the tree of the literals, with other numbers. -/
theorem decode_literals : (tree : Syntax) → {value : Json} →
    decode text number tree = some value →
    ∃ literals, decode text some tree = some literals ∧
      value = renumber (written number) literals ∧ NumbersRead number literals
  | .null, _, decoded => by
      obtain rfl := Option.some.inj decoded
      exact ⟨.null, rfl, rfl, trivial⟩
  | .bool flag, _, decoded => by
      obtain rfl := Option.some.inj decoded
      exact ⟨.bool flag, rfl, rfl, trivial⟩
  | .number literal, _, decoded => by
      obtain ⟨out, read, rfl⟩ := Option.map_eq_some_iff.mp decoded
      refine ⟨.number literal, rfl, ?_, ?_⟩
      · simp [renumber, written, read]
      · simp [NumbersRead, AllLeaves, read]
  | .string units, _, decoded => by
      obtain ⟨out, read, rfl⟩ := Option.map_eq_some_iff.mp decoded
      exact ⟨.string out, by simp [decode, read], rfl, trivial⟩
  | .array items, _, decoded => by
      obtain ⟨values, read, rfl⟩ := Option.map_eq_some_iff.mp decoded
      obtain ⟨literals, found, rfl, all⟩ := decodeItems_literals items read
      exact ⟨.array literals, by simp [decode, found], rfl, all⟩
  | .object fields, _, decoded => by
      obtain ⟨values, read, rfl⟩ := Option.map_eq_some_iff.mp decoded
      obtain ⟨literals, found, rfl, all⟩ := decodeFields_literals fields read
      refine ⟨.object (lastWins literals), by simp [decode, found], ?_, ?_⟩
      · rw [renumber, lastWins_renumber]
      · rw [NumbersRead, allLeaves_object]
        intro field member
        have whole : NumbersRead number (.object literals) := all
        exact allLeaves_object.mp whole field
          ((lastWins_sublist literals).subset member)

theorem decodeItems_literals : (items : List Syntax) → {values : List Json} →
    decodeItems text number items = some values →
    ∃ literals, decodeItems text some items = some literals ∧
      values = renumberElements (written number) literals ∧
      AllLeavesOfElements (fun _ => True)
        (fun literal => (number literal).isSome) literals
  | [], _, decoded => by
      obtain rfl := Option.some.inj decoded
      exact ⟨[], rfl, rfl, trivial⟩
  | item :: items, _, decoded => by
      obtain ⟨value, values, read, later, rfl⟩ := decodeItems_cons decoded
      obtain ⟨first, found, rfl, here⟩ := decode_literals item read
      obtain ⟨rest, foundRest, rfl, behind⟩ := decodeItems_literals items later
      exact ⟨first :: rest, by simp [decodeItems, found, foundRest], rfl, here,
        behind⟩

theorem decodeFields_literals : (fields : List (List TextUnit × Syntax)) →
    {values : List (Str × Json)} →
    decodeFields text number fields = some values →
    ∃ literals, decodeFields text some fields = some literals ∧
      values = renumberFields (written number) literals ∧
      AllLeavesOfFields (fun _ => True)
        (fun literal => (number literal).isSome) literals
  | [], _, decoded => by
      obtain rfl := Option.some.inj decoded
      exact ⟨[], rfl, rfl, trivial⟩
  | (key, value) :: fields, _, decoded => by
      obtain ⟨name, value, values, readKey, read, later, rfl⟩ :=
        decodeFields_cons decoded
      obtain ⟨first, found, rfl, here⟩ := decode_literals _ read
      obtain ⟨rest, foundRest, rfl, behind⟩ := decodeFields_literals fields later
      exact ⟨(name, first) :: rest,
        by simp [decodeFields, readKey, found, foundRest], rfl, trivial, here,
        behind⟩

end

mutual

/-- A reader of texts that reads more reads the same. -/
theorem decode_mono
    (reads : ∀ units found, text units = some found → other units = some found) :
    (tree : Syntax) → {value : Json} → decode text number tree = some value →
    decode other number tree = some value
  | .null, _, decoded => decoded
  | .bool _, _, decoded => decoded
  | .number _, _, decoded => decoded
  | .string units, _, decoded => by
      obtain ⟨out, read, rfl⟩ := Option.map_eq_some_iff.mp decoded
      simp [decode, reads units out read]
  | .array items, _, decoded => by
      obtain ⟨values, read, rfl⟩ := Option.map_eq_some_iff.mp decoded
      simp [decode, decodeItems_mono reads items read]
  | .object fields, _, decoded => by
      obtain ⟨values, read, rfl⟩ := Option.map_eq_some_iff.mp decoded
      simp [decode, decodeFields_mono reads fields read]

theorem decodeItems_mono
    (reads : ∀ units found, text units = some found → other units = some found) :
    (items : List Syntax) → {values : List Json} →
    decodeItems text number items = some values →
    decodeItems other number items = some values
  | [], _, decoded => decoded
  | item :: items, _, decoded => by
      obtain ⟨value, values, read, later, rfl⟩ := decodeItems_cons decoded
      simp [decodeItems, decode_mono reads item read,
        decodeItems_mono reads items later]

theorem decodeFields_mono
    (reads : ∀ units found, text units = some found → other units = some found) :
    (fields : List (List TextUnit × Syntax)) → {values : List (Str × Json)} →
    decodeFields text number fields = some values →
    decodeFields other number fields = some values
  | [], _, decoded => decoded
  | (key, value) :: fields, _, decoded => by
      obtain ⟨name, value, values, readKey, read, later, rfl⟩ :=
        decodeFields_cons decoded
      simp [decodeFields, reads key name readKey, decode_mono reads _ read,
        decodeFields_mono reads fields later]

end

theorem go_textOf_of_rust {units : List TextUnit} {found : Str}
    (read : Rust.textOf units = some found) : Go.textOf units = found := by
  induction units generalizing found with
  | nil => exact Option.some.inj read
  | cons unit units induction =>
      rw [Rust.textOf, List.mapM_cons] at read
      cases unit with
      | char value =>
          simp only [Option.bind_eq_bind, Option.bind_some,
            Option.bind_eq_some_iff, Option.pure_def,
            Option.some.injEq] at read
          obtain ⟨rest, readRest, rfl⟩ := read
          rw [Go.textOf, List.map_cons, ← induction readRest]
          rfl
      | surrogate code => cases read

end

/-! ## Texts of leaves -/

/-- The characters that Go escapes in its own way. -/
def goOnly : List Char :=
  ['<', '>', '&', '\x08', '\x0c', '\u2028', '\u2029']

/-- Nothing of the text is escaped in Go's own way. -/
def Plain (text : Str) : Prop :=
  ∀ char ∈ text, char ∉ goOnly

theorem go_escape_tokenBody (char : Char) : TokenBody (Go.escape char) := by
  unfold Go.escape
  split_ifs with quoted feed back tab control separator
  · exact .escaped .nil
  · exact .escaped .nil
  · exact .escaped .nil
  · exact .escaped .nil
  · have small : char.toNat < 256 := by
      rcases control with low | rfl | rfl | rfl
      · omega
      all_goals decide
    exact .code (by decide) (by decide : 0 < 16) (by omega) (by omega)
  · exact .code (by decide) (by decide : 0 < 16) (by decide : 2 < 16) (by omega)
  · obtain ⟨notQuote, notBackslash⟩ := not_or.mp quoted
    exact .plain notQuote notBackslash .nil

theorem marshalString_token (text : Str) : Token (Go.marshalString text) :=
  ⟨text.flatMap Go.escape, .flatMap go_escape_tokenBody text, rfl⟩

theorem go_escape_of_not_mem {char : Char} (notGo : char ∉ goOnly) :
    Go.escape char = escape char := by
  simp only [goOnly, List.mem_cons, List.not_mem_nil, or_false, not_or] at notGo
  obtain ⟨less, greater, ampersand, backspace, formFeed, line, paragraph⟩ := notGo
  have lines : ¬ (char.toNat = 0x2028 ∨ char.toNat = 0x2029) := by
    rintro (same | same)
    · exact line (Char.toNat_inj.mp same)
    · exact paragraph (Char.toNat_inj.mp same)
  by_cases short : char ∈ ['"', '\\', '\n', '\r', '\t']
  · have table : ∀ other ∈ ['"', '\\', '\n', '\r', '\t'],
        Go.escape other = escape other := by decide
    exact table char short
  · simp only [List.mem_cons, List.not_mem_nil, or_false, not_or] at short
    obtain ⟨quote, backslash, feed, back, tab⟩ := short
    have none : shortEscapes.lookup char = none := by
      simp [shortEscapes, List.lookup_cons, beq_eq_false_iff_ne.mpr quote,
        beq_eq_false_iff_ne.mpr backslash, beq_eq_false_iff_ne.mpr feed,
        beq_eq_false_iff_ne.mpr back, beq_eq_false_iff_ne.mpr tab,
        beq_eq_false_iff_ne.mpr backspace, beq_eq_false_iff_ne.mpr formFeed]
    simp [Go.escape, escape, none, quote, backslash, feed, back, tab, less,
      greater, ampersand, lines]

/-- What Go escapes in its own way begins another way. -/
theorem go_escape_append_ne {char : Char} (isGo : char ∈ goOnly)
    (rest other : Str) : Go.escape char ++ rest ≠ escape char ++ other := by
  have begins : ∀ special ∈ goOnly,
      Go.escape special = '\\' :: 'u' :: (Go.escape special).drop 2 := by
    decide
  have short : ∀ special ∈ goOnly, (escape special).length ≤ 2 := by decide
  intro same
  rw [begins char isGo] at same
  rcases escape_cases char with ⟨letter, found, isLetter⟩ | ⟨-, isCode⟩ |
    ⟨-, notBackslash, isChar⟩
  · rw [isLetter] at same
    have letters := (List.cons.inj (List.cons.inj same).2).1
    exact shortEscapes_letter_ne found letters.symm
  · have bound := short char isGo
    simp [isCode] at bound
  · rw [isChar] at same
    exact notBackslash (List.cons.inj same).1.symm

theorem marshalString_eq_iff {text : Str} :
    Go.marshalString text = printString text ↔ Plain text := by
  have inner : text.flatMap Go.escape = text.flatMap escape ↔ Plain text := by
    induction text with
    | nil => simp [Plain]
    | cons char text induction =>
        rw [List.flatMap_cons, List.flatMap_cons, Plain, List.forall_mem_cons]
        by_cases isGo : char ∈ goOnly
        · exact iff_of_false (go_escape_append_ne isGo _ _)
            fun plain => plain.1 isGo
        · rw [go_escape_of_not_mem isGo, List.append_cancel_left_eq, induction]
          exact (and_iff_right isGo).symm
  rw [← inner, Go.marshalString, printString]
  simp

/-! ## Fields -/

theorem lookup_renumberFields (change : Str → Str) (key : Str)
    (fields : List (Str × Json)) :
    (renumberFields change fields).lookup key =
      (fields.lookup key).map (renumber change) := by
  induction fields with
  | nil => rfl
  | cons field fields induction =>
      obtain ⟨name, value⟩ := field
      simp only [renumberFields, List.lookup_cons, induction]
      cases key == name <;> rfl

theorem withoutRowHash_renumber (change : Str → Str)
    (fields : List (Str × Json)) :
    withoutRowHash (renumberFields change fields) =
      renumber change (withoutRowHash fields) := by
  rw [withoutRowHash, withoutRowHash, renumber, renumberFields_eq,
    renumberFields_eq, List.filter_map]
  rfl

theorem allLeaves_withoutRowHash {onText onNumber : Str → Prop}
    {fields : List (Str × Json)}
    (all : AllLeaves onText onNumber (.object fields)) :
    AllLeaves onText onNumber (withoutRowHash fields) := by
  rw [withoutRowHash, allLeaves_object]
  intro field member
  exact allLeaves_object.mp all field (List.mem_of_mem_filter member)

/-! ## Texts of values -/

section

variable [JsonLibraries]

/-- The tree of a text that both libraries read, with its own literals. -/
def document (text : Str) : Option Json :=
  (JsonLibraries.tree text).bind (decode Rust.textOf some)

/-- The numbers that the libraries write are made of the characters of one. -/
structure WritesNumerals : Prop where
  formatFloat : ∀ literal number,
    JsonLibraries.parseFloat literal = some number →
      Numerals (JsonLibraries.formatFloat number)
  writeF64 : ∀ literal number, JsonLibraries.readF64 literal = some number →
    Numerals (JsonLibraries.writeF64 number)

/-- The leaves that the two languages write alike. -/
abbrev SameLeaves : Json → Prop :=
  AllLeaves Plain fun literal => Go.number literal = Rust.number literal

theorem rust_fromStr {text : Str} {value : Json}
    (read : Rust.fromStr text = some value) :
    ∃ literals, document text = some literals ∧
      value = renumber (written Rust.number) literals ∧
      NumbersRead Rust.number literals := by
  obtain ⟨tree, found, decoded⟩ := Option.bind_eq_some_iff.mp read
  obtain ⟨literals, same, isValue, all⟩ := decode_literals tree decoded
  refine ⟨literals, ?_, isValue, all⟩
  rw [document, (Option.filter_eq_some_iff.mp found).1]
  exact same

theorem go_unmarshal {text : Str} {value literals : Json}
    (read : Go.unmarshal text = some value)
    (isDocument : document text = some literals) :
    value = renumber (written Go.number) literals ∧
      NumbersRead Go.number literals := by
  obtain ⟨tree, found, decoded⟩ := Option.bind_eq_some_iff.mp read
  obtain ⟨others, same, isValue, all⟩ := decode_literals tree decoded
  rw [document, (Option.filter_eq_some_iff.mp found).1] at isDocument
  have wider : decode (fun units => some (Go.textOf units)) some tree =
      some literals :=
    decode_mono (fun _ _ read => congrArg some (go_textOf_of_rust read)) tree
      isDocument
  obtain rfl := Option.some.inj (wider.symm.trans same)
  exact ⟨isValue, all⟩

theorem go_numerals (writes : WritesNumerals) {literal : Str}
    (read : (Go.number literal).isSome) :
    Numerals (written Go.number literal) := by
  obtain ⟨out, isOut⟩ := Option.isSome_iff_exists.mp read
  obtain ⟨number, parsed, rfl⟩ := Option.map_eq_some_iff.mp isOut
  rw [written, isOut]
  exact writes.formatFloat literal number parsed

omit [JsonLibraries] in
theorem numerals_of_isInteger {literal : Str}
    (integer : Rust.isInteger literal = true) : Numerals literal := by
  unfold Rust.isInteger at integer
  split at integer
  · rename_i digits
    simp only [Bool.and_eq_true, List.all_eq_true] at integer
    intro char member
    rcases List.mem_cons.mp member with rfl | inDigits
    · right
      exact List.mem_cons_self
    · left
      exact integer.1.1 char inDigits
  · simp only [Bool.and_eq_true, List.all_eq_true] at integer
    intro char member
    left
    exact integer.1 char member

theorem rust_numerals (writes : WritesNumerals) {literal : Str}
    (read : (Rust.number literal).isSome) :
    Numerals (written Rust.number literal) := by
  rw [written]
  unfold Rust.number at read ⊢
  split_ifs at read ⊢ with integer
  · exact numerals_of_isInteger integer
  · obtain ⟨out, isOut⟩ := Option.isSome_iff_exists.mp read
    obtain ⟨number, parsed, rfl⟩ := Option.map_eq_some_iff.mp isOut
    rw [isOut]
    exact writes.writeF64 literal number parsed

/-- The two canonical texts of a value are one exactly when its leaves are
written alike. -/
theorem canonical_eq_iff (writes : WritesNumerals) {literals : Json}
    (goReads : NumbersRead Go.number literals)
    (rustReads : NumbersRead Rust.number literals) :
    utf8Bytes (Go.canonicalMarshal (renumber (written Go.number) literals)) =
        toVec (Rust.canonicalizeJson
          (renumber (written Rust.number) literals)) ↔
      SameLeaves literals := by
  have both := goReads.and literals rustReads
  have numerals : NumbersWritten (written Go.number) (written Rust.number)
      (ordered literals) := by
    rw [NumbersWritten, allLeaves_ordered]
    exact both.mono (fun _ _ => trivial) (fun literal reads =>
      ⟨go_numerals writes reads.1, rust_numerals writes reads.2⟩) literals
  rw [Go.canonicalMarshal, Rust.canonicalizeJson, toVec, ordered_renumber,
    ordered_renumber, printWith_renumber, print_compact_renumber,
    utf8Bytes_injective.eq_iff,
    printWith_eq_iff marshalString_token printString_token numerals,
    LeavesAlike, allLeaves_ordered]
  constructor
  · intro alike
    refine (alike.and literals both).mono (fun text same =>
      marshalString_eq_iff.mp same.1) (fun literal same => ?_) literals
    obtain ⟨texts, goRead, rustRead⟩ := same
    obtain ⟨out, isOut⟩ := Option.isSome_iff_exists.mp goRead
    obtain ⟨digits, isDigits⟩ := Option.isSome_iff_exists.mp rustRead
    rw [written, written, isOut, isDigits] at texts
    rw [isOut, isDigits]
    exact congrArg some texts
  · intro same
    refine same.mono (fun text plain => marshalString_eq_iff.mpr plain)
      (fun literal numbers => ?_) literals
    rw [written, written, numbers]

/-! ## The hash of a bundle -/

theorem raw_keys {fields : List (List TextUnit × Syntax)}
    {values : List (Str × Json)}
    (decoded : decodeFields (fun units => some (Go.textOf units)) Go.number
      fields = some values) :
    (fields.map fun field => (Go.textOf field.1, field.2)).map Prod.fst =
      values.map Prod.fst := by
  induction fields generalizing values with
  | nil =>
      obtain rfl := Option.some.inj decoded
      rfl
  | cons field fields induction =>
      obtain ⟨key, tree⟩ := field
      obtain ⟨_, value, later, named, -, readLater, rfl⟩ :=
        decodeFields_cons decoded
      obtain rfl := Option.some.inj named
      rw [List.map_cons, List.map_cons, List.map_cons, induction readLater]

/-- What Go finds among the raw messages is what the value has. -/
theorem lookup_raw {fields : List (List TextUnit × Syntax)}
    {values : List (Str × Json)}
    (decoded : decodeFields (fun units => some (Go.textOf units)) Go.number
      fields = some values) (key : Str) :
    Option.Rel
      (fun raw value =>
        decode (fun units => some (Go.textOf units)) Go.number raw = some value)
      ((lastWins (fields.map fun field =>
        (Go.textOf field.1, field.2))).lookup key)
      ((lastWins values).lookup key) := by
  induction fields generalizing values with
  | nil =>
      obtain rfl := Option.some.inj decoded
      exact .none
  | cons field fields induction =>
      obtain ⟨name, tree⟩ := field
      obtain ⟨_, value, later, named, read, readLater, rfl⟩ :=
        decodeFields_cons decoded
      obtain rfl := Option.some.inj named
      rw [List.map_cons, lastWins, lastWins, raw_keys readLater]
      split_ifs
      · exact induction readLater
      · rw [List.lookup_cons, List.lookup_cons]
        cases key == Go.textOf name with
        | true => exact .some read
        | false => exact induction readLater

/-- Only null and strings are read into a string. -/
theorem unmarshalString_of_decoded {tree : Syntax} {value : Json}
    (decoded : decode (fun units => some (Go.textOf units)) Go.number tree =
      some value) :
    Go.unmarshalString tree =
      match value with
      | .null => some []
      | .string expected => some expected
      | _ => none := by
  cases tree with
  | null | bool flag | string units =>
      obtain rfl := Option.some.inj decoded
      rfl
  | number literal | array items | object fields =>
      obtain ⟨values, -, rfl⟩ := Option.map_eq_some_iff.mp decoded
      rfl

variable [Blake3Hex]

/-- The answer of Go to a bundle that it reads. -/
def goAnswer : Json → Option Bool
  | .object fields =>
      let digest := Blake3Hex.blake3Hex
        (utf8Bytes (Go.canonicalMarshal (withoutRowHash fields)))
      match fields.lookup rowHash with
      | some .null => some (digest == [])
      | some (.string expected) => some (digest == expected)
      | _ => none
  | _ => none

/-- The answer of Rust. -/
def rustAnswer : Json → Option Bool
  | .object fields =>
      let digest := Blake3Hex.blake3Hex
        (toVec (Rust.canonicalizeJson (withoutRowHash fields)))
      ((fields.lookup rowHash).bind Json.asStr).map (digest == ·)
  | _ => none

theorem rust_answer {text : Str} {value : Json}
    (read : Rust.fromStr text = some value) :
    (Rust.verifyBundleHashPure text).toOption = rustAnswer value := by
  rw [Rust.verifyBundleHashPure, read]
  cases value with
  | object fields =>
      simp only [rustAnswer]
      cases (fields.lookup rowHash).bind Json.asStr with
      | none => rfl
      | some expected => rfl
  | _ => rfl

theorem go_answer {text : Str} {value : Json}
    (read : Go.unmarshal text = some value) :
    (Go.verifyBundleHash text).toOption = goAnswer value := by
  obtain ⟨tree, scanned, decoded⟩ := Option.bind_eq_some_iff.mp read
  rw [Go.verifyBundleHash, Go.unmarshalRaw, scanned]
  cases tree with
  | null | bool flag | string units =>
      obtain rfl := Option.some.inj decoded
      rfl
  | number literal | array items =>
      obtain ⟨values, -, rfl⟩ := Option.map_eq_some_iff.mp decoded
      rfl
  | object fields =>
      obtain ⟨values, readFields, rfl⟩ := Option.map_eq_some_iff.mp decoded
      have found := lookup_raw readFields rowHash
      simp only [goAnswer]
      generalize (lastWins values).lookup rowHash = value at found ⊢
      generalize (lastWins (fields.map fun field =>
        (Go.textOf field.1, field.2))).lookup rowHash = message at found ⊢
      cases found with
      | none => rfl
      | @some message value decodedMessage =>
          simp only [unmarshalString_of_decoded decodedMessage, read]
          cases value <;> rfl

theorem go_no_answer {text : Str} (unread : Go.unmarshal text = none) :
    (Go.verifyBundleHash text).toOption = none := by
  rw [Go.verifyBundleHash]
  split
  · rfl
  · split
    · rfl
    · split
      · rfl
      · rw [unread]
        rfl

/-! ## Agreement -/

/-- Both languages give the same digest or none, and the same answer or none. -/
def BundlesAgree (text : Str) : Prop :=
  (Go.computeCanonicalHash text).toOption =
      (Rust.computeCanonicalHashPure text).toOption ∧
    (Go.verifyBundleHash text).toOption =
      (Rust.verifyBundleHashPure text).toOption

omit [Blake3Hex] in
/-- Both libraries read the text, or none does.  A text that they read has
leaves that they write alike, and no null for its hash. -/
structure Portable (text : Str) : Prop where
  read : (Go.unmarshal text).isSome ↔ (Rust.fromStr text).isSome
  leaves : (Rust.fromStr text).isSome → ∀ literals,
    document text = some literals → SameLeaves literals
  rowHash : (Rust.fromStr text).isSome → ∀ literals,
    document text = some literals → literals.get rowHash ≠ some .null

theorem answers_eq_iff (writes : WritesNumerals) {literals : Json}
    (goReads : NumbersRead Go.number literals)
    (rustReads : NumbersRead Rust.number literals)
    (same : SameLeaves literals) :
    goAnswer (renumber (written Go.number) literals) =
        rustAnswer (renumber (written Rust.number) literals) ↔
      literals.get rowHash ≠ some .null := by
  cases literals with
  | object fields =>
      have texts := (canonical_eq_iff writes (allLeaves_withoutRowHash goReads)
        (allLeaves_withoutRowHash rustReads)).mpr (allLeaves_withoutRowHash same)
      simp only [renumber, goAnswer, rustAnswer, lookup_renumberFields, Json.get,
        withoutRowHash_renumber, texts]
      cases fields.lookup rowHash with
      | none => simp
      | some value => cases value <;> simp [renumber, Json.asStr]
  | _ => simp [renumber, goAnswer, rustAnswer, Json.get]

theorem go_computed {text : Str} {value : Json}
    (read : Go.unmarshal text = some value) :
    (Go.computeCanonicalHash text).toOption =
      some (Blake3Hex.blake3Hex (utf8Bytes (Go.canonicalMarshal value))) := by
  rw [Go.computeCanonicalHash, read]
  rfl

theorem rust_computed {text : Str} {value : Json}
    (read : Rust.fromStr text = some value) :
    (Rust.computeCanonicalHashPure text).toOption =
      some (Blake3Hex.blake3Hex (toVec (Rust.canonicalizeJson value))) := by
  rw [Rust.computeCanonicalHashPure, read]
  rfl

theorem go_not_computed {text : Str} (unread : Go.unmarshal text = none) :
    (Go.computeCanonicalHash text).toOption = none := by
  rw [Go.computeCanonicalHash, unread]
  rfl

theorem rust_not_computed {text : Str} (unread : Rust.fromStr text = none) :
    (Rust.computeCanonicalHashPure text).toOption = none ∧
      (Rust.verifyBundleHashPure text).toOption = none := by
  rw [Rust.computeCanonicalHashPure, Rust.verifyBundleHashPure, unread]
  exact ⟨rfl, rfl⟩

/-- The two languages agree exactly on the portable texts. -/
theorem bundlesAgree_iff
    (injective : Function.Injective Blake3Hex.blake3Hex)
    (writes : WritesNumerals) (text : Str) :
    BundlesAgree text ↔ Portable text := by
  cases rust : Rust.fromStr text with
  | none =>
      obtain ⟨noDigest, noAnswer⟩ := rust_not_computed rust
      rw [BundlesAgree, noDigest, noAnswer]
      cases go : Go.unmarshal text with
      | none =>
          exact iff_of_true ⟨go_not_computed go, go_no_answer go⟩
            ⟨by simp [go, rust], by simp [rust], by simp [rust]⟩
      | some goValue =>
          rw [go_computed go]
          exact iff_of_false (by simp) fun portable => by
            simpa [go, rust] using portable.read
  | some rustValue =>
      obtain ⟨literals, isDocument, rfl, rustReads⟩ := rust_fromStr rust
      rw [BundlesAgree, rust_computed rust, rust_answer rust]
      cases go : Go.unmarshal text with
      | none =>
          rw [go_not_computed go]
          exact iff_of_false (by simp) fun portable => by
            simpa [go, rust] using portable.read
      | some goValue =>
          obtain ⟨rfl, goReads⟩ := go_unmarshal go isDocument
          have digests := canonical_eq_iff writes goReads rustReads
          rw [go_computed go, go_answer go, Option.some.injEq,
            injective.eq_iff, digests]
          constructor
          · rintro ⟨same, answers⟩
            have present :=
              (answers_eq_iff writes goReads rustReads same).mp answers
            refine ⟨by simp [go, rust], fun _ others found => ?_,
              fun _ others found => ?_⟩
            · obtain rfl := Option.some.inj (isDocument.symm.trans found)
              exact same
            · obtain rfl := Option.some.inj (isDocument.symm.trans found)
              exact present
          · intro portable
            have read : (Rust.fromStr text).isSome := by simp [rust]
            have same := portable.leaves read literals isDocument
            exact ⟨same, (answers_eq_iff writes goReads rustReads same).mpr
              (portable.rowHash read literals isDocument)⟩

end

/-! ## An integer, and a sign of HTML -/

def integerBundle : Str :=
  "\x7b\"row_hash\":\"\",\"n\":1\x7d".toList

def integerTree : Syntax :=
  .object [(rowHash.map .char, .string []),
    ([.char 'n'], .number "1".toList)]

def lessText : Str := "\"<\"".toList

def lessTree : Syntax := .string [.char '<']

/-- Two texts and the number 1. -/
@[reducible] def sampleLibraries : JsonLibraries where
  tree text :=
    if text = integerBundle then some integerTree
    else if text = lessText then some lessTree
    else none
  parseFloat literal :=
    if literal = "1".toList then some oneF64 else none
  formatFloat _ := "1".toList
  readF64 literal :=
    if literal = "1.0".toList then some oneF64 else none
  writeF64 _ := "1.0".toList

/-- The bytes themselves, in place of a digest. -/
@[reducible] def sampleDigest : Blake3Hex where
  blake3Hex := toHex

section

attribute [local instance] sampleLibraries sampleDigest

theorem sampleLibraries_writes : WritesNumerals where
  formatFloat _ _ _ := by
    show Numerals "1".toList
    simp [Numerals, Numeral, isAsciiDigit]
  writeF64 _ _ _ := by
    show Numerals "1.0".toList
    simp [Numerals, Numeral, isAsciiDigit]

theorem tree_integerBundle :
    JsonLibraries.tree integerBundle = some integerTree :=
  if_pos rfl

theorem tree_lessText : JsonLibraries.tree lessText = some lessTree := by
  have different : lessText ≠ integerBundle := by decide
  exact (if_neg different).trans (if_pos rfl)

def integerValue : Json :=
  .object [(rowHash, .string []), ("n".toList, .number "1".toList)]

theorem integerBundle_read :
    Go.unmarshal integerBundle = some integerValue ∧
      Rust.fromStr integerBundle = some integerValue ∧
        document integerBundle = some integerValue := by
  rw [Go.unmarshal, Go.scan, Rust.fromStr, document, tree_integerBundle]
  exact ⟨rfl, rfl, rfl⟩

theorem integerValue_sameLeaves : SameLeaves integerValue := by
  have hash : ∀ char ∈ rowHash, char ∉ goOnly := by decide
  have name : ∀ char ∈ "n".toList, char ∉ goOnly := by decide
  have empty : Plain [] := nofun
  have numbers : Go.number "1".toList = Rust.number "1".toList := rfl
  exact ⟨hash, empty, name, numbers, trivial⟩

theorem integerBundle_portable : Portable integerBundle := by
  obtain ⟨go, rust, isDocument⟩ := integerBundle_read
  refine ⟨by simp [go, rust], fun _ literals found => ?_,
    fun _ literals found => ?_⟩
  · obtain rfl := Option.some.inj (isDocument.symm.trans found)
    exact integerValue_sameLeaves
  · obtain rfl := Option.some.inj (isDocument.symm.trans found)
    have held : integerValue.get rowHash = some (.string []) := rfl
    rw [held]
    nofun

theorem integerBundle_agrees : BundlesAgree integerBundle :=
  (bundlesAgree_iff toHex_injective sampleLibraries_writes _).mpr
    integerBundle_portable

/-- Go writes a code for the sign. -/
theorem lessText_not_agrees : ¬ ∀ text, BundlesAgree text := by
  intro agree
  have go : Go.unmarshal lessText = some (.string ['<']) := by
    rw [Go.unmarshal, Go.scan, tree_lessText]
    rfl
  have rust : Rust.fromStr lessText = some (.string ['<']) := by
    rw [Rust.fromStr, tree_lessText]
    rfl
  have digests := (agree lessText).1
  rw [go_computed go, rust_computed rust] at digests
  revert digests
  decide

end

/-! ## The row hash

The canonical form of a value stands for all of its orders, and for no other
value.
-/

namespace Rust

theorem canonicalizeJson_canonicalizeJson (value : Json) :
    canonicalizeJson (canonicalizeJson value) = canonicalizeJson value :=
  ordered_ordered value

theorem canonicalizeJson_toVec_eq_iff (left right : Value) :
    toVec (canonicalizeJson left.json) = toVec (canonicalizeJson right.json) ↔
      Reordered left.json right.json :=
  valueToVec_eq_iff left right

variable [JsonLibraries] [Blake3Hex]

/-- The hash that a bundle is to carry. -/
def expectedRowHash (fields : List (Str × Json)) : Str :=
  Blake3Hex.blake3Hex (toVec (canonicalizeJson (withoutRowHash fields)))

theorem verifyBundleHashPure_eq_true_iff (text : Str) :
    verifyBundleHashPure text = .ok true ↔
      ∃ fields, fromStr text = some (.object fields) ∧
        fields.lookup rowHash = some (.string (expectedRowHash fields)) := by
  rw [verifyBundleHashPure]
  cases read : fromStr text with
  | none => simp
  | some value =>
      cases value with
      | object fields =>
          simp only [Option.some.injEq, Json.object.injEq, exists_eq_left']
          cases found : fields.lookup rowHash with
          | none => simp
          | some value =>
              cases value with
              | string expected =>
                  simp only [Option.bind_some, Json.asStr, expectedRowHash,
                    Except.ok.injEq, beq_iff_eq, Option.some.injEq,
                    Json.string.injEq]
                  exact eq_comm
              | _ => simp [Json.asStr]
      | _ => simp

/-- Values have the same canonical text exactly when they differ in the order
of keys, and a bundle is accepted exactly with the hash of that text. -/
theorem canonical_hashing :
    (∀ value, canonicalizeJson (canonicalizeJson value) =
      canonicalizeJson value) ∧
    (∀ left right : Value,
      toVec (canonicalizeJson left.json) = toVec (canonicalizeJson right.json) ↔
        Reordered left.json right.json) ∧
    ∀ text, verifyBundleHashPure text = .ok true ↔
      ∃ fields, fromStr text = some (.object fields) ∧
        fields.lookup rowHash = some (.string (expectedRowHash fields)) :=
  ⟨canonicalizeJson_canonicalizeJson, canonicalizeJson_toVec_eq_iff,
    verifyBundleHashPure_eq_true_iff⟩

end Rust

end TrustLayer.TlWasm
