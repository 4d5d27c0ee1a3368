import TrustLayer.AgentGuard.Hook.Contract
import TrustLayer.Library.Delimited
import TrustLayer.Library.Encoding
import TrustLayer.Library.Json
import Mathlib.Data.Char
import Mathlib.Data.List.Lex
import Mathlib.Data.List.Sort

/-!
# The printers of `serde_json`

The compact and the indented text of a value.  The fields of an object are
printed as they are listed; a `Value` lists them by key.
-/

namespace TrustLayer.SerdeJson

open TrustLayer.Library hiding Json
open TrustLayer.AgentGuard (Json)

/-! ## Texts -/

/-- The characters with a letter of their own behind the backslash. -/
def shortEscapes : List (Char × Char) :=
  [('"', '"'), ('\\', '\\'), ('\x08', 'b'), ('\t', 't'), ('\n', 'n'),
    ('\x0c', 'f'), ('\r', 'r')]

/-- Only quotes, backslashes and control characters are escaped. -/
def escape (char : Char) : Str :=
  match shortEscapes.lookup char with
  | some letter => ['\\', letter]
  | none =>
      if char.toNat < 32 then
        ['\\', 'u', '0', '0', hexDigit (char.toNat / 16),
          hexDigit (char.toNat % 16)]
      else [char]

def printString (text : Str) : Str :=
  '"' :: (text.flatMap escape ++ ['"'])

/-! ## Values -/

/-- What a formatter writes between the elements. -/
structure Layout where
  /-- In front of an element at a depth. -/
  lead : Nat → Str
  colon : Str
  lead_head : ∀ depth, ∀ char ∈ (lead depth).head?, char = '\n'

def compact : Layout where
  lead _ := []
  colon := [':']
  lead_head := by simp

/-- Two spaces for each level. -/
def pretty : Layout where
  lead depth := '\n' :: List.replicate (2 * depth) ' '
  colon := [':', ' ']
  lead_head := by simp

mutual

def print (layout : Layout) (depth : Nat) : Json → Str
  | .null => "null".toList
  | .bool true => "true".toList
  | .bool false => "false".toList
  | .number literal => literal
  | .string text => printString text
  | .array [] => ['[', ']']
  | .array (item :: items) =>
      '[' :: (layout.lead (depth + 1) ++ print layout (depth + 1) item ++
        printElements layout depth items)
  | .object [] => ['\x7b', '\x7d']
  | .object ((key, value) :: fields) =>
      '\x7b' :: (layout.lead (depth + 1) ++ printString key ++ layout.colon ++
        print layout (depth + 1) value ++ printFields layout depth fields)

/-- The elements behind the first. -/
def printElements (layout : Layout) (depth : Nat) : List Json → Str
  | [] => layout.lead depth ++ [']']
  | item :: items =>
      ',' :: (layout.lead (depth + 1) ++ print layout (depth + 1) item ++
        printElements layout depth items)

/-- The fields behind the first. -/
def printFields (layout : Layout) (depth : Nat) : List (Str × Json) → Str
  | [] => layout.lead depth ++ ['\x7d']
  | (key, value) :: fields =>
      ',' :: (layout.lead (depth + 1) ++ printString key ++ layout.colon ++
        print layout (depth + 1) value ++ printFields layout depth fields)

end

def printElement (layout : Layout) (depth : Nat) (item : Json) : Str :=
  layout.lead (depth + 1) ++ print layout (depth + 1) item

def printField (layout : Layout) (depth : Nat) (field : Str × Json) : Str :=
  layout.lead (depth + 1) ++ printString field.1 ++ layout.colon ++
    print layout (depth + 1) field.2

/-- `serde_json::to_vec`. -/
def toVec (value : Json) : List UInt8 :=
  utf8Bytes (print compact 0 value)

/-- `serde_json::to_vec_pretty`. -/
def toVecPretty (value : Json) : List UInt8 :=
  utf8Bytes (print pretty 0 value)

example : print compact 0 (.object [
      ("a".toList, .array [.number "-1".toList, .null]),
      ("b".toList, .string ['é', '"', '\n', '\x01'])]) =
    "\x7b\"a\":[-1,null],\"b\":\"é\\\"\\n\\u0001\"\x7d".toList := by
  decide

example : print pretty 0 (.object [
      ("a".toList, .array [.number "1".toList]), ("b".toList, .array [])]) =
    "\x7b\n  \"a\": [\n    1\n  ],\n  \"b\": []\n\x7d".toList := by
  decide

variable {layout : Layout} {depth : Nat}

theorem printElements_eq (items : List Json) :
    printElements layout depth items =
      printTail (printElement layout depth) ','
        (layout.lead depth ++ [']']) items := by
  induction items with
  | nil => rfl
  | cons item items induction =>
      rw [printElements, printTail, printElement, induction]

theorem printFields_eq (fields : List (Str × Json)) :
    printFields layout depth fields =
      printTail (printField layout depth) ','
        (layout.lead depth ++ ['\x7d']) fields := by
  induction fields with
  | nil => rfl
  | cons field fields induction =>
      rw [printFields, printTail, printField, induction]

theorem print_array (items : List Json) :
    print layout depth (.array items) =
      '[' :: printItems (printElement layout depth) ','
        (layout.lead depth ++ [']']) [']'] items := by
  cases items with
  | nil => rfl
  | cons item items => rw [print, printItems, printElement, printElements_eq]

theorem print_object (fields : List (Str × Json)) :
    print layout depth (.object fields) =
      '\x7b' :: printItems (printField layout depth) ','
        (layout.lead depth ++ ['\x7d']) ['\x7d'] fields := by
  cases fields with
  | nil => rfl
  | cons field fields => rw [print, printItems, printField, printFields_eq]

/-! ## Reading a text off -/

theorem mem_of_lookup {char letter : Char}
    (found : shortEscapes.lookup char = some letter) :
    (char, letter) ∈ shortEscapes := by
  obtain ⟨front, back, same, -⟩ := List.lookup_eq_some_iff.mp found
  rw [same]
  exact List.mem_append_right _ List.mem_cons_self

theorem shortEscapes_letter_inj {left right letter : Char}
    (leftFound : shortEscapes.lookup left = some letter)
    (rightFound : shortEscapes.lookup right = some letter) : left = right := by
  have table : ∀ first ∈ shortEscapes, ∀ second ∈ shortEscapes,
      first.2 = second.2 → first.1 = second.1 := by decide
  exact table _ (mem_of_lookup leftFound) _ (mem_of_lookup rightFound) rfl

theorem shortEscapes_letter_ne {char letter : Char}
    (found : shortEscapes.lookup char = some letter) : letter ≠ 'u' := by
  have table : ∀ entry ∈ shortEscapes, entry.2 ≠ 'u' := by decide
  exact table _ (mem_of_lookup found)

/-- How a character is escaped. -/
theorem escape_cases (char : Char) :
    (∃ letter, shortEscapes.lookup char = some letter ∧
        escape char = ['\\', letter]) ∨
      (char.toNat < 32 ∧ escape char = ['\\', 'u', '0', '0',
        hexDigit (char.toNat / 16), hexDigit (char.toNat % 16)]) ∨
      (char ≠ '"' ∧ char ≠ '\\' ∧ escape char = [char]) := by
  cases found : shortEscapes.lookup char with
  | some letter =>
      left
      exact ⟨letter, rfl, by simp only [escape, found]⟩
  | none =>
      right
      by_cases control : char.toNat < 32
      · left
        constructor
        · exact control
        · simp only [escape, found, if_pos control]
      · right
        refine ⟨?_, ?_, by simp only [escape, found, if_neg control]⟩
        · intro quote
          subst quote
          cases found
        · intro backslash
          subst backslash
          cases found

theorem escape_prefixFree : PrefixFree escape := by
  intro left right rest other same
  rcases escape_cases left with ⟨letter, found, leftIs⟩ | ⟨control, leftIs⟩ |
    ⟨notQuote, notBackslash, leftIs⟩ <;>
  rcases escape_cases right with ⟨otherLetter, otherFound, rightIs⟩ |
    ⟨otherControl, rightIs⟩ | ⟨otherNotQuote, otherNotBackslash, rightIs⟩ <;>
  rw [leftIs, rightIs] at same <;>
  simp only [List.cons_append, List.nil_append, List.cons.injEq, true_and]
    at same
  · obtain ⟨rfl, rests⟩ := same
    exact ⟨shortEscapes_letter_inj found otherFound, rests⟩
  · exact absurd same.1 (shortEscapes_letter_ne found)
  · exact absurd same.1.symm otherNotBackslash
  · exact absurd same.1.symm (shortEscapes_letter_ne otherFound)
  · obtain ⟨high, low, rests⟩ := same
    have sameHigh := hexDigit_inj (by omega) (by omega) high
    have sameLow := hexDigit_inj (by omega) (by omega) low
    constructor
    · apply Char.toNat_inj.mp
      omega
    · exact rests
  · exact absurd same.1.symm otherNotBackslash
  · exact absurd same.1 notBackslash
  · exact absurd same.1 notBackslash
  · exact same

theorem escape_ne_quote (char : Char) (rest other : Str) :
    escape char ++ rest ≠ '"' :: other := by
  rcases escape_cases char with ⟨letter, found, same⟩ | ⟨control, same⟩ |
    ⟨notQuote, notBackslash, same⟩
  · simp [same]
  · simp [same]
  · simp [same, notQuote]

theorem printString_prefixFree : PrefixFree printString := by
  intro left right rest other same
  simp only [printString, List.cons_append, List.append_assoc,
    List.nil_append, List.cons.injEq, true_and] at same
  exact flatMap_append_inj escape_prefixFree escape_ne_quote same

/-- The characters of a number. -/
def Numeral (char : Char) : Prop :=
  isAsciiDigit char = true ∨ char ∈ ['-', '+', '.', 'e', 'E']

/-- What stands behind a value. -/
def Closing (char : Char) : Prop :=
  char ∈ [',', ']', '\x7d', '\n']

theorem not_closing_of_numeral {char : Char} (numeral : Numeral char) :
    ¬ Closing char := by
  intro closing
  have table : ∀ other ∈ [',', ']', '\x7d', '\n'], ¬ Numeral other := by
    simp [Numeral, isAsciiDigit]
  exact table char closing numeral

/-- Behind the last element stands a line feed or the bracket. -/
theorem stops_lead (close : Char) (closing : Closing close) (rest : Str) :
    Stops Closing (layout.lead depth ++ [close] ++ rest) := by
  cases lead : layout.lead depth with
  | nil => exact stops_cons.mpr closing
  | cons first later =>
      have feed := layout.lead_head depth first (by simp [lead])
      rw [feed]
      exact stops_cons.mpr (by simp [Closing])

theorem comma_ne_lead {close : Char} (different : close ≠ ',')
    (rest other : Str) :
    ',' :: rest ≠ layout.lead depth ++ [close] ++ other := by
  intro same
  cases lead : layout.lead depth with
  | nil =>
      rw [lead] at same
      exact different (List.cons.inj same).1.symm
  | cons first later =>
      have feed := layout.lead_head depth first (by simp [lead])
      rw [lead, feed] at same
      exact absurd (List.cons.inj same).1 (by decide)

/-- A text that does not begin with a bracket does not with a lead either. -/
theorem lead_append_ne {text : Str} {close : Char} (feed : close ≠ '\n')
    (opens : ∀ rest other, text ++ rest ≠ close :: other) (rest other : Str) :
    layout.lead depth ++ text ++ rest ≠ [close] ++ other := by
  intro same
  cases lead : layout.lead depth with
  | nil =>
      rw [lead] at same
      exact opens rest other same
  | cons first later =>
      have isFeed := layout.lead_head depth first (by simp [lead])
      rw [lead, isFeed] at same
      exact feed (List.cons.inj same).1.symm

mutual

/-- Every number in a value has a literal made of the characters of one. -/
def WellFormed : Json → Prop
  | .null | .bool _ | .string _ => True
  | .number literal => literal ≠ [] ∧ ∀ char ∈ literal, Numeral char
  | .array items => WellFormedElements items
  | .object fields => WellFormedFields fields

def WellFormedElements : List Json → Prop
  | [] => True
  | item :: items => WellFormed item ∧ WellFormedElements items

def WellFormedFields : List (Str × Json) → Prop
  | [] => True
  | (_, value) :: fields => WellFormed value ∧ WellFormedFields fields

end

@[simp] theorem wellFormed_null : WellFormed .null :=
  trivial

@[simp] theorem wellFormed_bool (value : Bool) : WellFormed (.bool value) :=
  trivial

@[simp] theorem wellFormed_string (text : Str) : WellFormed (.string text) :=
  trivial

@[simp] theorem wellFormed_array {items : List Json} :
    WellFormed (.array items) ↔ ∀ item ∈ items, WellFormed item := by
  change WellFormedElements items ↔ _
  induction items with
  | nil => simp [WellFormedElements]
  | cons item items induction =>
      rw [WellFormedElements, induction, List.forall_mem_cons]

@[simp] theorem wellFormed_object {fields : List (Str × Json)} :
    WellFormed (.object fields) ↔
      ∀ field ∈ fields, WellFormed field.2 := by
  change WellFormedFields fields ↔ _
  induction fields with
  | nil => simp [WellFormedFields]
  | cons field fields induction =>
      rw [WellFormedFields, induction, List.forall_mem_cons]

/-- The kinds of values that the first character tells apart. -/
inductive Shape where
  | null
  | yes
  | no
  | number
  | string
  | array
  | object

def shape : Json → Shape
  | .null => .null
  | .bool true => .yes
  | .bool false => .no
  | .number _ => .number
  | .string _ => .string
  | .array _ => .array
  | .object _ => .object

/-- The kind of value that a character begins. -/
def opening (char : Char) : Shape :=
  if char = 'n' then .null
  else if char = 't' then .yes
  else if char = 'f' then .no
  else if char = '"' then .string
  else if char = '[' then .array
  else if char = '\x7b' then .object
  else .number

theorem opening_of_numeral {char : Char} (numeral : Numeral char) :
    opening char = .number := by
  have other : ∀ opener ∈ ['n', 't', 'f', '"', '[', '\x7b'],
      ¬ Numeral opener := by
    simp [Numeral, isAsciiDigit]
  have different : ∀ opener ∈ ['n', 't', 'f', '"', '[', '\x7b'],
      char ≠ opener := by
    intro opener member same
    exact other opener member (same ▸ numeral)
  simp only [List.mem_cons, List.not_mem_nil, or_false, forall_eq_or_imp,
    forall_eq] at different
  obtain ⟨n, t, f, quote, bracket, brace⟩ := different
  rw [opening, if_neg n, if_neg t, if_neg f, if_neg quote, if_neg bracket,
    if_neg brace]

/-- A value's text begins with a character of its kind, which closes nothing. -/
theorem print_opens {value : Json} (wellFormed : WellFormed value) :
    ∃ first later, print layout depth value = first :: later ∧
      opening first = shape value ∧ ¬ Closing first := by
  cases value with
  | null => exact ⟨'n', "ull".toList, rfl, rfl, by simp [Closing]⟩
  | bool value =>
      cases value with
      | true => exact ⟨'t', "rue".toList, rfl, rfl, by simp [Closing]⟩
      | false => exact ⟨'f', "alse".toList, rfl, rfl, by simp [Closing]⟩
  | number literal =>
      obtain ⟨nonempty, numerals⟩ := wellFormed
      cases literal with
      | nil => exact absurd rfl nonempty
      | cons first later =>
          have numeral := numerals first List.mem_cons_self
          exact ⟨first, later, rfl, opening_of_numeral numeral,
            not_closing_of_numeral numeral⟩
  | string text => exact ⟨'"', _, rfl, rfl, by simp [Closing]⟩
  | array items => exact ⟨'[', _, print_array items, rfl, by simp [Closing]⟩
  | object fields =>
      exact ⟨'\x7b', _, print_object fields, rfl, by simp [Closing]⟩

theorem shape_eq_of_print {left right : Json} {rest other : Str}
    (leftFormed : WellFormed left) (rightFormed : WellFormed right)
    (same : print layout depth left ++ rest =
      print layout depth right ++ other) :
    shape left = shape right := by
  obtain ⟨first, later, leftIs, leftOpens, -⟩ := print_opens leftFormed
  obtain ⟨second, behind, rightIs, rightOpens, -⟩ := print_opens rightFormed
  rw [leftIs, rightIs] at same
  rw [← leftOpens, ← rightOpens, (List.cons.inj same).1]

theorem print_ne_closing {value : Json} (wellFormed : WellFormed value)
    {close : Char} (closing : Closing close) (rest other : Str) :
    print layout depth value ++ rest ≠ close :: other := by
  obtain ⟨first, later, valueIs, -, notClosing⟩ := print_opens wellFormed
  intro same
  rw [valueIs] at same
  exact notClosing ((List.cons.inj same).1 ▸ closing)

/-- A value that can be read off its text. -/
abbrev Readable (layout : Layout) (depth : Nat) (value : Json) : Prop :=
  ReadableAt Closing (print layout depth) WellFormed value

theorem element_readable {item : Json}
    (readable : Readable layout (depth + 1) item) :
    ReadableAt Closing (printElement layout depth) WellFormed item := by
  intro right rest other rightFormed restStops otherStops same
  simp only [printElement, List.append_assoc] at same
  exact readable right rest other rightFormed restStops otherStops
    (List.append_cancel_left same)

theorem field_readable {field : Str × Json}
    (readable : Readable layout (depth + 1) field.2) :
    ReadableAt Closing (printField layout depth)
      (fun other => WellFormed other.2) field := by
  intro right rest other rightFormed restStops otherStops same
  simp only [printField, List.append_assoc] at same
  obtain ⟨keys, behind⟩ := printString_prefixFree _ _ _ _
    (List.append_cancel_left same)
  obtain ⟨values, rests⟩ := readable right.2 rest other rightFormed restStops
    otherStops (List.append_cancel_left behind)
  exact ⟨Prod.ext keys values, rests⟩

theorem array_readable {items : List Json}
    (formed : ∀ item ∈ items, WellFormed item)
    (readable : ∀ item ∈ items, Readable layout (depth + 1) item) :
    Readable layout depth (.array items) := by
  intro right rest other rightFormed restStops otherStops same
  have shapes := shape_eq_of_print (wellFormed_array.mpr formed) rightFormed same
  cases right with
  | array others =>
      have opens : ∀ item rest other, WellFormed item →
          printElement layout depth item ++ rest ≠ [']'] ++ other := by
        intro item rest other good
        apply lead_append_ne (by decide)
        exact print_ne_closing good (by simp [Closing])
      rw [print_array, print_array] at same
      obtain ⟨rfl, rests⟩ := printItems_append_inj
        (show Closing ',' by simp [Closing]) (stops_lead ']' (by simp [Closing]))
        (comma_ne_lead (by decide)) opens
        (fun item member => element_readable (readable item member)) formed
        (wellFormed_array.mp rightFormed) (List.cons.inj same).2
      exact ⟨rfl, rests⟩
  | bool value => cases value <;> cases shapes
  | _ => cases shapes

theorem object_readable {fields : List (Str × Json)}
    (formed : ∀ field ∈ fields, WellFormed field.2)
    (readable : ∀ field ∈ fields, Readable layout (depth + 1) field.2) :
    Readable layout depth (.object fields) := by
  intro right rest other rightFormed restStops otherStops same
  have shapes := shape_eq_of_print (wellFormed_object.mpr formed) rightFormed same
  cases right with
  | object others =>
      have opens : ∀ (field : Str × Json) rest other, WellFormed field.2 →
          printField layout depth field ++ rest ≠ ['\x7d'] ++ other := by
        intro field rest other _
        rw [printField, List.append_assoc, List.append_assoc]
        apply lead_append_ne (by decide)
        simp [printString]
      rw [print_object, print_object] at same
      obtain ⟨rfl, rests⟩ := printItems_append_inj
        (show Closing ',' by simp [Closing]) (stops_lead '\x7d' (by simp [Closing]))
        (comma_ne_lead (by decide)) opens
        (fun field member => field_readable (readable field member)) formed
        (wellFormed_object.mp rightFormed) (List.cons.inj same).2
      exact ⟨rfl, rests⟩
  | bool value => cases value <;> cases shapes
  | _ => cases shapes

mutual

/-- Every well-formed value is read off its text. -/
theorem readable (layout : Layout) (depth : Nat) : (value : Json) →
    WellFormed value → Readable layout depth value
  | .null, formed => by
      intro right rest other rightFormed _ _ same
      have shapes := shape_eq_of_print formed rightFormed same
      cases right with
      | null => exact ⟨rfl, List.append_cancel_left same⟩
      | bool value => cases value <;> cases shapes
      | _ => cases shapes
  | .bool flag, formed => by
      intro right rest other rightFormed _ _ same
      have shapes := shape_eq_of_print formed rightFormed same
      cases right with
      | bool value =>
          cases flag <;> cases value <;> cases shapes <;>
            exact ⟨rfl, List.append_cancel_left same⟩
      | _ => cases flag <;> cases shapes
  | .number literal, formed => by
      intro right rest other rightFormed restStops otherStops same
      have shapes := shape_eq_of_print formed rightFormed same
      cases right with
      | number digits =>
          obtain ⟨rfl, rests⟩ := append_inj_of_stops
            (fun char member => not_closing_of_numeral (formed.2 char member))
            (fun char member =>
              not_closing_of_numeral (rightFormed.2 char member))
            restStops otherStops same
          exact ⟨rfl, rests⟩
      | bool value => cases value <;> cases shapes
      | _ => cases shapes
  | .string text, formed => by
      intro right rest other rightFormed _ _ same
      have shapes := shape_eq_of_print formed rightFormed same
      cases right with
      | string otherText =>
          obtain ⟨rfl, rests⟩ := printString_prefixFree _ _ _ _ same
          exact ⟨rfl, rests⟩
      | bool value => cases value <;> cases shapes
      | _ => cases shapes
  | .array items, formed =>
      array_readable (wellFormed_array.mp formed)
        (elements_readable layout (depth + 1) items
          (wellFormed_array.mp formed))
  | .object fields, formed =>
      object_readable (wellFormed_object.mp formed)
        (fields_readable layout (depth + 1) fields
          (wellFormed_object.mp formed))

theorem elements_readable (layout : Layout) (depth : Nat) :
    (items : List Json) → (∀ item ∈ items, WellFormed item) →
    ∀ item ∈ items, Readable layout depth item
  | [], _ => by simp
  | item :: items, formed =>
      List.forall_mem_cons.mpr
        ⟨readable layout depth item (formed item List.mem_cons_self),
          elements_readable layout depth items fun other member =>
            formed other (List.mem_cons_of_mem _ member)⟩

theorem fields_readable (layout : Layout) (depth : Nat) :
    (fields : List (Str × Json)) → (∀ field ∈ fields, WellFormed field.2) →
    ∀ field ∈ fields, Readable layout depth field.2
  | [], _ => by simp
  | (key, value) :: fields, formed =>
      List.forall_mem_cons.mpr
        ⟨readable layout depth value (formed (key, value) List.mem_cons_self),
          fields_readable layout depth fields fun other member =>
            formed other (List.mem_cons_of_mem _ member)⟩

end

/-- Well-formed values are told apart by what `to_vec` writes for them. -/
theorem toVec_inj {left right : Json} (leftFormed : WellFormed left)
    (rightFormed : WellFormed right) (same : toVec left = toVec right) :
    left = right :=
  (readable compact 0 left leftFormed).inj rightFormed
    (utf8Bytes_injective same)

theorem toVecPretty_inj {left right : Json} (leftFormed : WellFormed left)
    (rightFormed : WellFormed right)
    (same : toVecPretty left = toVecPretty right) : left = right :=
  (readable pretty 0 left leftFormed).inj rightFormed
    (utf8Bytes_injective same)

/-! ## Maps -/

/-- The fields in the order of their keys. -/
def byKey (fields : List (Str × Json)) : List (Str × Json) :=
  fields.insertionSort fun left right => left.1 ≤ right.1

mutual

/-- The value as a `Value` holds it, with every map ordered. -/
def ordered : Json → Json
  | .array items => .array (orderedElements items)
  | .object fields => .object (byKey (orderedFields fields))
  | .null => .null
  | .bool value => .bool value
  | .number literal => .number literal
  | .string text => .string text

def orderedElements : List Json → List Json
  | [] => []
  | item :: items => ordered item :: orderedElements items

def orderedFields : List (Str × Json) → List (Str × Json)
  | [] => []
  | (key, value) :: fields => (key, ordered value) :: orderedFields fields

end

/-- `serde_json::to_vec` of a `Value`. -/
def valueToVec (value : Json) : List UInt8 :=
  toVec (ordered value)

example : valueToVec (.object [("b".toList, .null), ("a".toList, .bool true)]) =
    utf8Bytes "\x7b\"a\":true,\"b\":null\x7d".toList := by
  decide

theorem byKey_perm (fields : List (Str × Json)) :
    (byKey fields).Perm fields :=
  List.perm_insertionSort
    (fun left right : Str × Json => left.1 ≤ right.1) fields

theorem orderedFields_keys (fields : List (Str × Json)) :
    (orderedFields fields).map Prod.fst = fields.map Prod.fst := by
  induction fields with
  | nil => rfl
  | cons field fields induction =>
      rw [orderedFields, List.map_cons, List.map_cons, induction]

/-- Ordering keeps the keys. -/
theorem byKey_keys_perm (fields : List (Str × Json)) :
    ((byKey (orderedFields fields)).map Prod.fst).Perm
      (fields.map Prod.fst) := by
  rw [← orderedFields_keys fields]
  exact (byKey_perm _).map Prod.fst

mutual

theorem wellFormed_ordered : (value : Json) → WellFormed value →
    WellFormed (ordered value)
  | .null, formed => formed
  | .bool _, formed => formed
  | .number _, formed => formed
  | .string _, formed => formed
  | .array items, formed => by
      rw [ordered, wellFormed_array]
      exact wellFormed_orderedElements items (wellFormed_array.mp formed)
  | .object fields, formed => by
      rw [ordered, wellFormed_object]
      intro field member
      exact wellFormed_orderedFields fields (wellFormed_object.mp formed) field
        ((byKey_perm _).subset member)

theorem wellFormed_orderedElements : (items : List Json) →
    (∀ item ∈ items, WellFormed item) →
    ∀ item ∈ orderedElements items, WellFormed item
  | [], _ => by simp [orderedElements]
  | item :: items, formed =>
      List.forall_mem_cons.mpr
        ⟨wellFormed_ordered item (formed item List.mem_cons_self),
          wellFormed_orderedElements items fun other member =>
            formed other (List.mem_cons_of_mem _ member)⟩

theorem wellFormed_orderedFields : (fields : List (Str × Json)) →
    (∀ field ∈ fields, WellFormed field.2) →
    ∀ field ∈ orderedFields fields, WellFormed field.2
  | [], _ => by simp [orderedFields]
  | (key, value) :: fields, formed =>
      List.forall_mem_cons.mpr
        ⟨wellFormed_ordered value (formed (key, value) List.mem_cons_self),
          wellFormed_orderedFields fields fun other member =>
            formed other (List.mem_cons_of_mem _ member)⟩

end

/-- Objects that are written alike have the same keys. -/
theorem keys_perm_of_valueToVec {left right : List (Str × Json)}
    (leftFormed : WellFormed (.object left))
    (rightFormed : WellFormed (.object right))
    (same : valueToVec (.object left) = valueToVec (.object right)) :
    (left.map Prod.fst).Perm (right.map Prod.fst) := by
  have values := toVec_inj (wellFormed_ordered _ leftFormed)
    (wellFormed_ordered _ rightFormed) same
  rw [ordered, ordered] at values
  have fields := Json.object.inj values
  exact (byKey_keys_perm left).symm.trans
    (fields ▸ byKey_keys_perm right)

/-! ### Lengths -/

theorem length_le_printString (text : Str) :
    text.length ≤ (printString text).length := by
  have nonempty : ∀ char, 1 ≤ (escape char).length := by
    intro char
    rcases escape_cases char with ⟨letter, -, same⟩ | ⟨-, same⟩ |
      ⟨-, -, same⟩ <;> simp [same]
  have escaped := length_le_flatMap nonempty text
  simp only [printString, List.length_cons, List.length_append]
  omega

/-- The text of an object is as long as its keys together. -/
theorem keys_le_print (fields : List (Str × Json)) :
    (fields.map fun field => field.1.length).sum ≤
      (print layout depth (.object fields)).length := by
  have tail : (fields.map fun field => field.1.length).sum ≤
      (printFields layout depth fields).length := by
    induction fields with
    | nil => exact Nat.zero_le _
    | cons field fields induction =>
        have key := length_le_printString field.1
        simp only [List.map_cons, List.sum_cons, printFields,
          List.length_cons, List.length_append]
        omega
  cases fields with
  | nil => exact Nat.zero_le _
  | cons field fields =>
      simp only [printFields, print, List.length_cons, List.length_append]
        at tail ⊢
      exact tail

theorem length_le_utf8Bytes (text : Str) :
    text.length ≤ (utf8Bytes text).length :=
  length_le_flatMap (fun char => by
    rw [String.length_utf8EncodeChar]
    exact char.utf8Size_pos) text

theorem keys_le_valueToVec (fields : List (Str × Json)) :
    (fields.map fun field => field.1.length).sum ≤
      (valueToVec (.object fields)).length := by
  have lengths : ∀ entries : List (Str × Json),
      (entries.map fun field => field.1.length) =
        (entries.map Prod.fst).map List.length := by
    simp
  calc (fields.map fun field => field.1.length).sum
      = ((byKey (orderedFields fields)).map
          fun field => field.1.length).sum := by
        rw [lengths, lengths]
        exact ((byKey_keys_perm fields).symm.map List.length).sum_nat
    _ ≤ (print compact 0 (ordered (.object fields))).length := by
        rw [ordered]
        exact keys_le_print _
    _ ≤ (valueToVec (.object fields)).length := length_le_utf8Bytes _

/-! ## Integers -/

/-- The literal of an integer. -/
def decimal : Int → Str
  | .ofNat value => Nat.toDigits 10 value
  | .negSucc value => '-' :: Nat.toDigits 10 (value + 1)

def integer (value : Int) : Json :=
  .number (decimal value)

theorem toDigits_inj {left right : Nat}
    (same : Nat.toDigits 10 left = Nat.toDigits 10 right) : left = right := by
  have values := congrArg (fun digits => Nat.ofDigitChars 10 digits 0) same
  simpa only [Nat.ofDigitChars_ten_toDigits] using values

theorem numeral_of_mem_toDigits {value : Nat} {char : Char}
    (member : char ∈ Nat.toDigits 10 value) : Numeral char := by
  have digit := Nat.isDigit_of_mem_toDigits (by omega) (by omega) member
  simp only [Char.isDigit, Bool.and_eq_true, decide_eq_true_eq] at digit
  left
  simp only [isAsciiDigit, Bool.and_eq_true, decide_eq_true_eq]
  exact digit

theorem minus_not_mem_toDigits (value : Nat) :
    '-' ∉ Nat.toDigits 10 value := by
  intro member
  exact absurd (Nat.isDigit_of_mem_toDigits (by omega) (by omega) member)
    (by decide)

theorem decimal_inj {left right : Int} (same : decimal left = decimal right) :
    left = right := by
  cases left with
  | ofNat left =>
      cases right with
      | ofNat right => rw [toDigits_inj same]
      | negSucc right =>
          apply absurd _ (minus_not_mem_toDigits left)
          simp only [decimal] at same
          rw [same]
          exact List.mem_cons_self
  | negSucc left =>
      cases right with
      | ofNat right =>
          apply absurd _ (minus_not_mem_toDigits right)
          simp only [decimal] at same
          rw [← same]
          exact List.mem_cons_self
      | negSucc right =>
          have digits := toDigits_inj (List.cons.inj same).2
          rw [Nat.succ.inj digits]

theorem integer_inj {left right : Int} (same : integer left = integer right) :
    left = right :=
  decimal_inj (Json.number.inj same)

theorem integer_uint64_inj {left right : UInt64}
    (same : integer left.toNat = integer right.toNat) : left = right :=
  UInt64.toNat_inj.mp (Int.ofNat_inj.mp (integer_inj same))

theorem integer_int64_inj {left right : Int64}
    (same : integer left.toInt = integer right.toInt) : left = right :=
  Int64.toInt_inj.mp (integer_inj same)

@[simp] theorem wellFormed_integer (value : Int) : WellFormed (integer value) := by
  cases value with
  | ofNat value =>
      exact ⟨Nat.toDigits_ne_nil, fun char member =>
        numeral_of_mem_toDigits member⟩
  | negSucc value =>
      constructor
      · exact List.cons_ne_nil _ _
      · intro char member
        rcases List.mem_cons.mp member with rfl | digit
        · right
          exact List.mem_cons_self
        · exact numeral_of_mem_toDigits digit

end TrustLayer.SerdeJson
