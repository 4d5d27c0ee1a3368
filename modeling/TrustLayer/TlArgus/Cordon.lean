import TrustLayer.Library.Lines
import TrustLayer.Library.Unicode
import TrustLayer.SerdeJson

/-!
# The Cordon

What a verdict is synthesised from is scanned for raw code first.  The scan
walks the whole JSON value; what it takes for raw code is a heuristic on the
lines of a text and on the names of fields.
-/

namespace TrustLayer.TlArgus

open TrustLayer.AgentGuard
open TrustLayer.Library hiding Json

inductive CordonError where
  | rawCodeLeak
  | invalidSpec (detail : Str)
  deriving DecidableEq

namespace CordonEnforcer

/-! ## The scan -/

/-- Marker and line feed both, so that a sentence with a plus is none. -/
def holdsDiffLines (text : Str) : Bool :=
  ((lines text).any fun line =>
    "+ ".toList.isPrefixOf line || "- ".toList.isPrefixOf line) &&
    text.contains '\n'

section

variable [UnicodeTables]

def namesRawCode (key : Str) : Bool :=
  let lower := toLowercase key
  (contains lower "raw".toList && contains lower "code".toList) ||
    lower == "raw_diff".toList

mutual

/-- `scan_for_raw_code`. -/
def scanForRawCode : Json → Except CordonError Unit
  | .string text =>
      if holdsDiffLines text then .error .rawCodeLeak else .ok ()
  | .array items => scanItems items
  | .object fields => scanFields fields
  | _ => .ok ()

def scanItems : List Json → Except CordonError Unit
  | [] => .ok ()
  | item :: items => do
      scanForRawCode item
      scanItems items

def scanFields : List (Str × Json) → Except CordonError Unit
  | [] => .ok ()
  | (key, value) :: fields => do
      if namesRawCode key then .error .rawCodeLeak
      scanForRawCode value
      scanFields fields

end

/-- `verify_no_raw_code_in_json`. -/
def verifyNoRawCodeInJson (value : Json) : Except CordonError Unit :=
  scanForRawCode value

end

/-! ## What is taken for raw code -/

/-- A value at some depth of another. -/
inductive Inside (part : Json) : Json → Prop where
  | self : Inside part part
  | item {item : Json} {items : List Json} :
      item ∈ items → Inside part item → Inside part (.array items)
  | field {field : Str × Json} {fields : List (Str × Json)} :
      field ∈ fields → Inside part field.2 → Inside part (.object fields)

/-- A changed line has a blank behind its marker, and its text a line feed. -/
def HoldsDiffLines (text : Str) : Prop :=
  (BeginsLine "+ ".toList text ∨ BeginsLine "- ".toList text) ∧ '\n' ∈ text

section

variable [UnicodeTables]

def NamesRawCode (key : Str) : Prop :=
  ("raw".toList <:+: toLowercase key ∧ "code".toList <:+: toLowercase key) ∨
    toLowercase key = "raw_diff".toList

/-- Raw code of a value itself, its parts apart. -/
inductive RawCode : Json → Prop where
  | text {text : Str} : HoldsDiffLines text → RawCode (.string text)
  | key {field : Str × Json} {fields : List (Str × Json)} :
      field ∈ fields → NamesRawCode field.1 → RawCode (.object fields)

def Leaks (value : Json) : Prop :=
  ∃ part, Inside part value ∧ RawCode part

end

/-! ## The scan finds it -/

theorem holdsDiffLines_iff {text : Str} :
    holdsDiffLines text = true ↔ HoldsDiffLines text := by
  have plus : Inline "+ ".toList := by decide
  have minus : Inline "- ".toList := by decide
  rw [HoldsDiffLines, ← prefix_line_iff plus (List.cons_ne_nil _ _),
    ← prefix_line_iff minus (List.cons_ne_nil _ _), ← exists_or, holdsDiffLines]
  simp only [Bool.and_eq_true, List.any_eq_true, Bool.or_eq_true,
    List.isPrefixOf_iff_prefix, List.contains_iff_mem, ← and_or_left]

/-- A scan that reports a leak, and nothing but a leak. -/
def Reports (scan : Except CordonError Unit) (leak : Prop) : Prop :=
  scan = .error .rawCodeLeak ∧ leak ∨ scan = .ok () ∧ ¬ leak

section

variable {first second : Except CordonError Unit} {early late : Prop}

theorem Reports.of_clean (clean : ¬ late) : Reports (.ok ()) late :=
  Or.inr ⟨rfl, clean⟩

theorem Reports.eq_error_iff (reports : Reports first early) :
    first = .error .rawCodeLeak ↔ early := by
  rcases reports with ⟨rfl, leak⟩ | ⟨rfl, clean⟩
  · exact iff_of_true rfl leak
  · exact iff_of_false nofun clean

theorem Reports.andThen (ahead : Reports first early)
    (behind : Reports second late) :
    Reports (first >>= fun _ => second) (early ∨ late) := by
  rcases ahead with ⟨rfl, leak⟩ | ⟨rfl, clean⟩
  · left
    exact ⟨rfl, Or.inl leak⟩
  · rwa [Reports, or_iff_right clean]

end

section

variable [UnicodeTables] {text key : Str}

theorem namesRawCode_iff : namesRawCode key = true ↔ NamesRawCode key := by
  simp only [namesRawCode, NamesRawCode, contains, Bool.or_eq_true,
    Bool.and_eq_true, decide_eq_true_eq, beq_iff_eq]

theorem leaks_string_iff : Leaks (.string text) ↔ HoldsDiffLines text := by
  constructor
  · rintro ⟨part, inside, raw⟩
    cases inside
    cases raw with
    | text holds => exact holds
  · exact fun holds => ⟨_, .self, .text holds⟩

theorem leaks_array_iff {items : List Json} :
    Leaks (.array items) ↔ ∃ item ∈ items, Leaks item := by
  constructor
  · rintro ⟨part, inside, raw⟩
    cases inside with
    | self => cases raw
    | item member inside => exact ⟨_, member, part, inside, raw⟩
  · rintro ⟨item, member, part, inside, raw⟩
    exact ⟨part, .item member inside, raw⟩

theorem leaks_object_iff {fields : List (Str × Json)} :
    Leaks (.object fields) ↔
      ∃ field ∈ fields, NamesRawCode field.1 ∨ Leaks field.2 := by
  constructor
  · rintro ⟨part, inside, raw⟩
    cases inside with
    | self =>
        cases raw with
        | key member names => exact ⟨_, member, Or.inl names⟩
    | field member inside => exact ⟨_, member, Or.inr ⟨part, inside, raw⟩⟩
  · rintro ⟨field, member, names | ⟨part, inside, raw⟩⟩
    · exact ⟨_, .self, .key member names⟩
    · exact ⟨part, .field member inside, raw⟩

mutual

theorem scanForRawCode_reports (value : Json) :
    Reports (scanForRawCode value) (Leaks value) := by
  cases value with
  | null => exact .of_clean (by rintro ⟨part, ⟨⟩, ⟨⟩⟩)
  | bool value => exact .of_clean (by rintro ⟨part, ⟨⟩, ⟨⟩⟩)
  | number literal => exact .of_clean (by rintro ⟨part, ⟨⟩, ⟨⟩⟩)
  | string text =>
      rw [scanForRawCode, leaks_string_iff, ← holdsDiffLines_iff]
      split
      next holds => exact Or.inl ⟨rfl, holds⟩
      next clean => exact .of_clean clean
  | array items =>
      rw [scanForRawCode, leaks_array_iff]
      exact scanItems_reports items
  | object fields =>
      rw [scanForRawCode, leaks_object_iff]
      exact scanFields_reports fields

theorem scanItems_reports (items : List Json) :
    Reports (scanItems items) (∃ item ∈ items, Leaks item) := by
  cases items with
  | nil => exact .of_clean (by simp)
  | cons item items =>
      rw [scanItems, List.exists_mem_cons_iff]
      exact (scanForRawCode_reports item).andThen (scanItems_reports items)

theorem scanFields_reports (fields : List (Str × Json)) :
    Reports (scanFields fields)
      (∃ field ∈ fields, NamesRawCode field.1 ∨ Leaks field.2) := by
  cases fields with
  | nil => exact .of_clean (by simp)
  | cons field fields =>
      obtain ⟨key, value⟩ := field
      have behind :=
        (scanForRawCode_reports value).andThen (scanFields_reports fields)
      rw [scanFields, List.exists_mem_cons_iff, or_assoc]
      split
      next names =>
        exact Or.inl ⟨rfl, Or.inl (namesRawCode_iff.mp names)⟩
      next clean =>
        rw [or_iff_right (mt namesRawCode_iff.mpr clean)]
        exact behind

end

/-- What the Cordon stops. -/
theorem verifyNoRawCodeInJson_eq_error_iff (value : Json) :
    verifyNoRawCodeInJson value = .error .rawCodeLeak ↔ Leaks value :=
  (scanForRawCode_reports value).eq_error_iff

/-! ### A diff without blanks -/

/-- A changed line of a unified diff, the headers of its files apart. -/
def ChangedLine (line : Str) : Prop :=
  ("+".toList <+: line ∧ ¬ "+++".toList <+: line) ∨
    ("-".toList <+: line ∧ ¬ "---".toList <+: line)

def HoldsDiff (text : Str) : Prop :=
  '\n' ∈ text ∧ ∃ line ∈ lines text, ChangedLine line

/-- A name of raw code or of a raw diff, however it is joined. -/
def NamesRaw (key : Str) : Prop :=
  "raw".toList <:+: toLowercase key ∧
    ("code".toList <:+: toLowercase key ∨ "diff".toList <:+: toLowercase key)

inductive CarriesDiff : Json → Prop where
  | text {text : Str} : HoldsDiff text → CarriesDiff (.string text)
  | key {field : Str × Json} {fields : List (Str × Json)} :
      field ∈ fields → HoldsDiff field.1 ∨ NamesRaw field.1 →
        CarriesDiff (.object fields)

/-- No diff is let through, as text or as key. -/
def StopsEveryDiff : Prop :=
  ∀ value part, Inside part value → CarriesDiff part →
    verifyNoRawCodeInJson value = .error .rawCodeLeak

end

/-- The lines of a usual diff have no blank behind the marker. -/
theorem tightDiff_not_stopped :
    ¬ ∃ tables : UnicodeTables, @StopsEveryDiff tables := by
  rintro ⟨tables, stops⟩
  have changed : ChangedLine "-old".toList := by
    unfold ChangedLine
    decide
  have holds : HoldsDiff "@@ -1 +1 @@\n-old\n+new".toList :=
    ⟨by decide, _, by decide, changed⟩
  have stopped := stops _ _ .self (.text holds)
  rw [verifyNoRawCodeInJson, scanForRawCode] at stopped
  revert stopped
  decide

end CordonEnforcer

end TrustLayer.TlArgus
