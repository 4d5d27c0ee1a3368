import TrustLayer.SerdeJson

/-!
# The leaves of a value

Two printers that write the leaves of a value in their own ways, and all else
alike, write the same text when they write each leaf alike.
-/

namespace TrustLayer.SerdeJson

open TrustLayer.Library hiding Json
open TrustLayer.AgentGuard (Json)

/-! ## Leaves -/

section

variable (onText onNumber : Str → Prop)

mutual

/-- Every key and text of a value, and every literal of a number. -/
def AllLeaves : Json → Prop
  | .null | .bool _ => True
  | .number literal => onNumber literal
  | .string text => onText text
  | .array items => AllLeavesOfElements items
  | .object fields => AllLeavesOfFields fields

def AllLeavesOfElements : List Json → Prop
  | [] => True
  | item :: items => AllLeaves item ∧ AllLeavesOfElements items

def AllLeavesOfFields : List (Str × Json) → Prop
  | [] => True
  | (key, value) :: fields =>
      onText key ∧ AllLeaves value ∧ AllLeavesOfFields fields

end

end

section

variable {onText onNumber otherText otherNumber : Str → Prop}

@[simp] theorem allLeaves_array {items : List Json} :
    AllLeaves onText onNumber (.array items) ↔
      ∀ item ∈ items, AllLeaves onText onNumber item := by
  rw [AllLeaves]
  induction items with
  | nil => simp [AllLeavesOfElements]
  | cons item items induction =>
      rw [AllLeavesOfElements, induction, List.forall_mem_cons]

@[simp] theorem allLeaves_object {fields : List (Str × Json)} :
    AllLeaves onText onNumber (.object fields) ↔
      ∀ field ∈ fields,
        onText field.1 ∧ AllLeaves onText onNumber field.2 := by
  rw [AllLeaves]
  induction fields with
  | nil => simp [AllLeavesOfFields]
  | cons field fields induction =>
      rw [AllLeavesOfFields, induction, List.forall_mem_cons, and_assoc]

mutual

theorem AllLeaves.mono (texts : ∀ text, onText text → otherText text)
    (numbers : ∀ literal, onNumber literal → otherNumber literal) :
    (value : Json) → AllLeaves onText onNumber value →
      AllLeaves otherText otherNumber value
  | .null, _ => by simp [AllLeaves]
  | .bool _, _ => by simp [AllLeaves]
  | .number literal, all => by
      rw [AllLeaves] at all ⊢
      exact numbers literal all
  | .string text, all => by
      rw [AllLeaves] at all ⊢
      exact texts text all
  | .array items, all => by
      rw [AllLeaves] at all ⊢
      exact allLeavesOfElements_mono texts numbers items all
  | .object fields, all => by
      rw [AllLeaves] at all ⊢
      exact allLeavesOfFields_mono texts numbers fields all

theorem allLeavesOfElements_mono
    (texts : ∀ text, onText text → otherText text)
    (numbers : ∀ literal, onNumber literal → otherNumber literal) :
    (items : List Json) → AllLeavesOfElements onText onNumber items →
      AllLeavesOfElements otherText otherNumber items
  | [], _ => trivial
  | item :: items, ⟨first, later⟩ =>
      ⟨first.mono texts numbers item,
        allLeavesOfElements_mono texts numbers items later⟩

theorem allLeavesOfFields_mono
    (texts : ∀ text, onText text → otherText text)
    (numbers : ∀ literal, onNumber literal → otherNumber literal) :
    (fields : List (Str × Json)) → AllLeavesOfFields onText onNumber fields →
      AllLeavesOfFields otherText otherNumber fields
  | [], _ => trivial
  | (key, value) :: fields, ⟨first, here, later⟩ =>
      ⟨texts key first, here.mono texts numbers value,
        allLeavesOfFields_mono texts numbers fields later⟩

end

mutual

theorem AllLeaves.and : (value : Json) → AllLeaves onText onNumber value →
    AllLeaves otherText otherNumber value →
    AllLeaves (fun text => onText text ∧ otherText text)
      (fun literal => onNumber literal ∧ otherNumber literal) value
  | .null, _, _ => by simp [AllLeaves]
  | .bool _, _, _ => by simp [AllLeaves]
  | .number _, first, second => by
      rw [AllLeaves] at first second ⊢
      exact ⟨first, second⟩
  | .string _, first, second => by
      rw [AllLeaves] at first second ⊢
      exact ⟨first, second⟩
  | .array items, first, second => by
      rw [AllLeaves] at first second ⊢
      exact allLeavesOfElements_and items first second
  | .object fields, first, second => by
      rw [AllLeaves] at first second ⊢
      exact allLeavesOfFields_and fields first second

theorem allLeavesOfElements_and : (items : List Json) →
    AllLeavesOfElements onText onNumber items →
    AllLeavesOfElements otherText otherNumber items →
    AllLeavesOfElements (fun text => onText text ∧ otherText text)
      (fun literal => onNumber literal ∧ otherNumber literal) items
  | [], _, _ => trivial
  | item :: items, ⟨first, later⟩, ⟨second, behind⟩ =>
      ⟨first.and item second, allLeavesOfElements_and items later behind⟩

theorem allLeavesOfFields_and : (fields : List (Str × Json)) →
    AllLeavesOfFields onText onNumber fields →
    AllLeavesOfFields otherText otherNumber fields →
    AllLeavesOfFields (fun text => onText text ∧ otherText text)
      (fun literal => onNumber literal ∧ otherNumber literal) fields
  | [], _, _ => trivial
  | (_, value) :: fields, ⟨key, first, later⟩, ⟨otherKey, second, behind⟩ =>
      ⟨⟨key, otherKey⟩, first.and value second,
        allLeavesOfFields_and fields later behind⟩

end

end

/-! ## Printers -/

section

variable (string number : Str → Str)

mutual

/-- The compact text of a value, from the texts of its leaves. -/
def printWith : Json → Str
  | .null => "null".toList
  | .bool true => "true".toList
  | .bool false => "false".toList
  | .number literal => number literal
  | .string text => string text
  | .array [] => ['[', ']']
  | .array (item :: items) => '[' :: (printWith item ++ printElementsWith items)
  | .object [] => ['\x7b', '\x7d']
  | .object ((key, value) :: fields) =>
      '\x7b' :: (string key ++ ':' :: (printWith value ++
        printFieldsWith fields))

/-- The elements behind the first. -/
def printElementsWith : List Json → Str
  | [] => [']']
  | item :: items => ',' :: (printWith item ++ printElementsWith items)

/-- The fields behind the first. -/
def printFieldsWith : List (Str × Json) → Str
  | [] => ['\x7d']
  | (key, value) :: fields =>
      ',' :: (string key ++ ':' :: (printWith value ++ printFieldsWith fields))

end

mutual

/-- The value with other literals for its numbers. -/
def renumber : Json → Json
  | .null => .null
  | .bool value => .bool value
  | .number literal => .number (number literal)
  | .string text => .string text
  | .array items => .array (renumberElements items)
  | .object fields => .object (renumberFields fields)

def renumberElements : List Json → List Json
  | [] => []
  | item :: items => renumber item :: renumberElements items

def renumberFields : List (Str × Json) → List (Str × Json)
  | [] => []
  | (key, value) :: fields => (key, renumber value) :: renumberFields fields

end

variable {string number}

theorem renumberFields_eq (fields : List (Str × Json)) :
    renumberFields number fields =
      fields.map fun field => (field.1, renumber number field.2) := by
  induction fields with
  | nil => rfl
  | cons field fields induction =>
      rw [renumberFields, induction, List.map_cons]

mutual

/-- The printer of `to_vec` writes a number by its literal. -/
theorem print_compact_renumber (depth : Nat) : (value : Json) →
    print compact depth (renumber number value) =
      printWith printString number value
  | .null => rfl
  | .bool true => rfl
  | .bool false => rfl
  | .number _ => rfl
  | .string _ => rfl
  | .array [] => rfl
  | .array (item :: items) => by
      simp only [renumber, renumberElements, print, printWith,
        print_compact_renumber (depth + 1) item,
        printElements_compact_renumber depth items]
      rfl
  | .object [] => rfl
  | .object ((key, value) :: fields) => by
      simp only [renumber, renumberFields, print, printWith,
        print_compact_renumber (depth + 1) value,
        printFields_compact_renumber depth fields]
      simp [compact]

theorem printElements_compact_renumber (depth : Nat) : (items : List Json) →
    printElements compact depth (renumberElements number items) =
      printElementsWith printString number items
  | [] => rfl
  | item :: items => by
      simp only [renumberElements, printElements, printElementsWith,
        print_compact_renumber (depth + 1) item,
        printElements_compact_renumber depth items]
      rfl

theorem printFields_compact_renumber (depth : Nat) :
    (fields : List (Str × Json)) →
    printFields compact depth (renumberFields number fields) =
      printFieldsWith printString number fields
  | [] => rfl
  | (key, value) :: fields => by
      simp only [renumberFields, printFields, printFieldsWith,
        print_compact_renumber (depth + 1) value,
        printFields_compact_renumber depth fields]
      simp [compact]

end

mutual

theorem printWith_renumber : (value : Json) →
    printWith string id (renumber number value) = printWith string number value
  | .null => rfl
  | .bool true => rfl
  | .bool false => rfl
  | .number _ => rfl
  | .string _ => rfl
  | .array [] => rfl
  | .array (item :: items) => by
      simp only [renumber, renumberElements, printWith, printWith_renumber item,
        printElementsWith_renumber items]
  | .object [] => rfl
  | .object ((key, value) :: fields) => by
      simp only [renumber, renumberFields, printWith, printWith_renumber value,
        printFieldsWith_renumber fields]

theorem printElementsWith_renumber : (items : List Json) →
    printElementsWith string id (renumberElements number items) =
      printElementsWith string number items
  | [] => rfl
  | item :: items => by
      simp only [renumberElements, printElementsWith, printWith_renumber item,
        printElementsWith_renumber items]

theorem printFieldsWith_renumber : (fields : List (Str × Json)) →
    printFieldsWith string id (renumberFields number fields) =
      printFieldsWith string number fields
  | [] => rfl
  | (key, value) :: fields => by
      simp only [renumberFields, printFieldsWith, printWith_renumber value,
        printFieldsWith_renumber fields]

end

theorem byKey_map (change : Json → Json) (fields : List (Str × Json)) :
    byKey (fields.map fun field => (field.1, change field.2)) =
      (byKey fields).map fun field => (field.1, change field.2) :=
  (List.map_insertionSort (fun left right : Str × Json => left.1 ≤ right.1)
    (fun left right : Str × Json => left.1 ≤ right.1)
    (fun field => (field.1, change field.2)) fields
    fun _ _ _ _ => Iff.rfl).symm

mutual

/-- Numbers have no part in the order. -/
theorem ordered_renumber : (value : Json) →
    ordered (renumber number value) = renumber number (ordered value)
  | .null => rfl
  | .bool _ => rfl
  | .number _ => rfl
  | .string _ => rfl
  | .array items => by
      simp only [renumber, ordered, orderedElements_renumber items]
  | .object fields => by
      simp only [renumber, ordered, orderedFields_renumber fields]
      rw [renumberFields_eq, renumberFields_eq, byKey_map]

theorem orderedElements_renumber : (items : List Json) →
    orderedElements (renumberElements number items) =
      renumberElements number (orderedElements items)
  | [] => rfl
  | item :: items => by
      simp only [renumberElements, orderedElements, ordered_renumber item,
        orderedElements_renumber items]

theorem orderedFields_renumber : (fields : List (Str × Json)) →
    orderedFields (renumberFields number fields) =
      renumberFields number (orderedFields fields)
  | [] => rfl
  | (key, value) :: fields => by
      simp only [renumberFields, orderedFields, ordered_renumber value,
        orderedFields_renumber fields]

end

end

section

variable {onText onNumber : Str → Prop}

mutual

theorem allLeaves_ordered : (value : Json) →
    (AllLeaves onText onNumber (ordered value) ↔
      AllLeaves onText onNumber value)
  | .null => Iff.rfl
  | .bool _ => Iff.rfl
  | .number _ => Iff.rfl
  | .string _ => Iff.rfl
  | .array items => by
      rw [ordered, AllLeaves, AllLeaves]
      exact allLeaves_orderedElements items
  | .object fields => by
      rw [ordered, allLeaves_object]
      have same : ∀ field, field ∈ byKey (orderedFields fields) ↔
          field ∈ orderedFields fields := fun field => (byKey_perm _).mem_iff
      simp only [same]
      rw [← allLeaves_object, AllLeaves, AllLeaves]
      exact allLeaves_orderedFields fields

theorem allLeaves_orderedElements : (items : List Json) →
    (AllLeavesOfElements onText onNumber (orderedElements items) ↔
      AllLeavesOfElements onText onNumber items)
  | [] => Iff.rfl
  | item :: items =>
      and_congr (allLeaves_ordered item) (allLeaves_orderedElements items)

theorem allLeaves_orderedFields : (fields : List (Str × Json)) →
    (AllLeavesOfFields onText onNumber (orderedFields fields) ↔
      AllLeavesOfFields onText onNumber fields)
  | [] => Iff.rfl
  | (_, value) :: fields =>
      and_congr_right fun _ => and_congr (allLeaves_ordered value)
        (allLeaves_orderedFields fields)

end

end

/-! ## Tokens -/

/-- The inside of a string token: a quote stands behind a backslash. -/
inductive TokenBody : Str → Prop where
  | nil : TokenBody []
  | plain {char : Char} {rest : Str} : char ≠ '"' → char ≠ '\\' →
      TokenBody rest → TokenBody (char :: rest)
  | escaped {char : Char} {rest : Str} :
      TokenBody rest → TokenBody ('\\' :: char :: rest)

def Token (text : Str) : Prop :=
  ∃ body, TokenBody body ∧ text = '"' :: (body ++ ['"'])

theorem TokenBody.append {left right : Str} (first : TokenBody left)
    (second : TokenBody right) : TokenBody (left ++ right) := by
  induction first with
  | nil => exact second
  | plain notQuote notBackslash _ induction =>
      exact .plain notQuote notBackslash induction
  | escaped _ induction => exact .escaped induction

theorem TokenBody.flatMap {escape : Char → Str}
    (each : ∀ char, TokenBody (escape char)) (text : Str) :
    TokenBody (text.flatMap escape) := by
  induction text with
  | nil => exact .nil
  | cons char text induction => exact (each char).append induction

theorem TokenBody.append_inj {left right rest other : Str}
    (first : TokenBody left) (second : TokenBody right)
    (same : left ++ '"' :: rest = right ++ '"' :: other) :
    left = right ∧ rest = other := by
  induction first generalizing right with
  | nil =>
      cases second with
      | nil => exact ⟨rfl, (List.cons.inj same).2⟩
      | plain notQuote _ _ => exact absurd (List.cons.inj same).1.symm notQuote
      | escaped _ => exact absurd (List.cons.inj same).1 (by decide)
  | plain notQuote notBackslash _ induction =>
      cases second with
      | nil => exact absurd (List.cons.inj same).1 notQuote
      | plain _ _ later =>
          obtain ⟨rfl, tails⟩ := List.cons.inj same
          obtain ⟨rfl, rests⟩ := induction later tails
          exact ⟨rfl, rests⟩
      | escaped _ => exact absurd (List.cons.inj same).1 notBackslash
  | escaped _ induction =>
      cases second with
      | nil => exact absurd (List.cons.inj same).1 (by decide)
      | plain _ notBackslash _ =>
          exact absurd (List.cons.inj same).1.symm notBackslash
      | escaped later =>
          obtain ⟨-, tail⟩ := List.cons.inj same
          obtain ⟨rfl, tails⟩ := List.cons.inj tail
          obtain ⟨rfl, rests⟩ := induction later tails
          exact ⟨rfl, rests⟩

theorem Token.append_inj {left right rest other : Str} (first : Token left)
    (second : Token right) (same : left ++ rest = right ++ other) :
    left = right ∧ rest = other := by
  obtain ⟨body, isBody, rfl⟩ := first
  obtain ⟨others, areBody, rfl⟩ := second
  have bodies := (List.cons.inj same).2
  simp only [List.append_eq, List.append_assoc, List.singleton_append]
    at bodies
  obtain ⟨rfl, rests⟩ := isBody.append_inj areBody bodies
  exact ⟨rfl, rests⟩

theorem TokenBody.ofPlain {text : Str}
    (plain : ∀ char ∈ text, char ≠ '"' ∧ char ≠ '\\') : TokenBody text := by
  induction text with
  | nil => exact .nil
  | cons char text induction =>
      rw [List.forall_mem_cons] at plain
      exact .plain plain.1.1 plain.1.2 (induction plain.2)

/-- An escape by a code of four digits, three of them hexadecimal at most. -/
theorem TokenBody.code {digit : Char} {second third fourth : Nat}
    (plain : digit ≠ '"' ∧ digit ≠ '\\') (small : second < 16)
    (low : third < 16) (lower : fourth < 16) :
    TokenBody ['\\', 'u', digit, hexDigit second, hexDigit third,
      hexDigit fourth] := by
  have table : ∀ value < 16, hexDigit value ≠ '"' ∧ hexDigit value ≠ '\\' := by
    decide
  refine .escaped (.ofPlain ?_)
  simp only [List.forall_mem_cons, List.not_mem_nil, false_implies,
    implies_true, and_true]
  exact ⟨plain, table _ small, table _ low, table _ lower⟩

theorem escape_tokenBody (char : Char) : TokenBody (escape char) := by
  rcases escape_cases char with ⟨letter, -, same⟩ | ⟨control, same⟩ |
    ⟨notQuote, notBackslash, same⟩
  · rw [same]
    exact .escaped .nil
  · rw [same]
    exact .code (by decide) (by decide : 0 < 16) (by omega) (by omega)
  · rw [same]
    exact .plain notQuote notBackslash .nil

theorem printString_token (text : Str) : Token (printString text) :=
  ⟨text.flatMap escape, .flatMap escape_tokenBody text, rfl⟩

/-! ## Two printers -/

section

variable {string other number digits : Str → Str}

/-- Every text is written as a token. -/
def WritesTokens (string : Str → Str) : Prop :=
  ∀ text, Token (string text)

/-- The text of a number is made of the characters of one. -/
def Numerals (text : Str) : Prop :=
  ∀ char ∈ text, Numeral char

theorem stops_printElementsWith (items : List Json) (rest : Str) :
    Stops Closing (printElementsWith string number items ++ rest) := by
  cases items with
  | nil => exact stops_cons.mpr (by simp [Closing])
  | cons item items => exact stops_cons.mpr (by simp [Closing])

theorem stops_printFieldsWith (fields : List (Str × Json)) (rest : Str) :
    Stops Closing (printFieldsWith string number fields ++ rest) := by
  cases fields with
  | nil => exact stops_cons.mpr (by simp [Closing])
  | cons field fields => exact stops_cons.mpr (by simp [Closing])

/-- The leaves of the value are written alike. -/
abbrev LeavesAlike (string other number digits : Str → Str) : Json → Prop :=
  AllLeaves (fun text => string text = other text)
    fun literal => number literal = digits literal

/-- The numbers of the value are written with the characters of one. -/
abbrev NumbersWritten (number digits : Str → Str) : Json → Prop :=
  AllLeaves (fun _ => True)
    fun literal => Numerals (number literal) ∧ Numerals (digits literal)

mutual

/-- What two printers write alike they write alike leaf by leaf. -/
theorem leavesAlike_of_append (tokens : WritesTokens string)
    (others : WritesTokens other) : (value : Json) →
    NumbersWritten number digits value → {rest behind : Str} →
    Stops Closing rest → Stops Closing behind →
    printWith string number value ++ rest =
      printWith other digits value ++ behind →
    LeavesAlike string other number digits value ∧ rest = behind
  | .null, _, _, _, _, _, same => by
      rw [LeavesAlike, AllLeaves]
      exact ⟨trivial, List.append_cancel_left same⟩
  | .bool true, _, _, _, _, _, same => by
      rw [LeavesAlike, AllLeaves]
      exact ⟨trivial, List.append_cancel_left same⟩
  | .bool false, _, _, _, _, _, same => by
      rw [LeavesAlike, AllLeaves]
      exact ⟨trivial, List.append_cancel_left same⟩
  | .number literal, written, _, _, restStops, behindStops, same => by
      rw [NumbersWritten, AllLeaves] at written
      rw [LeavesAlike, AllLeaves]
      exact append_inj_of_stops
        (fun char member => not_closing_of_numeral (written.1 char member))
        (fun char member => not_closing_of_numeral (written.2 char member))
        restStops behindStops same
  | .string text, _, _, _, _, _, same => by
      rw [LeavesAlike, AllLeaves]
      exact (tokens text).append_inj (others text) same
  | .array [], _, _, _, _, _, same => by
      rw [LeavesAlike, AllLeaves]
      exact ⟨trivial, List.append_cancel_left same⟩
  | .array (item :: items), written, _, _, restStops, behindStops, same => by
      rw [NumbersWritten, AllLeaves, AllLeavesOfElements] at written
      simp only [printWith, List.cons_append, List.append_assoc,
        List.cons.injEq, true_and] at same
      obtain ⟨here, tails⟩ := leavesAlike_of_append tokens others item written.1
        (stops_printElementsWith items _) (stops_printElementsWith items _) same
      obtain ⟨later, rests⟩ := leavesAlikeElements_of_append tokens others items
        written.2 restStops behindStops tails
      rw [LeavesAlike, AllLeaves, AllLeavesOfElements]
      exact ⟨⟨here, later⟩, rests⟩
  | .object [], _, _, _, _, _, same => by
      rw [LeavesAlike, AllLeaves]
      exact ⟨trivial, List.append_cancel_left same⟩
  | .object ((key, value) :: fields), written, _, _, restStops, behindStops,
      same => by
      rw [NumbersWritten, AllLeaves, AllLeavesOfFields] at written
      simp only [printWith, List.cons_append, List.append_assoc,
        List.cons.injEq, true_and] at same
      obtain ⟨keys, values⟩ := (tokens key).append_inj (others key) same
      obtain ⟨here, tails⟩ := leavesAlike_of_append tokens others value
        written.2.1
        (stops_printFieldsWith fields _) (stops_printFieldsWith fields _)
        (List.cons.inj values).2
      obtain ⟨later, rests⟩ := leavesAlikeFields_of_append tokens others fields
        written.2.2 restStops behindStops tails
      rw [LeavesAlike, AllLeaves, AllLeavesOfFields]
      exact ⟨⟨keys, here, later⟩, rests⟩

theorem leavesAlikeElements_of_append (tokens : WritesTokens string)
    (others : WritesTokens other) : (items : List Json) →
    AllLeavesOfElements (fun _ => True)
      (fun literal => Numerals (number literal) ∧ Numerals (digits literal))
      items → {rest behind : Str} →
    Stops Closing rest → Stops Closing behind →
    printElementsWith string number items ++ rest =
      printElementsWith other digits items ++ behind →
    AllLeavesOfElements (fun text => string text = other text)
      (fun literal => number literal = digits literal) items ∧ rest = behind
  | [], _, _, _, _, _, same => ⟨trivial, List.append_cancel_left same⟩
  | item :: items, written, _, _, restStops, behindStops, same => by
      rw [AllLeavesOfElements] at written
      simp only [printElementsWith, List.cons_append, List.append_assoc,
        List.cons.injEq, true_and] at same
      obtain ⟨here, tails⟩ := leavesAlike_of_append tokens others item written.1
        (stops_printElementsWith items _) (stops_printElementsWith items _) same
      obtain ⟨later, rests⟩ := leavesAlikeElements_of_append tokens others items
        written.2 restStops behindStops tails
      exact ⟨⟨here, later⟩, rests⟩

theorem leavesAlikeFields_of_append (tokens : WritesTokens string)
    (others : WritesTokens other) : (fields : List (Str × Json)) →
    AllLeavesOfFields (fun _ => True)
      (fun literal => Numerals (number literal) ∧ Numerals (digits literal))
      fields → {rest behind : Str} →
    Stops Closing rest → Stops Closing behind →
    printFieldsWith string number fields ++ rest =
      printFieldsWith other digits fields ++ behind →
    AllLeavesOfFields (fun text => string text = other text)
      (fun literal => number literal = digits literal) fields ∧ rest = behind
  | [], _, _, _, _, _, same => ⟨trivial, List.append_cancel_left same⟩
  | (key, value) :: fields, written, _, _, restStops, behindStops, same => by
      rw [AllLeavesOfFields] at written
      simp only [printFieldsWith, List.cons_append, List.append_assoc,
        List.cons.injEq, true_and] at same
      obtain ⟨keys, values⟩ := (tokens key).append_inj (others key) same
      obtain ⟨here, tails⟩ := leavesAlike_of_append tokens others value
        written.2.1
        (stops_printFieldsWith fields _) (stops_printFieldsWith fields _)
        (List.cons.inj values).2
      obtain ⟨later, rests⟩ := leavesAlikeFields_of_append tokens others fields
        written.2.2 restStops behindStops tails
      exact ⟨⟨keys, here, later⟩, rests⟩

end

mutual

theorem printWith_of_leavesAlike : (value : Json) →
    LeavesAlike string other number digits value →
    printWith string number value = printWith other digits value
  | .null, _ => rfl
  | .bool true, _ => rfl
  | .bool false, _ => rfl
  | .number _, alike => by
      rw [LeavesAlike, AllLeaves] at alike
      exact alike
  | .string _, alike => by
      rw [LeavesAlike, AllLeaves] at alike
      exact alike
  | .array [], _ => rfl
  | .array (item :: items), alike => by
      rw [LeavesAlike, AllLeaves, AllLeavesOfElements] at alike
      rw [printWith, printWith, printWith_of_leavesAlike item alike.1,
        printElementsWith_of_alike items alike.2]
  | .object [], _ => rfl
  | .object ((key, value) :: fields), alike => by
      rw [LeavesAlike, AllLeaves, AllLeavesOfFields] at alike
      rw [printWith, printWith, alike.1,
        printWith_of_leavesAlike value alike.2.1,
        printFieldsWith_of_alike fields alike.2.2]

theorem printElementsWith_of_alike : (items : List Json) →
    AllLeavesOfElements (fun text => string text = other text)
      (fun literal => number literal = digits literal) items →
    printElementsWith string number items =
      printElementsWith other digits items
  | [], _ => rfl
  | item :: items, ⟨here, later⟩ => by
      rw [printElementsWith, printElementsWith,
        printWith_of_leavesAlike item here,
        printElementsWith_of_alike items later]

theorem printFieldsWith_of_alike : (fields : List (Str × Json)) →
    AllLeavesOfFields (fun text => string text = other text)
      (fun literal => number literal = digits literal) fields →
    printFieldsWith string number fields = printFieldsWith other digits fields
  | [], _ => rfl
  | (key, value) :: fields, ⟨keys, here, later⟩ => by
      rw [printFieldsWith, printFieldsWith, keys,
        printWith_of_leavesAlike value here,
        printFieldsWith_of_alike fields later]

end

/-- Two printers write a value alike exactly when they do so leaf by leaf. -/
theorem printWith_eq_iff (tokens : WritesTokens string)
    (others : WritesTokens other) {value : Json}
    (written : NumbersWritten number digits value) :
    printWith string number value = printWith other digits value ↔
      LeavesAlike string other number digits value := by
  refine ⟨fun same => ?_, printWith_of_leavesAlike value⟩
  have padded : printWith string number value ++ [] =
      printWith other digits value ++ [] := by
    rw [same]
  exact (leavesAlike_of_append tokens others value written stops_nil stops_nil
    padded).1

end

end TrustLayer.SerdeJson
