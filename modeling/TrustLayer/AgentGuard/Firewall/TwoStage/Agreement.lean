import TrustLayer.AgentGuard.Firewall.TwoStage.Ssn
import TrustLayer.Library.CharBoundary

/-!
# Where a matcher is the rule that it replaces

The first stage finds every candidate.  The second stage counts bytes where the
rule counts digits, and asks for letters and numbers where the rule asks for `\w`.
Outside ASCII neither is the same.
-/

namespace TrustLayer.AgentGuard.Firewall

open TrustLayer.Library
open CharTables (isDigit)
open Regex
open WordClass (isWord)

/-- Two tests find something in the same cases. -/
theorem exists_iff_exists_iff {α : Type} {candidate first second : α → Prop} :
    ((∃ item, candidate item ∧ first item) ↔
        ∃ item, candidate item ∧ second item) ↔
      (∃ item, candidate item ∧ first item ∧ second item) ∨
        ((∃ item, candidate item ∧ first item ∧ ¬ second item) ↔
          ∃ item, candidate item ∧ second item ∧ ¬ first item) := by
  have firstSplit : (∃ item, candidate item ∧ first item) ↔
      (∃ item, candidate item ∧ first item ∧ second item) ∨
        ∃ item, candidate item ∧ first item ∧ ¬ second item := by
    rw [← exists_or]
    apply exists_congr
    intro item
    by_cases second item <;> simp [*]
  have secondSplit : (∃ item, candidate item ∧ second item) ↔
      (∃ item, candidate item ∧ first item ∧ second item) ∨
        ∃ item, candidate item ∧ second item ∧ ¬ first item := by
    rw [← exists_or]
    apply exists_congr
    intro item
    by_cases first item <;> simp [*]
  rw [firstSplit, secondSplit]
  generalize (∃ item, candidate item ∧ first item ∧ second item) = both
  by_cases both <;> simp [*]

section

variable [CharTables] {text : Str}

/-! ## Steuer-ID -/

theorem mem_findIter_digitRun {run : Str} :
    run ∈ digitRun.findIter text ↔ MaximalRun isDigit text run := by
  rw [findIter, digitRun, mem_matched_plus]

theorem steuerIdMatches_iff : steuerIdMatches text = true ↔
    ∃ run, MaximalRun isDigit text run ∧ byteLen run = 11 := by
  rw [steuerIdMatches, List.any_eq_true]
  apply exists_congr
  intro run
  rw [mem_findIter_digitRun, beq_iff_eq]

/-- Runs of digits with a character outside ASCII do not decide: a run of eleven
ASCII digits does, or there is one of eleven such digits where there is one of
eleven bytes. -/
def DigitsAreBytes (text : Str) : Prop :=
  (∃ run, MaximalRun isDigit text run ∧ run.length = 11 ∧ IsAscii run) ∨
    ((∃ run, MaximalRun isDigit text run ∧ byteLen run = 11 ∧ ¬ IsAscii run) ↔
      ∃ run, MaximalRun isDigit text run ∧ run.length = 11 ∧ ¬ IsAscii run)

theorem steuerIdMatches_iff_rule :
    (steuerIdMatches text = true ↔ SteuerIdRule text) ↔ DigitsAreBytes text := by
  have both {run : Str} : byteLen run = 11 ∧ run.length = 11 ↔
      run.length = 11 ∧ IsAscii run := by
    rw [← byteLen_eq_length_iff]
    omega
  have bytesOnly {run : Str} : byteLen run = 11 ∧ ¬ run.length = 11 ↔
      byteLen run = 11 ∧ ¬ IsAscii run := by
    rw [← byteLen_eq_length_iff]
    omega
  have digitsOnly {run : Str} : run.length = 11 ∧ ¬ byteLen run = 11 ↔
      run.length = 11 ∧ ¬ IsAscii run := by
    rw [← byteLen_eq_length_iff]
    omega
  rw [steuerIdMatches_iff, SteuerIdRule, exists_iff_exists_iff]
  simp only [both, bytesOnly, digitsOnly]
  rfl

/-! ## Weapons -/

/-- What a phrase begins with. -/
def heads : List Str :=
  ["ho".toList, "st".toList, "re".toList, "in".toList]

theorem separate_weaponsBroad : Separate weaponsBroad := by
  apply @Phrase.separate _ heads
  · decide
  · decide
  · decide

/-- The text behind a phrase somewhere in the text. -/
def BehindPhrase (text behind : Str) : Prop :=
  ∃ matched, weaponsBroad.Occurrence ⟨false, text⟩ matched behind

/-- What the rule refuses next, `[\w\-]`. -/
def goesOn : Option Char → Bool
  | some char => isWord char || char == '-'
  | none => false

theorem weaponsMatches_iff : weaponsMatches text = true ↔
    ∃ behind, BehindPhrase text behind ∧ standsAlone behind.head? = true := by
  rw [weaponsMatches, List.any_eq_true]
  constructor
  · intro ⟨⟨matched, behind⟩, inHits, alone⟩
    have occurrence := separate_weaponsBroad.mem_hits_iff.mp inHits
    exact ⟨behind, ⟨matched, occurrence⟩, alone⟩
  · intro ⟨behind, ⟨matched, occurrence⟩, alone⟩
    refine ⟨(matched, behind), ?_, alone⟩
    exact separate_weaponsBroad.mem_hits_iff.mpr occurrence

theorem found_weaponsRule_iff : Found weaponsRule text ↔
    ∃ behind, BehindPhrase text behind ∧ goesOn behind.head? = false := by
  have ahead {spot : Spot Char} : itemEnds
      [.notAhead (.single fun char => isWord char || char == '-')] spot ≠ [] ↔
        goesOn spot.rest.head? = false := by
    rw [itemEnds_notAhead_ne_nil]
    obtain ⟨behindWord, rest⟩ := spot
    cases rest with
    | nil => exact ⟨fun _ => rfl, fun _ => ⟨rfl, List.cons_ne_nil _ _⟩⟩
    | cons char rest =>
        rw [ends_single]
        have next : goesOn (char :: rest).head? = (isWord char || char == '-') :=
          rfl
        rw [next]
        cases isWord char || char == '-' <;> simp [itemEnds]
  constructor
  · rintro ⟨front, rest, split, found⟩
    obtain ⟨next, member, free⟩ := itemEnds_part_ne_nil.mp found
    obtain ⟨matched, whole, -⟩ := eq_spotBehind_of_mem_ends member
    obtain rfl : rest = matched ++ next.rest := whole
    exact ⟨next.rest, ⟨matched, front, split, next, member, rfl⟩, ahead.mp free⟩
  · rintro ⟨behind, ⟨matched, front, split, next, member, ended⟩, free⟩
    refine ⟨front, matched ++ behind, split, ?_⟩
    rw [← ended] at free
    exact itemEnds_part_ne_nil.mpr ⟨next, member, ahead.mpr free⟩

/-- What stands behind a phrase does not decide where the letters and numbers of
the matcher differ from `\w`: another phrase does, or there is one that only the
matcher accepts where there is one that only the rule does. -/
def LettersAreWords (text : Str) : Prop :=
  (∃ behind, BehindPhrase text behind ∧ standsAlone behind.head? = true ∧
      goesOn behind.head? = false) ∨
    ((∃ behind, BehindPhrase text behind ∧ standsAlone behind.head? = true ∧
        goesOn behind.head? = true) ↔
      ∃ behind, BehindPhrase text behind ∧ goesOn behind.head? = false ∧
        standsAlone behind.head? = false)

theorem weaponsMatches_iff_rule :
    (weaponsMatches text = true ↔ Found weaponsRule text) ↔
      LettersAreWords text := by
  rw [weaponsMatches_iff, found_weaponsRule_iff, exists_iff_exists_iff]
  simp only [Bool.not_eq_true, Bool.not_eq_false]
  rfl

/-! ## All three -/

/-- The search finds each match wherever it is. -/
def HidesNone (pattern : Regex) (text : Str) : Prop :=
  ∀ ⦃matched behind : Str⦄, pattern.Occurrence ⟨false, text⟩ matched behind →
    (matched, behind) ∈ pattern.hits ⟨false, text⟩

theorem hidesNone {pattern : Regex} (separate : Separate pattern) :
    HidesNone pattern text := by
  intro matched behind occurrence
  exact separate.mem_hits_iff.mpr occurrence

/-- The matchers are the rules on a text. -/
structure Replaces (text : Str) : Prop where
  ssn : ssnMatches text = true ↔ Found ssnRule text
  steuerId : steuerIdMatches text = true ↔ SteuerIdRule text
  weapons : weaponsMatches text = true ↔ Found weaponsRule text
  allNumbers : HidesNone ssnBroad text
  allRuns : ∀ run, MaximalRun isDigit text run → run ∈ digitRun.findIter text
  allPhrases : HidesNone weaponsBroad text

theorem replaces_iff : Replaces text ↔
    DigitsAreBytes text ∧ LettersAreWords text := by
  constructor
  · intro replaces
    exact ⟨steuerIdMatches_iff_rule.mp replaces.steuerId,
      weaponsMatches_iff_rule.mp replaces.weapons⟩
  · intro ⟨digits, letters⟩
    exact
      { ssn := ssnMatches_iff
        steuerId := steuerIdMatches_iff_rule.mpr digits
        weapons := weaponsMatches_iff_rule.mpr letters
        allNumbers := hidesNone separate_ssnBroad
        allRuns := fun _ => mem_findIter_digitRun.mpr
        allPhrases := hidesNone separate_weaponsBroad }

/-- In ASCII nothing differs. -/
theorem replaces_of_ascii (ascii : IsAscii text) : Replaces text := by
  apply replaces_iff.mpr
  constructor
  · have inAscii {run : Str} (maximal : MaximalRun isDigit text run) :
        IsAscii run := by
      obtain ⟨front, behind, rfl, -⟩ := maximal
      exact fun char inside => ascii char (by simp [inside])
    right
    constructor
    · rintro ⟨run, maximal, -, wide⟩
      exact absurd (inAscii maximal) wide
    · rintro ⟨run, maximal, -, wide⟩
      exact absurd (inAscii maximal) wide
  · have same {behind : Str} (phrase : BehindPhrase text behind) :
        standsAlone behind.head? = !goesOn behind.head? := by
      obtain ⟨matched, front, split, -⟩ := phrase
      cases behind with
      | nil => rfl
      | cons char behind =>
          have whole : text = front ++ (matched ++ char :: behind) := split
          have narrow : char.toNat < 128 := ascii char (by rw [whole]; simp)
          rw [List.head?_cons, standsAlone, goesOn,
            CharTables.isAlphanumeric_ascii char narrow,
            CharTables.isWord_ascii char narrow]
    right
    constructor
    · rintro ⟨behind, phrase, alone, further⟩
      rw [same phrase, further] at alone
      cases alone
    · rintro ⟨behind, phrase, free, stuck⟩
      rw [same phrase, free] at stuck
      cases stuck

/-- A rule holds of a text, by its id. -/
inductive RuleHolds (text : Str) : Str → Prop where
  | ssn (found : Found ssnRule text) : RuleHolds text "DJL-PII-001".toList
  | steuerId (found : SteuerIdRule text) : RuleHolds text "DJL-PII-008".toList
  | weapons (found : Found weaponsRule text) : RuleHolds text "DJL-HARM-003".toList

theorem ruleMatches_iff {id : Str} (replaces : Replaces text) :
    ruleMatches id text = true ↔ RuleHolds text id := by
  rw [ruleMatches]
  constructor
  · intro found
    split_ifs at found with ssn steuerId weapons
    · rw [ssn]
      exact .ssn (replaces.ssn.mp found)
    · rw [steuerId]
      exact .steuerId (replaces.steuerId.mp found)
    · rw [weapons]
      exact .weapons (replaces.weapons.mp found)
  · intro holds
    cases holds with
    | ssn found => exact replaces.ssn.mpr found
    | steuerId found => exact replaces.steuerId.mpr found
    | weapons found => exact replaces.weapons.mpr found

end

/-! ## Digits of two bytes -/

/-- The digits from U+0660 to U+0669. -/
def isArabicDigit (char : Char) : Bool :=
  0x660 ≤ char.toNat && char.toNat ≤ 0x669

/-- The letters and digits of the tables that are not in ASCII. -/
def isWide (char : Char) : Bool :=
  char == 'ſ' || char == '\u212A' || isArabicDigit char

theorem isWide_ascii {char : Char} (narrow : char.toNat < 128) :
    isWide char = false := by
  rw [← Bool.not_eq_true, isWide, isArabicDigit]
  intro wide
  rw [Bool.or_eq_true, Bool.or_eq_true, beq_iff_eq, beq_iff_eq] at wide
  rcases wide with (rfl | rfl) | digit
  · revert narrow
    decide
  · revert narrow
    decide
  · simp at digit
    omega

/-- Tables with these digits. -/
@[reducible]
def arabicDigits : CharTables where
  isWord char := isAsciiAlphanumeric char || char == '_' || isWide char
  isDigit char := isAsciiDigit char || isArabicDigit char
  isAlphanumeric char := isAsciiAlphanumeric char || isWide char
  isWord_ascii char narrow := by rw [isWide_ascii narrow, Bool.or_false]
  isDigit_ascii char narrow := by
    have wide := isWide_ascii narrow
    rw [isWide, Bool.or_eq_false_iff] at wide
    rw [wide.2, Bool.or_false]
  isAlphanumeric_ascii char narrow := by rw [isWide_ascii narrow, Bool.or_false]
  isWord_of_isDigit char digit := by
    rw [Bool.or_eq_true] at digit
    rcases digit with ascii | arabic
    · rw [isAsciiAlphanumeric, ascii, Bool.or_true]
      rfl
    · rw [isWide, arabic, Bool.or_true, Bool.or_true]
  isWord_folded := by decide

/-- Eleven digits, of two bytes each. -/
theorem not_replaces_twoBytes :
    ¬ @Replaces arabicDigits (List.replicate 11 '٥') := by
  intro replaces
  have rule : @SteuerIdRule arabicDigits (List.replicate 11 '٥') := by
    refine ⟨List.replicate 11 '٥', ⟨[], [], rfl, nofun, ?_, nofun, nofun⟩, rfl⟩
    intro char inside
    rw [List.eq_of_mem_replicate inside]
    decide
  have found := (@Replaces.steuerId arabicDigits _ replaces).mpr rule
  revert found
  decide

end TrustLayer.AgentGuard.Firewall
