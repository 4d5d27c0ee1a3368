import TrustLayer.Library.LeftmostFirst.Phrases

/-!
# Two-stage matchers

Three rules look ahead or behind, which the patterns of the `regex` crate cannot.
Each is searched for by a broad pattern whose matches are checked afterwards.
-/

namespace TrustLayer.AgentGuard.Firewall

open TrustLayer.Library
open Regex

section

variable [CharTables]

/-! ## The matchers -/

/-- `\d{count}`. -/
def digits (count : Nat) : Regex :=
  between (.single CharTables.isDigit) count count

def hyphen : Regex :=
  .single (· == '-')

def ssnBroad : Regex :=
  all [.wordBoundary, digits 3, hyphen, digits 2, hyphen, digits 4,
    .wordBoundary]

/-- The groups of a match have fixed places. -/
def ssnChecked (matched : Str) : Bool :=
  let area := matched.take 3
  let group := (matched.drop 4).take 2
  let serial := matched.drop 7
  let areaOk :=
    area != "000".toList && area != "666".toList && area.head? != some '9'
  let groupOk := group != "00".toList
  let serialOk := serial != "0000".toList
  areaOk && groupOk && serialOk

def ssnMatches (text : Str) : Bool :=
  (ssnBroad.hits ⟨false, text⟩).any fun hit => ssnChecked hit.1

def digitRun : Regex :=
  plus (.single CharTables.isDigit)

def steuerIdMatches (text : Str) : Bool :=
  (digitRun.findIter text).any fun run => byteLen run == 11

/-- What is asked for. -/
def request : Phrase :=
  .oneOf
    (.all [.word "how", .space, .word "to", .space,
      .oneOf (.word "make")
        [.word "build", .word "assemble", .word "construct"]])
    [.all [.word "step", .optional (.word "s"), .space, .word "to", .space,
        .oneOf (.word "make") [.word "build", .word "assemble"]],
      .all [.word "recipe", .space, .word "for"],
      .all [.word "instruction", .optional (.word "s"), .space, .word "for"]]

def article : Phrase :=
  .oneOf (.all [.word "a", .space]) [.all [.word "an", .space]]

def weapon : Phrase :=
  .oneOf (.word "bomb")
    [.word "explosive", .word "ied",
      .all [.word "pipe", .optional .gap, .word "bomb"],
      .all [.word "nail", .optional .gap, .word "bomb"],
      .all [.word "nerve", .space, .word "agent"],
      .all [.word "chemical", .space, .word "weapon"],
      .all [.word "biological", .space, .word "weapon"],
      .word "firearm",
      .all [.word "untraceable", .space,
        .oneOf (.word "gun") [.word "weapon"]],
      .all [.word "ghost", .space, .word "gun"],
      .word "silencer", .word "suppressor"]

def weaponsPhrase : Phrase :=
  .all [request, .space, .optional article, weapon]

def weaponsBroad : Regex :=
  .seq .wordBoundary weaponsPhrase.toRegex

/-- The target must not go on. -/
def standsAlone : Option Char → Bool
  | some char =>
      !(CharTables.isAlphanumeric char || char == '_' || char == '-')
  | none => true

def weaponsMatches (text : Str) : Bool :=
  (weaponsBroad.hits ⟨false, text⟩).any fun hit => standsAlone hit.2.head?

/-- `matches`, by the id of the rule. -/
def ruleMatches (id text : Str) : Bool :=
  if id = "DJL-PII-001".toList then ssnMatches text
  else if id = "DJL-PII-008".toList then steuerIdMatches text
  else if id = "DJL-HARM-003".toList then weaponsMatches text
  else false

/-! ## The rules -/

/-- A literal. -/
def exactly (text : String) : Regex :=
  all ((text.toList.map fun char other => other == char).map .single)

/-- `\b(?!000|666|9\d{2})\d{3}-(?!00)\d{2}-(?!0000)\d{4}\b`. -/
def ssnRule : List Item :=
  [.part .wordBoundary,
    .notAhead (oneOf (exactly "000") [exactly "666", all [exactly "9", digits 2]]),
    .part (digits 3), .part hyphen, .notAhead (exactly "00"),
    .part (digits 2), .part hyphen, .notAhead (exactly "0000"),
    .part (digits 4), .part .wordBoundary]

/-- Some run of eleven digits, `(?<!\d)\d{11}(?!\d)`. -/
def SteuerIdRule (text : Str) : Prop :=
  ∃ run, MaximalRun CharTables.isDigit text run ∧ run.length = 11

/-- The phrase, and `(?![\w\-])`. -/
def weaponsRule : List Item :=
  [.part weaponsBroad,
    .notAhead (.single fun char => WordClass.isWord char || char == '-')]

end

end TrustLayer.AgentGuard.Firewall
