import TrustLayer.Library.Text

/-!
# Regular expressions with look-around assertions

The fragment of the `regex` syntax that the rule tables use: classes,
concatenation, alternation, repetition, `\b` and `$`.  Matching is a
backtracking search with a continuation; only the existence of a match is
observed, so the order of the branches is immaterial.
-/

namespace TrustLayer.Library

/-- `\w`, exact on the characters up to U+00FF. -/
def isWordChar (char : Char) : Bool :=
  let code := char.toNat
  isAsciiAlphanumeric char || char == '_' || code == 0xAA || code == 0xB5 ||
    code == 0xBA ||
    (0xC0 ≤ code && code ≤ 0xFF && code != 0xD7 && code != 0xF7)

inductive Regex where
  | empty
  | single (accepts : Char → Bool)
  | seq (first second : Regex)
  | alt (left right : Regex)
  | star (body : Regex)
  | wordBoundary
  | textEnd

namespace Regex

/-- What is left to match: the previous character and the remaining text. -/
abbrev Continuation := Option Char → Str → Bool

/-- Repeat `body` as long as it consumes something, shortest first. -/
def repeatFrom (body : Option Char → Str → Continuation → Bool) :
    Nat → Option Char → Str → Continuation → Bool
  | 0, previous, text, next => next previous text
  | limit + 1, previous, text, next =>
      next previous text ||
        body previous text fun previous' text' =>
          decide (text'.length < text.length) &&
            repeatFrom body limit previous' text' next

/-- Match at the front of the text, then continue with `next`. -/
def step : Regex → Option Char → Str → Continuation → Bool
  | .empty, previous, text, next => next previous text
  | .single _, _, [], _ => false
  | .single accepts, _, head :: rest, next =>
      accepts head && next (some head) rest
  | .seq first second, previous, text, next =>
      first.step previous text fun previous' text' =>
        second.step previous' text' next
  | .alt left right, previous, text, next =>
      left.step previous text next || right.step previous text next
  | .star body, previous, text, next =>
      repeatFrom body.step text.length previous text next
  | .wordBoundary, previous, text, next =>
      (previous.any isWordChar != text.head?.any isWordChar) &&
        next previous text
  | .textEnd, previous, text, next => text.isEmpty && next previous text

/-- Try every start position from left to right. -/
def search (pattern : Regex) : Option Char → Str → Bool
  | previous, [] => pattern.step previous [] fun _ _ => true
  | previous, head :: rest =>
      pattern.step previous (head :: rest) (fun _ _ => true) ||
        pattern.search (some head) rest

/-- `Regex::is_match`. -/
def isMatch (pattern : Regex) (text : Str) : Bool :=
  pattern.search none text

/-! ## Notation of the source patterns -/

/-- A literal under `(?i)`; `text` is given in lower case. -/
def literal (text : String) : Regex :=
  text.toList.foldr
    (fun char rest => .seq (.single fun other => toAsciiLower other == char) rest)
    .empty

/-- Concatenation of several parts. -/
def all (parts : List Regex) : Regex :=
  parts.foldr .seq .empty

/-- Alternation of several parts, at least one of them. -/
def oneOf (part : Regex) (parts : List Regex) : Regex :=
  parts.foldl .alt part

def plus (body : Regex) : Regex := .seq body (.star body)

def optional (body : Regex) : Regex := .alt body .empty

/-- `\s`. -/
def space : Regex := .single isWhitespace

/-- `\w`. -/
def word : Regex := .single isWordChar

/-- `\d`, exact on the characters up to U+00FF. -/
def digit : Regex := .single isAsciiDigit

/-- `.`. -/
def dot : Regex := .single fun char => char != '\n'

/-- A bracketed class of lower-case letters under `(?i)`. -/
def letterOf (accepts : Char → Bool) : Regex :=
  .single fun char => accepts (toAsciiLower char)

/-- `[a-z]` under `(?i)`. -/
def letter : Regex :=
  letterOf fun char => 'a' ≤ char && char ≤ 'z'

/-- `[^...]`. -/
def noneOf (excluded : String) : Regex :=
  .single fun char => !excluded.toList.contains char

end Regex

end TrustLayer.Library
