import TrustLayer.Library.Text
import TrustLayer.Library.Walk

/-!
# The normalization pre-pass

Four passes over one rewrite buffer: line continuations, ANSI-C spans,
leg-head `echo` substitutions, and the collection of `IFS` separators.  The
three rewriting passes share one budget.
-/

namespace TrustLayer.AgentGuard.Gate

open TrustLayer.Library

def maxNormalizeBytes : Nat := 64 * 1024

def maxRewrites : Nat := 64

def maxExpansionRatio : Nat := 4

structure Normalized where
  command : Str
  extraSeparators : List Char
  deriving DecidableEq

/-- The splice budget shared by the passes. -/
structure Budget where
  rewrites : Nat
  maxBytes : Nat
  deriving DecidableEq

namespace Budget

/-- What `normalize` starts with. -/
def fresh : Budget :=
  { rewrites := 0, maxBytes := maxNormalizeBytes }

/-- Try to consume one rewrite whose result is `newLen` bytes long. -/
def allow (budget : Budget) (newLen : Nat) : Bool × Budget :=
  if budget.rewrites ≥ maxRewrites ∨ newLen > budget.maxBytes then
    (false, budget)
  else
    (true, { budget with rewrites := budget.rewrites + 1 })

end Budget

/-! ## Pass 1: line continuations -/

structure JoinState where
  out : Str
  budget : Budget
  deriving DecidableEq

namespace JoinState

def push (state : JoinState) (byte : Char) : JoinState :=
  { state with out := state.out ++ [byte] }

end JoinState

def joinStep (state : JoinState) (byte : Char) (rest : List Char) :
    JoinState × Nat :=
  if byte = '\\' ∧ rest.head? = some '\n' then
    match state.budget.allow (byteLen state.out) with
    | (true, budget) => ({ state with budget }, 1)
    | (false, _) => (state.push byte, 0)
  else if byte = '\\' ∧ rest.head? = some '\r' ∧ rest.tail.head? = some '\n' then
    match state.budget.allow (byteLen state.out) with
    | (true, budget) => ({ state with budget }, 2)
    | (false, _) => (state.push byte, 0)
  else (state.push byte, 0)

def joinLineContinuations (text : Str) (budget : Budget) : Str × Budget :=
  if '\\' ∉ text then (text, budget)
  else
    let final := walk joinStep (asBytes text) 0 { out := [], budget }
    (final.out, final.budget)

/-! ## Pass 2: ANSI-C quoting -/

def hexVal (byte : Char) : Nat :=
  if '0' ≤ byte ∧ byte ≤ '9' then byte.toNat - '0'.toNat
  else if 'a' ≤ byte ∧ byte ≤ 'f' then byte.toNat - 'a'.toNat + 10
  else if 'A' ≤ byte ∧ byte ≤ 'F' then byte.toNat - 'A'.toNat + 10
  else 0

/-- `char::from_u32`. -/
def fromU32 (code : Nat) : Option Char :=
  if code.isValidChar then some (Char.ofNat code) else none

def isOctalDigit (byte : Char) : Bool :=
  '0' ≤ byte && byte ≤ '7'

/-- At most `limit` leading digits. -/
def leadingDigits (isDigit : Char → Bool) (limit : Nat) (bytes : List Char) :
    List Char :=
  (bytes.take limit).takeWhile isDigit

def digitsValue (radix : Nat) (value : Char → Nat) (digits : List Char) : Nat :=
  digits.foldl (fun total digit => total * radix + value digit) 0

/-- Decode the escape whose backslash stands just before `bytes`: the
character, if the escape is recognised, and the number of bytes read. -/
def decodeEscape (bytes : List Char) : Option Char × Nat :=
  match bytes with
  | [] => (none, 0)
  | byte :: rest =>
      if byte = 'n' then (some '\n', 1)
      else if byte = 't' then (some '\t', 1)
      else if byte = 'r' then (some '\r', 1)
      else if byte = '\\' then (some '\\', 1)
      else if byte = '\'' then (some '\'', 1)
      else if byte = '"' then (some '"', 1)
      else if byte = 'x' then
        let digits := leadingDigits isAsciiHexdigit 2 rest
        if digits.isEmpty then (none, 0)
        else (fromU32 (digitsValue 16 hexVal digits), digits.length + 1)
      else if byte = 'u' then
        let digits := leadingDigits isAsciiHexdigit 4 rest
        if digits.isEmpty then (none, 0)
        else (fromU32 (digitsValue 16 hexVal digits), digits.length + 1)
      else if isOctalDigit byte then
        let digits := leadingDigits isOctalDigit 3 bytes
        (fromU32 (digitsValue 8 (fun digit => digit.toNat - '0'.toNat) digits),
          digits.length)
      else (none, 0)

/-- The rest of a `$'...'` span, read from just after its opening quote: the
decoded literal and the number of bytes read, the closing quote included.
The first `skip` bytes belong to an escape that is already decoded. -/
def readAnsiCSpan : (bytes : List Char) → (skip : Nat) → Option (Str × Nat)
  | [], _ => none
  | _ :: rest, skip + 1 =>
      (readAnsiCSpan rest skip).map fun span => (span.1, span.2 + 1)
  | byte :: rest, 0 =>
      if byte = '\'' then some ([], 1)
      else if byte = '\\' ∧ rest ≠ [] then
        match decodeEscape rest with
        | (some char, advance) =>
            (readAnsiCSpan rest advance).map fun span =>
              (char :: span.1, span.2 + 1)
        | (none, _) =>
            (readAnsiCSpan rest 1).map fun span =>
              ('\\' :: rest.headD byte :: span.1, span.2 + 1)
      else
        (readAnsiCSpan rest 0).map fun span => (byte :: span.1, span.2 + 1)

/-- The state of the two quote-tracking rewriters. -/
structure RewriteState where
  out : Str
  inSingle : Bool
  inDouble : Bool
  budget : Budget
  deriving DecidableEq

namespace RewriteState

def start (budget : Budget) : RewriteState :=
  { out := [], inSingle := false, inDouble := false, budget }

def push (state : RewriteState) (byte : Char) : RewriteState :=
  { state with out := state.out ++ [byte] }

/-- The quote toggles both rewriters share. -/
def toggle (state : RewriteState) (byte : Char) : RewriteState :=
  if byte = '\'' ∧ state.inDouble = false then
    { state with inSingle := !state.inSingle }
  else if byte = '"' ∧ state.inSingle = false then
    { state with inDouble := !state.inDouble }
  else state

/-- Append `text` in place of the bytes of a construct. -/
def splice (state : RewriteState) (text : Str) (budget : Budget) :
    RewriteState :=
  { state with out := state.out ++ text, budget }

end RewriteState

/-- Whether `text` may replace a construct of `sourceLen` bytes, with the
budget after the question. -/
def allowSplice (state : RewriteState) (text : Str) (sourceLen : Nat) :
    Bool × Budget :=
  if byteLen text ≤ sourceLen * maxExpansionRatio then
    state.budget.allow (byteLen state.out + byteLen text)
  else (false, state.budget)

def ansiCStep (state : RewriteState) (byte : Char) (rest : List Char) :
    RewriteState × Nat :=
  if byte = '$' ∧ rest.head? = some '\'' ∧ state.inSingle = false ∧
      state.inDouble = false then
    match readAnsiCSpan rest.tail 0 with
    | some (decoded, advanced) =>
        match allowSplice state decoded (advanced + 2) with
        | (true, budget) => (state.splice decoded budget, advanced + 1)
        | (false, budget) =>
            let verbatim := byte :: rest.take (advanced + 1)
            (state.splice ((fromUtf8 verbatim).getD verbatim) budget,
              advanced + 1)
    | none => ((state.toggle byte).push byte, 0)
  else ((state.toggle byte).push byte, 0)

def decodeAnsiC (text : Str) (budget : Budget) : Str × Budget :=
  if contains text "$'".toList = false then (text, budget)
  else
    let final := walk ansiCStep (asBytes text) 0 (.start budget)
    (final.out, final.budget)

/-! ## Pass 3: leg-head `echo` substitutions -/

/-- Whether what has been emitted ends at the head of a leg. -/
def atLegHead (out : Str) : Bool :=
  match out.reverse.dropWhile fun char => char == ' ' || char == '\t' with
  | [] => true
  | char :: _ => [';', '|', '&', '\n', '('].contains char

/-- `read_paren_body`: like the splitter's, but blind to backslashes, and
`none` when the parenthesis is never closed. -/
def readParenBody : (bytes : List Char) → (depth : Nat) → Option (Str × Nat)
  | [], _ => none
  | byte :: rest, depth =>
      if byte = ')' ∧ depth = 1 then some ([], 1)
      else
        let depth :=
          if byte = '(' then depth + 1
          else if byte = ')' then depth - 1
          else depth
        (readParenBody rest depth).map fun body =>
          (byte :: body.1, body.2 + 1)

def readBacktickBody : (bytes : List Char) → Option (Str × Nat)
  | [] => none
  | byte :: rest =>
      if byte = '`' then some ([], 1)
      else
        (readBacktickBody rest).map fun body => (byte :: body.1, body.2 + 1)

/-- Remove one layer of matching quotes. -/
def stripQuotes (text : Str) : Str :=
  if 2 ≤ byteLen text ∧
      ((text.head? = some '"' ∧ text.getLast? = some '"') ∨
        (text.head? = some '\'' ∧ text.getLast? = some '\'')) then
    text.tail.dropLast
  else text

/-- The leading `-n` and `-e` flags of `echo` are dropped. -/
def dropEchoFlags (words : List Str) : List Str :=
  words.dropWhile fun word => word == "-n".toList || word == "-e".toList

/-- `rest.join(" ")`. -/
def joinWords (words : List Str) : Str :=
  [' '].intercalate words

def echoPrintfLiteral (body : Str) : Option Str :=
  let body := trim body
  if '$' ∈ body ∨ '|' ∈ body ∨ ';' ∈ body ∨ '&' ∈ body ∨ '`' ∈ body then none
  else
    match splitWhitespace body with
    | [] => none
    | verb :: words =>
        if verb ≠ "echo".toList ∧ verb ≠ "printf".toList then none
        else
          let words := if verb = "echo".toList then dropEchoFlags words else words
          if words.any fun word => word.head? == some '-' then none
          else some (stripQuotes (trim (joinWords words)))

/-- The literal that may replace the construct opened at this byte, the number
of bytes after the opening that the construct takes, and the length of its
source. -/
def spliceCandidate (byte : Char) (rest : List Char) :
    Option (Str × Nat × Nat) :=
  if byte = '$' ∧ rest.head? = some '(' then do
    let (body, advanced) ← readParenBody rest.tail 1
    let literal ← echoPrintfLiteral body
    pure (literal, advanced + 1, advanced + 2)
  else if byte = '`' then do
    let (body, advanced) ← readBacktickBody rest
    let literal ← echoPrintfLiteral body
    pure (literal, advanced, advanced + 1)
  else none

def echoStep (state : RewriteState) (byte : Char) (rest : List Char) :
    RewriteState × Nat :=
  if state.inSingle = false ∧ state.inDouble = false ∧
      atLegHead state.out = true then
    match spliceCandidate byte rest with
    | some (literal, skip, sourceLen) =>
        match allowSplice state literal sourceLen with
        | (true, budget) => (state.splice literal budget, skip)
        | (false, budget) =>
            ((({ state with budget } : RewriteState).toggle byte).push byte, 0)
    | none => ((state.toggle byte).push byte, 0)
  else ((state.toggle byte).push byte, 0)

def spliceEchoSubstitution (text : Str) (budget : Budget) : Str × Budget :=
  if contains text "$(".toList = false ∧ '`' ∉ text then (text, budget)
  else
    let final := walk echoStep (asBytes text) 0 (.start budget)
    (final.out, final.budget)

/-! ## Pass 4: `IFS` separators -/

structure LegState where
  legs : List Str
  current : Str
  inSingle : Bool
  inDouble : Bool
  deriving DecidableEq

namespace LegState

def start : LegState :=
  { legs := [], current := [], inSingle := false, inDouble := false }

def toggle (state : LegState) (byte : Char) : LegState :=
  if byte = '\'' ∧ state.inDouble = false then
    { state with inSingle := !state.inSingle }
  else if byte = '"' ∧ state.inSingle = false then
    { state with inDouble := !state.inDouble }
  else state

def push (state : LegState) (byte : Char) : LegState :=
  { state with current := state.current ++ [byte] }

def pushLeg (state : LegState) : LegState :=
  let trimmed := trim state.current
  { state with
    legs := if trimmed.isEmpty then state.legs else state.legs ++ [trimmed]
    current := [] }

end LegState

def topLevelStep (state : LegState) (byte : Char) (_ : List Char) :
    LegState × Nat :=
  let state := state.toggle byte
  if state.inSingle = false ∧ state.inDouble = false ∧
      (byte = ';' ∨ byte = '\n' ∨ byte = '&') then
    (state.pushLeg, 0)
  else (state.push byte, 0)

def topLevelLegs (text : Str) : List Str :=
  (walk topLevelStep (asBytes text) 0 .start).pushLeg.legs

/-- The separator that one leg contributes. -/
def ifsSeparator (leg : Str) : Option Char :=
  match stripPrefix "IFS=".toList (trim leg) with
  | none => none
  | some rest =>
      match stripQuotes ((splitWhitespace rest).headD []) with
      | [char] => some char
      | _ => none

def collectIfsSeparators (text : Str) : List Char :=
  (topLevelLegs text).foldl
    (fun extra leg =>
      match ifsSeparator leg with
      | some char => if char ∈ extra then extra else extra ++ [char]
      | none => extra) []

/-! ## The pre-pass -/

def normalizeCommand (command : Str) : Normalized :=
  if byteLen command > maxNormalizeBytes then
    { command, extraSeparators := [] }
  else
    let budget : Budget := { rewrites := 0, maxBytes := maxNormalizeBytes }
    let (joined, budget) := joinLineContinuations command budget
    let (decoded, budget) := decodeAnsiC joined budget
    let (spliced, _) := spliceEchoSubstitution decoded budget
    { command := spliced, extraSeparators := collectIfsSeparators spliced }

end TrustLayer.AgentGuard.Gate
