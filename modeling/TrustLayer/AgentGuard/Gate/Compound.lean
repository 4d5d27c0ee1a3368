import TrustLayer.Library.Text
import TrustLayer.Library.Walk

/-!
# The compound splitter

The quote- and escape-aware walkers that cut a command line into legs and pull
out the bodies of command substitutions.
-/

namespace TrustLayer.AgentGuard.Gate

open TrustLayer.Library

/-! ## Bodies -/

/-- The body of a parenthesis opened just before `bytes`, at nesting `depth`,
and the number of bytes read, the closing parenthesis included. -/
def extractParenBody : (bytes : List Char) → (depth : Nat) → Str × Nat
  | [], _ => ([], 0)
  | byte :: rest, depth =>
      if byte = '\\' then
        match rest with
        | [] => ([byte], 1)
        | escaped :: rest =>
            let (inner, advanced) := extractParenBody rest depth
            (byte :: escaped :: inner, advanced + 2)
      else if byte = '(' then
        let (inner, advanced) := extractParenBody rest (depth + 1)
        (byte :: inner, advanced + 1)
      else if byte = ')' then
        if depth = 1 then ([], 1)
        else
          let (inner, advanced) := extractParenBody rest (depth - 1)
          (byte :: inner, advanced + 1)
      else
        let (inner, advanced) := extractParenBody rest depth
        (byte :: inner, advanced + 1)

/-- The body of a backtick opened just before `bytes`, and the number of bytes
read, the closing backtick included. -/
def extractBacktickBody : (bytes : List Char) → Str × Nat
  | [] => ([], 0)
  | byte :: rest =>
      if byte = '`' then ([], 1)
      else if byte = '\\' then
        match rest with
        | [] => ([byte], 1)
        | escaped :: rest =>
            let (inner, advanced) := extractBacktickBody rest
            (byte :: escaped :: inner, advanced + 2)
      else
        let (inner, advanced) := extractBacktickBody rest
        (byte :: inner, advanced + 1)

/-! ## The splitter -/

/-- The locals of the walker: the legs so far, the leg being read and the two
quote flags. -/
structure SplitState where
  result : List Str
  current : Str
  inDouble : Bool
  inSingle : Bool
  deriving DecidableEq

namespace SplitState

def start : SplitState :=
  { result := [], current := [], inDouble := false, inSingle := false }

/-- `current.push(byte as char)`. -/
def push (state : SplitState) (byte : Char) : SplitState :=
  { state with current := state.current ++ [byte] }

/-- `push_leg`: trim and push the current leg if non-empty, then clear it. -/
def pushLeg (state : SplitState) : SplitState :=
  let trimmed := trim state.current
  { state with
    result := if trimmed.isEmpty then state.result else state.result ++ [trimmed]
    current := [] }

/-- `result.extend(legs)`. -/
def extend (state : SplitState) (legs : List Str) : SplitState :=
  { state with result := state.result ++ legs }

end SplitState

/-- One turn of the loop of `split_compound_with_separators`; `split` stands
for the recursive calls of `split_compound`. -/
def splitStep (split : Str → List Str) (extraSeps : List Char)
    (state : SplitState) (byte : Char) (rest : List Char) : SplitState × Nat :=
  let next := rest.head?
  if state.inSingle = false ∧ byte = '\\' ∧ rest ≠ [] then
    ((state.push byte).push (rest.headD byte), 1)
  else if byte = '"' ∧ state.inSingle = false then
    ({ state.push byte with inDouble := !state.inDouble }, 0)
  else if byte = '\'' ∧ state.inDouble = false then
    ({ state.push byte with inSingle := !state.inSingle }, 0)
  else if state.inDouble = false ∧ state.inSingle = false then
    if (byte = '$' ∨ byte = '<' ∨ byte = '>') ∧ next = some '(' then
      let (inner, advanced) := extractParenBody rest.tail 1
      (state.pushLeg.extend (split inner), advanced + 1)
    else if byte = '`' then
      let (inner, advanced) := extractBacktickBody rest
      (state.pushLeg.extend (split inner), advanced)
    else if (byte = '&' ∧ next = some '&') ∨ (byte = '|' ∧ next = some '|') then
      (state.pushLeg, 1)
    else if byte = ';' ∨ byte = '|' ∨ byte = '&' ∨ byte = '\n' then
      (state.pushLeg, 0)
    else if byte ∈ extraSeps then
      (state.pushLeg, 0)
    else if byte = '(' ∨ byte = ')' then
      (state.pushLeg, 0)
    else
      (state.push byte, 0)
  else
    (state.push byte, 0)

/-- `split_compound` with at most `nesting` levels of substitution. -/
def splitNested : (nesting : Nat) → (command : Str) → List Str
  | 0, _ => []
  | nesting + 1, command =>
      (walk (splitStep (splitNested nesting) []) (asBytes command) 0
        .start).pushLeg.result

/-- Every level of substitution consumes an opening character, so the length
of the command bounds the nesting. -/
def splitCompound (command : Str) : List Str :=
  splitNested (command.length + 1) command

def splitCompoundWithSeparators (command : Str) (extraSeps : List Char) :
    List Str :=
  (walk (splitStep splitCompound extraSeps) (asBytes command) 0
    .start).pushLeg.result

/-! ## Live substitutions -/

/-- Cap on the substitution bodies that one leg may surface. -/
def maxSubstBodies : Nat := 64

structure SubstState where
  bodies : List Str
  inDouble : Bool
  inSingle : Bool
  deriving DecidableEq

namespace SubstState

def start : SubstState :=
  { bodies := [], inDouble := false, inSingle := false }

end SubstState

/-- One turn of the loop of `extract_double_quoted_substitutions`; the loop is
over once the cap is reached. -/
def substStep (state : SubstState) (byte : Char) (rest : List Char) :
    SubstState × Nat :=
  if maxSubstBodies ≤ state.bodies.length then (state, 0)
  else if state.inSingle = false ∧ byte = '\\' ∧ rest ≠ [] then (state, 1)
  else if byte = '"' ∧ state.inSingle = false then
    ({ state with inDouble := !state.inDouble }, 0)
  else if byte = '\'' ∧ state.inDouble = false then
    ({ state with inSingle := !state.inSingle }, 0)
  else if state.inDouble = true ∧ state.inSingle = false then
    if byte = '$' ∧ rest.head? = some '(' then
      let (inner, advanced) := extractParenBody rest.tail 1
      ({ state with bodies := state.bodies ++ [inner] }, advanced + 1)
    else if byte = '`' then
      let (inner, advanced) := extractBacktickBody rest
      ({ state with bodies := state.bodies ++ [inner] }, advanced)
    else (state, 0)
  else (state, 0)

def extractDoubleQuotedSubstitutions (leg : Str) : List Str :=
  (walk substStep (asBytes leg) 0 .start).bodies

end TrustLayer.AgentGuard.Gate
