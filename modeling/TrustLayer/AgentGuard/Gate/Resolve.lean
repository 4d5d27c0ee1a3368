import TrustLayer.AgentGuard.Gate.Normalize

/-!
# Variable-assignment resolution across legs
-/

namespace TrustLayer.AgentGuard.Gate

open TrustLayer.Library

/-- The bindings seen so far, the latest first. -/
abbrev Vars := List (Str × Str)

/-- A valid shell variable name: `[A-Za-z_][A-Za-z0-9_]*`. -/
def isValidVarName : Str → Bool
  | [] => false
  | char :: rest =>
      (isAsciiAlphabetic char || char == '_') &&
        rest.all fun char => isAsciiAlphanumeric char || char == '_'

/-- A leading `VAR=value` assignment. -/
def parseAssignment (leg : Str) : Option (Str × Str) :=
  match splitFirst "=".toList leg with
  | none => none
  | some (name, value) =>
      if isValidVarName name then some (name, stripQuotes value) else none

/-- The reference after a `$`: its name and the number of bytes it takes.
A name of the wrong shape is never bound, so it is looked up all the same. -/
def variableReference (rest : List Char) : Option (Str × Nat) :=
  match rest with
  | [] => none
  | '{' :: rest =>
      if '}' ∈ rest then
        let name := rest.takeWhile fun byte => byte != '}'
        if isValidVarName name then some (name, name.length + 2) else none
      else none
  | _ =>
      let name := rest.takeWhile fun byte => isAsciiAlphanumeric byte || byte == '_'
      if name.isEmpty then none else some (name, name.length)

def expandStep (vars : Vars) (out : Str) (byte : Char) (rest : List Char) :
    Str × Nat :=
  if byte = '$' then
    match variableReference rest with
    | some (name, advanced) =>
        match vars.lookup name with
        | some value => (out ++ value, advanced)
        | none => (out ++ [byte], 0)
    | none => (out ++ [byte], 0)
  else (out ++ [byte], 0)

/-- Substitute `$VAR` and `${VAR}`, leaving unknown references alone. -/
def expandVars (text : Str) (vars : Vars) : Str :=
  walk (expandStep vars) (asBytes text) 0 []

/-- One turn of the loop of `resolve_assignments`: the bindings before the leg
expand it, and the binding is read off the original text. -/
def resolveStep (state : Vars × List Str) (leg : Str) : Vars × List Str :=
  let (vars, out) := state
  let expanded := expandVars leg vars
  let vars :=
    match parseAssignment leg with
    | some binding => binding :: vars
    | none => vars
  (vars, out ++ [expanded])

def resolveAssignments (legs : List Str) : List Str :=
  (legs.foldl resolveStep ([], [])).2

end TrustLayer.AgentGuard.Gate
