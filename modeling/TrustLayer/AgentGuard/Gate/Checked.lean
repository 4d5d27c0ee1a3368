import TrustLayer.AgentGuard.Gate.Evaluate
import TrustLayer.Library.CharBoundary
import TrustLayer.Library.Settling

/-!
# The gate with its panics

The functions of the gate with every operation at which the code could stop
without a verdict: slices of a text, indices that no loop condition bounds,
arithmetic on `u8` and `u32`, subtractions, and the `unreachable!` arm.  A
function that recurses takes fuel.  A function with no such operation is the
one of the model; sums of lengths at `usize` are bounded by the memory.
-/

namespace TrustLayer.AgentGuard.Gate.Checked

open TrustLayer.Library

/-- How a call ends that neither returns nor panics at a slice or a sum. -/
inductive Stop where
  | outOfFuel
  | unreachable
  deriving DecidableEq

abbrev Run (α : Type) := Call Stop α

/-- The index of the byte before `rest` in a walk over `text`. -/
def placeBefore (text : Str) (rest : List Char) : Nat :=
  byteLen text - (rest.length + 1)

section

variable (profile : Profile)

/-! ## Normalization -/

/-- `val = val * radix + digit` at `u32`. -/
def pushDigit (radix : Nat) (value : Char → Nat) (total : Nat) (digit : Char) :
    Run Nat := do
  let scaled ← profile.unsigned 32 (total * radix)
  profile.unsigned 32 (scaled + value digit)

def digitsValue (radix : Nat) (value : Char → Nat) (digits : List Char) :
    Run Nat :=
  digits.foldlM (pushDigit profile radix value) 0

def decodeEscape (bytes : List Char) : Run (Option Char × Nat) := do
  let byte ← Call.index 0 bytes
  if byte = 'x' ∨ byte = 'u' then
    let digits :=
      leadingDigits isAsciiHexdigit (if byte = 'x' then 2 else 4) bytes.tail
    if digits.isEmpty then .ok (none, 0)
    else
      let code ← digitsValue profile 16 hexVal digits
      .ok (fromU32 code, digits.length + 1)
  else if isOctalDigit byte then
    let digits := leadingDigits isOctalDigit 3 bytes
    let code ←
      digitsValue profile 8 (fun digit => digit.toNat - '0'.toNat) digits
    .ok (fromU32 code, digits.length)
  else .ok (Gate.decodeEscape bytes)

def readAnsiCSpan : (bytes : List Char) → (skip : Nat) →
    Run (Option (Str × Nat))
  | [], _ => .ok none
  | _ :: rest, skip + 1 => do
      let found ← readAnsiCSpan rest skip
      .ok (found.map fun span => (span.1, span.2 + 1))
  | byte :: rest, 0 =>
      if byte = '\'' then .ok (some ([], 1))
      else if byte = '\\' ∧ rest ≠ [] then do
        match ← decodeEscape profile rest with
        | (some char, advance) =>
            let found ← readAnsiCSpan rest advance
            .ok (found.map fun span => (char :: span.1, span.2 + 1))
        | (none, _) =>
            let found ← readAnsiCSpan rest 1
            .ok (found.map fun span =>
              ('\\' :: rest.headD byte :: span.1, span.2 + 1))
      else do
        let found ← readAnsiCSpan rest 0
        .ok (found.map fun span => (byte :: span.1, span.2 + 1))

def ansiCStep (text : Str) (state : RewriteState) (byte : Char)
    (rest : List Char) : Run (RewriteState × Nat) :=
  if byte = '$' ∧ rest.head? = some '\'' ∧ state.inSingle = false ∧
      state.inDouble = false then do
    match ← readAnsiCSpan profile rest.tail 0 with
    | some (decoded, advanced) =>
        match allowSplice state decoded (advanced + 2) with
        | (true, budget) => .ok (state.splice decoded budget, advanced + 1)
        | (false, budget) =>
            let start := placeBefore text rest
            let verbatim ←
              Call.sliceBetween start (start + 2 + advanced) text
            .ok (state.splice verbatim budget, advanced + 1)
    | none => .ok ((state.toggle byte).push byte, 0)
  else .ok ((state.toggle byte).push byte, 0)

def decodeAnsiC (text : Str) (budget : Budget) : Run (Str × Budget) :=
  if contains text "$'".toList = false then .ok (text, budget)
  else do
    let final ← tryWalk (ansiCStep profile text) (asBytes text) 0 (.start budget)
    .ok (final.out, final.budget)

def readParenBody : (bytes : List Char) → (depth : Nat) →
    Run (Option (Str × Nat))
  | [], _ => .ok none
  | byte :: rest, depth => do
      let depth ←
        (if byte = '(' then .ok (depth + 1)
        else if byte = ')' then profile.subUsize depth 1
        else .ok depth : Run Nat)
      if byte = ')' ∧ depth = 0 then .ok (some ([], 1))
      else
        let found ← readParenBody rest depth
        .ok (found.map fun body => (byte :: body.1, body.2 + 1))

def stripQuotes (text : Str) : Run Str :=
  if byteLen text < 2 then .ok text
  else do
    let last ← profile.subUsize (byteLen text) 1
    let opening ← Call.index 0 (asBytes text)
    let closing ← Call.index last (asBytes text)
    if (opening = '"' ∧ closing = '"') ∨ (opening = '\'' ∧ closing = '\'') then
      Call.sliceBetween 1 last text
    else .ok text

def echoPrintfLiteral (body : Str) : Run (Option Str) :=
  let body := trim body
  if '$' ∈ body ∨ '|' ∈ body ∨ ';' ∈ body ∨ '&' ∈ body ∨ '`' ∈ body then
    .ok none
  else
    match splitWhitespace body with
    | [] => .ok none
    | verb :: words =>
        if verb ≠ "echo".toList ∧ verb ≠ "printf".toList then .ok none
        else
          let words := if verb = "echo".toList then dropEchoFlags words else words
          if words.any fun word => word.head? == some '-' then .ok none
          else do
            let literal ← stripQuotes profile (trim (joinWords words))
            .ok (some literal)

def spliceCandidate (byte : Char) (rest : List Char) :
    Run (Option (Str × Nat × Nat)) :=
  if byte = '$' ∧ rest.head? = some '(' then do
    match ← readParenBody profile rest.tail 1 with
    | some (body, advanced) =>
        let found ← echoPrintfLiteral profile body
        .ok (found.map fun literal => (literal, advanced + 1, advanced + 2))
    | none => .ok none
  else if byte = '`' then
    match readBacktickBody rest with
    | some (body, advanced) => do
        let found ← echoPrintfLiteral profile body
        .ok (found.map fun literal => (literal, advanced, advanced + 1))
    | none => .ok none
  else .ok none

def echoStep (state : RewriteState) (byte : Char) (rest : List Char) :
    Run (RewriteState × Nat) :=
  if state.inSingle = false ∧ state.inDouble = false ∧
      atLegHead state.out = true then do
    match ← spliceCandidate profile byte rest with
    | some (literal, skip, sourceLen) =>
        match allowSplice state literal sourceLen with
        | (true, budget) => .ok (state.splice literal budget, skip)
        | (false, budget) =>
            .ok ((({ state with budget } : RewriteState).toggle byte).push byte,
              0)
    | none => .ok ((state.toggle byte).push byte, 0)
  else .ok ((state.toggle byte).push byte, 0)

def spliceEchoSubstitution (text : Str) (budget : Budget) :
    Run (Str × Budget) :=
  if contains text "$(".toList = false ∧ '`' ∉ text then .ok (text, budget)
  else do
    let final ← tryWalk (echoStep profile) (asBytes text) 0 (.start budget)
    .ok (final.out, final.budget)

def ifsSeparator (leg : Str) : Run (Option Char) :=
  match stripPrefix "IFS=".toList (trim leg) with
  | none => .ok none
  | some rest => do
      match ← stripQuotes profile ((splitWhitespace rest).headD []) with
      | [char] => .ok (some char)
      | _ => .ok none

def collectIfsSeparators (text : Str) : Run (List Char) :=
  (topLevelLegs text).foldlM
    (fun extra leg => do
      match ← ifsSeparator profile leg with
      | some char => .ok (if char ∈ extra then extra else extra ++ [char])
      | none => .ok extra) []

def normalizeCommand (command : Str) : Run Normalized :=
  if byteLen command > maxNormalizeBytes then
    .ok { command, extraSeparators := [] }
  else do
    let budget : Budget := { rewrites := 0, maxBytes := maxNormalizeBytes }
    let (joined, budget) := joinLineContinuations command budget
    let (decoded, budget) ← decodeAnsiC profile joined budget
    let (spliced, _) ← spliceEchoSubstitution profile decoded budget
    let extraSeparators ← collectIfsSeparators profile spliced
    .ok { command := spliced, extraSeparators }

/-! ## Variables -/

def parseAssignment (leg : Str) : Run (Option (Str × Str)) :=
  match find "=".toList leg with
  | none => .ok none
  | some equals => do
      let name ← Call.sliceTo equals leg
      if isValidVarName name then
        let value ← Call.sliceFrom (equals + 1) leg
        let value ← stripQuotes profile value
        .ok (some (name, value))
      else .ok none

/-- The reference after the `$` at `place`. -/
def variableReference (text : Str) (place : Nat) (rest : List Char) :
    Run (Option (Str × Nat)) :=
  match rest with
  | [] => .ok none
  | '{' :: rest =>
      if '}' ∈ rest then do
        let close := place + 2 + (rest.takeWhile fun byte => byte != '}').length
        let name ← Call.sliceBetween (place + 2) close text
        .ok (if isValidVarName name then some (name, close - place) else none)
      else .ok none
  | _ => do
      let length :=
        (rest.takeWhile fun byte => isAsciiAlphanumeric byte || byte == '_').length
      if length = 0 then .ok none
      else
        let name ←
          Call.sliceBetween (place + 1) (place + 1 + length) text
        .ok (some (name, length))

def expandStep (text : Str) (vars : Vars) (out : Str) (byte : Char)
    (rest : List Char) : Run (Str × Nat) :=
  if byte = '$' then do
    match ← variableReference text (placeBefore text rest) rest with
    | some (name, advanced) =>
        match vars.lookup name with
        | some value => .ok (out ++ value, advanced)
        | none => .ok (out ++ [byte], 0)
    | none => .ok (out ++ [byte], 0)
  else .ok (out ++ [byte], 0)

def expandVars (text : Str) (vars : Vars) : Run Str :=
  tryWalk (expandStep text vars) (asBytes text) 0 []

def resolveStep (state : Vars × List Str) (leg : Str) :
    Run (Vars × List Str) := do
  let (vars, out) := state
  let expanded ← expandVars leg vars
  match ← parseAssignment profile leg with
  | some binding => .ok (binding :: vars, out ++ [expanded])
  | none => .ok (vars, out ++ [expanded])

def resolveAssignments (legs : List Str) : Run (List Str) := do
  let final ← legs.foldlM (resolveStep profile) ([], [])
  .ok final.2

/-! ## Payloads -/

def extractPayload (leg : Str) : Run (Option Str) :=
  match splitWhitespace (trim ((splitChar '|' leg).headD [])) with
  | [] => .ok none
  | head :: words => do
      let payload ← stripQuotes profile
        (if head = "echo".toList then trim (joinWords (dropEchoFlag words))
        else head)
      .ok (some payload)

def decodeAndExpand [Base64Engine] (leg : Str) (depth : Nat) :
    Run (Option Str) :=
  if depth ≥ maxDecodeDepth then .ok none
  else if hasBase64DecodeStage leg = false then .ok none
  else do
    match ← extractPayload profile leg with
    | none => .ok none
    | some payload =>
        match Base64Engine.decode (asBytes payload) with
        | none => .ok none
        | some decoded =>
            .ok (if decoded.length > maxDecodeBytes then none
              else fromUtf8 decoded)

/-! ## Patterns -/

/-- The loop of `pattern_matches` from `value[cursor..]` on. -/
def partsInOrder (value : Str) : List Str → (cursor : Nat) → Run Bool
  | [], _ => .ok true
  | part :: parts, cursor => do
      let behind ← Call.sliceFrom cursor value
      match find part behind with
      | some place => partsInOrder value parts (cursor + (place + byteLen part))
      | none => .ok false

def patternMatches (pattern value : Str) : Run Bool :=
  if pattern.isEmpty then .ok false
  else if '*' ∈ pattern then
    let parts := (splitChar '*' pattern).filter fun part => !part.isEmpty
    if parts.isEmpty then .ok !value.isEmpty else partsInOrder value parts 0
  else .ok (contains value pattern)

/-- The loop of `glob_match`: the cursor after the last part. -/
def globCursor (text : Str) (anchoredStart : Prop) [Decidable anchoredStart] :
    (index : Nat) → List Str → (cursor : Nat) → Run (Option Nat)
  | _, [], cursor => .ok (some cursor)
  | index, part :: parts, cursor => do
      let behind ← Call.sliceFrom cursor text
      match find part behind with
      | none => .ok none
      | some place =>
          let found := cursor + place
          if index = 0 ∧ anchoredStart ∧ found ≠ 0 then .ok none
          else
            globCursor text anchoredStart (index + 1) parts
              (found + byteLen part)

def globMatch (pattern text : Str) : Run Bool :=
  if '*' ∉ pattern then .ok (contains text pattern)
  else
    let parts := (splitChar '*' pattern).filter fun part => !part.isEmpty
    if parts.isEmpty then .ok true
    else do
      match ← globCursor text (pattern.head? ≠ some '*') 0 parts 0 with
      | none => .ok false
      | some cursor =>
          .ok !(pattern.getLast? ≠ some '*' ∧ cursor ≠ byteLen text)

def isAllowed (config : Config) (command : Str) : Run Bool :=
  config.allowList.anyM fun pattern => globMatch pattern command

/-- The loop of `scan_leg` over the custom blocks. -/
def considerCustom (config : Config) (leg : Str) (best : Option Hit) :
    Run (Option Hit) :=
  config.customBlocks.foldlM
    (fun best block => do
      let applies ← patternMatches block.pattern leg
      .ok (if applies then
          consider best
            { severity := block.severity, leg
              label := labelled "custom-block".toList block.category }
        else best)) best

/-! ## The splitter -/

def splitStep (split : Str → Run (List Str)) (extraSeps : List Char)
    (state : SplitState) (byte : Char) (rest : List Char) :
    Run (SplitState × Nat) :=
  let next := rest.head?
  if state.inSingle = false ∧ byte = '\\' ∧ rest ≠ [] then
    .ok ((state.push byte).push (rest.headD byte), 1)
  else if byte = '"' ∧ state.inSingle = false then
    .ok ({ state.push byte with inDouble := !state.inDouble }, 0)
  else if byte = '\'' ∧ state.inDouble = false then
    .ok ({ state.push byte with inSingle := !state.inSingle }, 0)
  else if state.inDouble = false ∧ state.inSingle = false then
    if (byte = '$' ∨ byte = '<' ∨ byte = '>') ∧ next = some '(' then do
      let (inner, advanced) := extractParenBody rest.tail 1
      let legs ← split inner
      .ok (state.pushLeg.extend legs, advanced + 1)
    else if byte = '`' then do
      let (inner, advanced) := extractBacktickBody rest
      let legs ← split inner
      .ok (state.pushLeg.extend legs, advanced)
    else if (byte = '&' ∧ next = some '&') ∨ (byte = '|' ∧ next = some '|') then
      .ok (state.pushLeg, 1)
    else if byte = ';' ∨ byte = '|' ∨ byte = '&' ∨ byte = '\n' then
      .ok (state.pushLeg, 0)
    else if byte ∈ extraSeps then
      .ok (state.pushLeg, 0)
    else if byte = '(' ∨ byte = ')' then
      .ok (state.pushLeg, 0)
    else
      .ok (state.push byte, 0)
  else
    .ok (state.push byte, 0)

/-- Every level of substitution takes a unit of fuel. -/
def splitCompound : (fuel : Nat) → (command : Str) → Run (List Str)
  | 0, _ => .error (.error .outOfFuel)
  | fuel + 1, command => do
      let final ←
        tryWalk (splitStep (splitCompound fuel) []) (asBytes command) 0 .start
      .ok final.pushLeg.result

/-! ## The recursive scan -/

section

variable [Base64Engine]

mutual

/-- The only bounds on the recursion are the caps of the code. -/
def scanLeg : (fuel : Nat) → (leg : Str) → (depth : Nat) → Config →
    Option Hit → Run (Option Hit)
  | 0, _, _, _, _ => .error (.error .outOfFuel)
  | fuel + 1, leg, depth, config, best => do
      let best := considerAll best (ruleHits config leg)
      let best ←
        (if depth < maxSubstDepth then
          (liveSubstitutionBodies leg).foldlM
            (fun best body => do
              let deeper ← profile.unsigned 8 (depth + 1)
              scanSubstitutionBody fuel body deeper config best)
            best
        else .ok best : Run (Option Hit))
      let best ← considerCustom config leg best
      match ← decodeAndExpand profile leg depth with
      | some decoded =>
          let legs ← splitCompound fuel decoded
          legs.foldlM
            (fun best inner => do
              let deeper ← profile.unsigned 8 (depth + 1)
              scanLeg fuel inner deeper config best)
            best
      | none =>
          let deeper ← profile.unsigned 8 (depth + 1)
          .ok (if deeper ≥ maxDecodeDepth ∧ hasUnresolvedDecode leg = true then
              consider best (decodeCapHit config leg)
            else best)

def scanSubstitutionBody : (fuel : Nat) → (body : Str) → (depth : Nat) →
    Config → Option Hit → Run (Option Hit)
  | 0, _, _, _, _ => .error (.error .outOfFuel)
  | fuel + 1, body, depth, config, best => do
      let best := considerAll best (presplitHits body)
      let decoded ←
        (if depth < maxDecodeDepth then decodeAndExpand profile body depth
        else .ok none : Run (Option Str))
      let best ←
        (match decoded with
        | some decoded => do
            let legs ← splitCompound fuel decoded
            legs.foldlM
              (fun best inner => do
                let deeper ← profile.unsigned 8 (depth + 1)
                scanLeg fuel inner deeper config best)
              best
        | none => .ok best : Run (Option Hit))
      let legs ← splitCompound fuel body
      legs.foldlM
        (fun best leg =>
          if isNonExecutingVerb leg then
            if depth < maxSubstDepth then
              (liveSubstitutionBodies leg).foldlM
                (fun best inner => do
                  let deeper ← profile.unsigned 8 (depth + 1)
                  scanSubstitutionBody fuel inner deeper config best)
                best
            else .ok best
          else scanLeg fuel leg depth config best)
        best

end

def scanLegs (fuel : Nat) (legs : List Str) (depth : Nat) (config : Config)
    (best : Option Hit) : Run (Option Hit) :=
  legs.foldlM (fun best leg => scanLeg profile fuel leg depth config best) best

def ifsResplitBlock (fuel : Nat) (command : Str) (extraSeps : List Char)
    (config : Config) : Run (Option Hit) := do
  let legs ← splitCompound fuel command
  let resolved ←
    resolveAssignments profile (rebuildLegs extraSeps false legs)
  match ← scanLegs profile fuel resolved 0 config none with
  | some hit =>
      .ok (if severityToTier hit.severity config.thresholds = .block then some hit
        else none)
  | none => .ok none

/-! ## Verdicts -/

def truncate (text : Str) (limit : Nat) : Run Str :=
  if byteLen text ≤ limit then .ok text
  else do
    let front ← Call.sliceTo (boundaryBelow text limit) text
    .ok (front ++ "…".toList)

def buildVerdict (tier : Tier) (hit : Hit) : Run Verdict := do
  let leg ← truncate hit.leg 200
  let reason (how : String) : Str :=
    how.toList ++ " dangerous leg `".toList ++ leg ++ "` (".toList ++ hit.label ++
      ")".toList
  match tier with
  | .block =>
      .ok ((Verdict.block (reason "blocked")).withFeedback
        ("This command was blocked because the leg `".toList ++ leg ++
          "` matches ".toList ++ hit.label ++
          (". If this is intentional, add it to the " ++
            "apohara-agentguard allow-list.").toList))
  | .warn =>
      .ok ((Verdict.warn (reason "flagged")).withFeedback
        ("Caution: the leg `".toList ++ leg ++ "` matches ".toList ++ hit.label ++
          ". Proceed only if you understand the impact.".toList))
  | .allow => .ok .allow
  | .ask => .error (.error .unreachable)

/-! ## The pipeline -/

def scanInput (command : Str) (config : Config) : Run Normalized :=
  if config.normalize then normalizeCommand profile command
  else .ok { command, extraSeparators := [] }

def worstHit (fuel : Nat) (input : Normalized) (config : Config) :
    Run (Option Hit) := do
  let command := input.command
  let best := considerAll none (presplitHits command)
  let decoded ← decodeAndExpand profile command 0
  let best ←
    (match decoded with
    | some decoded => do
        let legs ← splitCompound fuel decoded
        scanLegs profile fuel legs 1 config best
    | none => .ok best : Run (Option Hit))
  let legs ← splitCompound fuel command
  let resolved ← resolveAssignments profile legs
  let best ← scanLegs profile fuel resolved 0 config best
  if input.extraSeparators.isEmpty then .ok best
  else
    match ← ifsResplitBlock profile fuel command input.extraSeparators config with
    | some hit => .ok (consider best hit)
    | none => .ok best

def evaluate (fuel : Nat) (command : Str) (config : Config) : Run Verdict :=
  if config.disable then .ok .allow
  else do
    let allowed ← isAllowed config command
    if allowed then .ok .allow
    else
      let input ← scanInput profile command config
      match ← worstHit profile fuel input config with
      | none => .ok .allow
      | some hit =>
          buildVerdict (severityToTier hit.severity config.thresholds) hit

end

end

end TrustLayer.AgentGuard.Gate.Checked
