import TrustLayer.AgentGuard.Firewall.Scan
import TrustLayer.AgentGuard.Gate.Evaluate
import TrustLayer.Library.Lines
import TrustLayer.SerdeJson.Reordering

/-!
# The server on the standard input

A request stands on a line of its own, and so does its answer.  Nothing in a
request can end a line of the output.
-/

namespace TrustLayer.AgentGuard.Mcp

open TrustLayer.AgentGuard.Gate (Base64Engine)
open TrustLayer.AgentGuard.Firewall (RegexCrate)
open TrustLayer.Library hiding Json
open TrustLayer.SerdeJson (WellFormed compact integer ordered print)

/-- `serde_json::from_str` of a `Value`. -/
class FromStr where
  fromStr : (line : Str) → Option SerdeJson.Value

/-! ## Answers -/

def protocolVersion : Str := "2024-11-05".toList

def parseError : Int := -32700

def methodNotFound : Int := -32601

def invalidParams : Int := -32602

def resultResponse (id result : Json) : Json :=
  .object [("jsonrpc".toList, .string "2.0".toList), ("id".toList, id),
    ("result".toList, result)]

def errorResponse (id : Json) (code : Int) (message : Str) : Json :=
  .object [("jsonrpc".toList, .string "2.0".toList), ("id".toList, id),
    ("error".toList, .object [("code".toList, integer code),
      ("message".toList, .string message)])]

def initializeResult : Json :=
  .object [("protocolVersion".toList, .string protocolVersion),
    ("capabilities".toList, .object [("tools".toList, .object [])]),
    ("serverInfo".toList, .object [
      ("name".toList, .string "apohara-agentguard".toList),
      ("version".toList, .string "0.3.0".toList)])]

/-- A tool with one argument, a text. -/
def tool (name description argument hint : String) : Json :=
  .object [("name".toList, .string name.toList),
    ("description".toList, .string description.toList),
    ("inputSchema".toList, .object [
      ("type".toList, .string "object".toList),
      ("properties".toList, .object [(argument.toList, .object [
        ("type".toList, .string "string".toList),
        ("description".toList, .string hint.toList)])]),
      ("required".toList, .array [.string argument.toList])])]

def toolsListResult : Json :=
  .object [("tools".toList, .array [
    tool "check_command" ("Evaluate a bash command through the " ++
      "apohara-agentguard anti-bypass gate. Read-only: returns a verdict " ++
      "(tier + reason), runs no command.")
      "command" "The bash command to evaluate.",
    tool "scan_prompt" ("Scan untrusted text (a prompt, tool output, or " ++
      "fetched document) through the input firewall. Read-only: returns a " ++
      "verdict (tier + reason).")
      "text" "The text to scan for injection/exfiltration signatures."])]

def tierName : Tier → Str
  | .allow => "allow".toList
  | .warn => "warn".toList
  | .ask => "ask".toList
  | .block => "block".toList

def optional : Option Str → Json
  | none => .null
  | some text => .string text

/-- `serde_json::to_value` of a verdict. -/
def structured (verdict : Verdict) : Json :=
  .object [("tier".toList, .string (tierName verdict.tier)),
    ("reason".toList, .string verdict.reason),
    ("feedback".toList, optional verdict.feedback),
    ("rule_id".toList, optional verdict.ruleId),
    ("category".toList, optional verdict.category)]

/-- `to_string` of a `Value`. -/
def text (value : Json) : Str :=
  print compact 0 (ordered value)

def toolResult (verdict : Verdict) : Json :=
  .object [
    ("content".toList, .array [.object [
      ("type".toList, .string "text".toList),
      ("text".toList, .string (text (structured verdict)))]]),
    ("structuredContent".toList, structured verdict),
    ("isError".toList, .bool false)]

/-! ## Requests -/

def stringArg (arguments : Json) (key : String) : Except (Int × Str) Str :=
  match (arguments.get key.toList).bind Json.asStr with
  | some value => .ok value
  | none =>
      .error (invalidParams, "missing string argument: ".toList ++ key.toList)

section

variable [Base64Engine] [CharTables] [RegexCrate]

/-- The scan does not ask for the thresholds of the configuration. -/
def toolsCall (params : Json) (config : Config) : Except (Int × Str) Json :=
  match (params.get "name".toList).bind Json.asStr with
  | none => .error (invalidParams, "missing tool name".toList)
  | some name =>
      let arguments := (params.get "arguments".toList).getD .null
      if name = "check_command".toList then
        (stringArg arguments "command").map fun command =>
          toolResult (Gate.evaluate command config)
      else if name = "scan_prompt".toList then
        (stringArg arguments "text").map fun prompt =>
          toolResult (Firewall.scanContent prompt .default)
      else .error (invalidParams, "unknown tool: ".toList ++ name)

def dispatch (method : Str) (params id : Json) (config : Config) : Json :=
  if method = "initialize".toList then resultResponse id initializeResult
  else if method = "tools/list".toList then resultResponse id toolsListResult
  else if method = "tools/call".toList then
    match toolsCall params config with
    | .ok result => resultResponse id result
    | .error (code, message) => errorResponse id code message
  else
    errorResponse id methodNotFound ("method not found: ".toList ++ method)

variable [FromStr]

/-- The answer to a line; a notification has none. -/
def answer (line : Str) (config : Config) : Option Json :=
  match FromStr.fromStr line with
  | none =>
      some (errorResponse .null parseError
        "parse error: invalid JSON".toList)
  | some req =>
      let method :=
        ((req.json.get "method".toList).bind Json.asStr).getD []
      let params := (req.json.get "params".toList).getD .null
      (req.json.get "id".toList).map fun id => dispatch method params id config

def handleLine (line : Str) (config : Config) : Option Str :=
  (answer line config).map text

/-- What is written, and how it ends.  The reader hands out lines until it
fails or ends. -/
def serve (config : Config) : (reader : List (Except Str Str)) →
    Str × Except Str Unit
  | [] => ([], .ok ())
  | .error e :: _ => ([], .error e)
  | .ok line :: reader =>
      if trim line = [] then serve config reader
      else
        match handleLine line config with
        | none => serve config reader
        | some response =>
            let (output, ending) := serve config reader
            (response ++ '\n' :: output, ending)

end

/-! ## Texts on one line -/

theorem inline_nil : Inline [] :=
  List.forall_mem_nil _

theorem inline_cons {char : Char} {rest : Str} :
    Inline (char :: rest) ↔ (char ≠ '\n' ∧ char ≠ '\r') ∧ Inline rest :=
  List.forall_mem_cons

theorem inline_append {front back : Str} :
    Inline (front ++ back) ↔ Inline front ∧ Inline back :=
  List.forall_mem_append

/-- The ends of lines are among what is escaped. -/
theorem inline_escape (char : Char) : Inline (SerdeJson.escape char) := by
  have letters : ∀ entry ∈ SerdeJson.shortEscapes,
      entry.2 ≠ '\n' ∧ entry.2 ≠ '\r' := by
    decide
  have digits : ∀ value < 16,
      hexDigit value ≠ '\n' ∧ hexDigit value ≠ '\r' := by
    decide
  cases found : SerdeJson.shortEscapes.lookup char with
  | some letter =>
      simp only [SerdeJson.escape, found]
      refine inline_cons.mpr ⟨by decide, inline_cons.mpr ⟨?_, inline_nil⟩⟩
      exact letters _ (SerdeJson.mem_of_lookup found)
  | none =>
      by_cases control : char.toNat < 32
      · simp only [SerdeJson.escape, found, if_pos control]
        have four : Inline ['\\', 'u', '0', '0'] := by decide
        apply inline_append.mpr ⟨four, ?_⟩
        apply inline_cons.mpr ⟨digits _ (by omega), ?_⟩
        exact inline_cons.mpr ⟨digits _ (by omega), inline_nil⟩
      · simp only [SerdeJson.escape, found, if_neg control]
        refine inline_cons.mpr ⟨⟨?_, ?_⟩, inline_nil⟩
        · intro feed
          subst feed
          cases found
        · intro return_
          subst return_
          cases found

theorem inline_printString (text : Str) :
    Inline (SerdeJson.printString text) := by
  rw [SerdeJson.printString]
  apply inline_cons.mpr
  refine ⟨by decide, inline_append.mpr ⟨?_, by decide⟩⟩
  intro char member
  obtain ⟨source, -, escaped⟩ := List.mem_flatMap.mp member
  exact inline_escape source char escaped

theorem inline_literal {literal : Str}
    (numerals : ∀ char ∈ literal, SerdeJson.Numeral char) :
    Inline literal := by
  intro char member
  have numeral := numerals char member
  constructor
  · intro feed
    subst feed
    simp [SerdeJson.Numeral, isAsciiDigit] at numeral
  · intro return_
    subst return_
    simp [SerdeJson.Numeral, isAsciiDigit] at numeral

mutual

theorem inline_print (depth : Nat) : (value : Json) → WellFormed value →
    Inline (print compact depth value)
  | .null, _ => by rw [print]; decide
  | .bool true, _ => by rw [print]; decide
  | .bool false, _ => by rw [print]; decide
  | .number literal, formed => by
      rw [print]
      exact inline_literal formed.2
  | .string text, _ => by
      rw [print]
      exact inline_printString text
  | .array [], _ => by rw [print]; decide
  | .array (item :: items), formed => by
      obtain ⟨first, rest⟩ :=
        List.forall_mem_cons.mp (SerdeJson.wellFormed_array.mp formed)
      rw [print]
      apply inline_cons.mpr
      refine ⟨by decide, inline_append.mpr ⟨?_, ?_⟩⟩
      · exact inline_print (depth + 1) item first
      · exact inline_printElements depth items rest
  | .object [], _ => by rw [print]; decide
  | .object ((key, value) :: fields), formed => by
      obtain ⟨first, rest⟩ :=
        List.forall_mem_cons.mp (SerdeJson.wellFormed_object.mp formed)
      rw [print]
      apply inline_cons.mpr
      refine ⟨by decide, inline_append.mpr ⟨?_, ?_⟩⟩
      · have named : Inline (SerdeJson.printString key ++ [':']) :=
          inline_append.mpr ⟨inline_printString key, by decide⟩
        exact inline_append.mpr ⟨named, inline_print (depth + 1) value first⟩
      · exact inline_printFields depth fields rest

theorem inline_printElements (depth : Nat) : (items : List Json) →
    (∀ item ∈ items, WellFormed item) →
    Inline (SerdeJson.printElements compact depth items)
  | [], _ => inline_cons.mpr ⟨by decide, inline_nil⟩
  | item :: items, formed => by
      obtain ⟨first, rest⟩ := List.forall_mem_cons.mp formed
      rw [SerdeJson.printElements]
      apply inline_cons.mpr
      refine ⟨by decide, inline_append.mpr ⟨?_, ?_⟩⟩
      · exact inline_print (depth + 1) item first
      · exact inline_printElements depth items rest

theorem inline_printFields (depth : Nat) : (fields : List (Str × Json)) →
    (∀ field ∈ fields, WellFormed field.2) →
    Inline (SerdeJson.printFields compact depth fields)
  | [], _ => inline_cons.mpr ⟨by decide, inline_nil⟩
  | (key, value) :: fields, formed => by
      obtain ⟨first, rest⟩ := List.forall_mem_cons.mp formed
      rw [SerdeJson.printFields]
      apply inline_cons.mpr
      refine ⟨by decide, inline_append.mpr ⟨?_, ?_⟩⟩
      · have named : Inline (SerdeJson.printString key ++ [':']) :=
          inline_append.mpr ⟨inline_printString key, by decide⟩
        exact inline_append.mpr ⟨named, inline_print (depth + 1) value first⟩
      · exact inline_printFields depth fields rest

end

theorem inline_text {value : Json} (formed : WellFormed value) :
    Inline (text value) :=
  inline_print 0 _ (SerdeJson.wellFormed_ordered value formed)

/-- A text is read as the value that was written, but for the order of keys. -/
theorem text_eq_iff (left right : SerdeJson.Value) :
    text left.json = text right.json ↔
      SerdeJson.Reordered left.json right.json := by
  rw [← SerdeJson.valueToVec_eq_iff]
  exact (utf8Bytes_injective.eq_iff).symm

/-! ## Replies are values -/

/-- `Value`s may stand in it. -/
def IsValue (json : Json) : Prop :=
  SerdeJson.DistinctKeys json ∧ WellFormed json

theorem resultResponse_value {id result : Json} (named : IsValue id)
    (fine : IsValue result) : IsValue (resultResponse id result) := by
  constructor
  · simp [resultResponse, named.1, fine.1]
  · simp [resultResponse, named.2, fine.2]

theorem errorResponse_value {id : Json} {code : Int} {message : Str}
    (named : IsValue id) : IsValue (errorResponse id code message) := by
  constructor
  · simp [errorResponse, integer, named.1]
  · simp [errorResponse, named.2]

theorem initializeResult_value : IsValue initializeResult := by
  constructor <;> simp [initializeResult]

theorem tool_value (name description argument hint : String) :
    IsValue (tool name description argument hint) := by
  constructor <;> simp [tool]

theorem toolsListResult_value : IsValue toolsListResult := by
  constructor
  · simp [toolsListResult, (tool_value _ _ _ _).1]
  · simp [toolsListResult, (tool_value _ _ _ _).2]

theorem optional_value (text? : Option Str) : IsValue (optional text?) := by
  cases text? <;> constructor <;> simp [optional]

theorem structured_value (verdict : Verdict) : IsValue (structured verdict) := by
  constructor
  · simp [structured, (optional_value _).1]
  · simp [structured, (optional_value _).2]

theorem toolResult_value (verdict : Verdict) : IsValue (toolResult verdict) := by
  constructor
  · simp [toolResult, (structured_value _).1]
  · simp [toolResult, (structured_value _).2]

/-! ## What a client is told -/

theorem bind_asStr_eq_some_iff {value : Option Json} {text : Str} :
    value.bind Json.asStr = some text ↔ value = some (.string text) := by
  cases value with
  | none => simp
  | some value => cases value <;> simp [Json.asStr]

theorem stringArg_eq_ok_iff {arguments : Json} {key : String} {text : Str} :
    stringArg arguments key = .ok text ↔
      arguments.get key.toList = some (.string text) := by
  rw [← bind_asStr_eq_some_iff, stringArg]
  cases (arguments.get key.toList).bind Json.asStr <;> simp

theorem get_getD_null {value : Option Json} {key : Str} {found : Json} :
    (value.getD .null).get key = some found ↔
      ∃ inner, value = some inner ∧ inner.get key = some found := by
  cases value with
  | none => simp [Json.get]
  | some inner => simp

inductive Tool where
  | checkCommand
  | scanPrompt
  deriving DecidableEq

namespace Tool

def name : Tool → Str
  | .checkCommand => "check_command".toList
  | .scanPrompt => "scan_prompt".toList

def argument : Tool → Str
  | .checkCommand => "command".toList
  | .scanPrompt => "text".toList

theorem name_inj {tool other : Tool} (same : tool.name = other.name) :
    tool = other := by
  cases tool <;> cases other <;> first | rfl | cases same

end Tool

def heard : List (Except Str Str) → List Str
  | .ok line :: reader => line :: heard reader
  | _ => []

section

variable [FromStr]

/-- The line calls the tool on the text. -/
def Calls (line : Str) (tool : Tool) (text : Str) : Prop :=
  ∃ req params arguments, FromStr.fromStr line = some req ∧
    req.json.get "method".toList = some (.string "tools/call".toList) ∧
    req.json.get "params".toList = some params ∧
    params.get "name".toList = some (.string tool.name) ∧
    params.get "arguments".toList = some arguments ∧
    arguments.get tool.argument = some (.string text)

/-- The id a reply has to carry; a notification has none, and what is no JSON
is answered under `null`. -/
def requestId (line : Str) : Option Json :=
  match FromStr.fromStr line with
  | none => some .null
  | some req => req.json.get "id".toList

/-- The lines that wait for a reply. -/
def asked [CharTables] (reader : List (Except Str Str)) : List Str :=
  (heard reader).filter fun line =>
    trim line ≠ [] ∧ (requestId line).isSome

/-- A line calls one tool on one text. -/
theorem Calls.unique {line : Str} {tool other : Tool} {text again : Str}
    (left : Calls line tool text) (right : Calls line other again) :
    tool = other ∧ text = again := by
  obtain ⟨_, _, _, read, -, given, named, argued, found⟩ := left
  obtain ⟨_, _, _, readAgain, -, givenAgain, namedAgain, arguedAgain,
    foundAgain⟩ := right
  obtain rfl := Option.some.inj (read.symm.trans readAgain)
  obtain rfl := Option.some.inj (given.symm.trans givenAgain)
  obtain rfl := Option.some.inj (argued.symm.trans arguedAgain)
  have names := Json.string.inj (Option.some.inj (named.symm.trans namedAgain))
  obtain rfl := Tool.name_inj names
  exact ⟨rfl, Json.string.inj (Option.some.inj (found.symm.trans foundAgain))⟩

theorem calls_iff {line : Str} {req : SerdeJson.Value} {tool : Tool} {text : Str}
    (read : FromStr.fromStr line = some req) :
    Calls line tool text ↔
      req.json.get "method".toList = some (.string "tools/call".toList) ∧
        ((req.json.get "params".toList).getD .null).get "name".toList =
          some (.string tool.name) ∧
        ((((req.json.get "params".toList).getD .null).get
          "arguments".toList).getD .null).get tool.argument =
            some (.string text) := by
  constructor
  · rintro ⟨other, params, arguments, again, method, given, named, argued,
      text⟩
    obtain rfl := Option.some.inj (read.symm.trans again)
    rw [given]
    exact ⟨method, named, get_getD_null.mpr ⟨arguments, argued, text⟩⟩
  · rintro ⟨method, named, argued⟩
    obtain ⟨params, given, named⟩ := get_getD_null.mp named
    rw [given] at argued
    obtain ⟨arguments, argued, text⟩ := get_getD_null.mp argued
    exact ⟨req, params, arguments, read, method, given, named, argued, text⟩

end

section

variable [Base64Engine] [CharTables] [RegexCrate]

def Tool.verdict (config : Config) : Tool → Str → Verdict
  | .checkCommand, command => Gate.evaluate command config
  | .scanPrompt, prompt => Firewall.scanContent prompt .default

/-- The call is of this tool. -/
theorem toolsCall_of_name {params : Json} {tool : Tool} (config : Config)
    (named : params.get "name".toList = some (.string tool.name)) :
    toolsCall params config =
      (stringArg ((params.get "arguments".toList).getD .null)
        (String.ofList tool.argument)).map fun text =>
          toolResult (tool.verdict config text) := by
  rw [toolsCall, named]
  cases tool <;> rfl

theorem named_of_toolsCall {params result : Json} {config : Config}
    (called : toolsCall params config = .ok result) :
    ∃ tool : Tool, params.get "name".toList = some (.string tool.name) := by
  rw [toolsCall] at called
  cases found : (params.get "name".toList).bind Json.asStr with
  | none =>
      rw [found] at called
      cases called
  | some name =>
      rw [found] at called
      rw [bind_asStr_eq_some_iff] at found
      by_cases check : name = "check_command".toList
      · exact ⟨.checkCommand, by rw [found, check]; rfl⟩
      · by_cases scan : name = "scan_prompt".toList
        · exact ⟨.scanPrompt, by rw [found, scan]; rfl⟩
        · dsimp only at called
          rw [if_neg check, if_neg scan] at called
          cases called

/-- What a successful call was about. -/
theorem toolsCall_eq_ok_iff {params result : Json} {config : Config} :
    toolsCall params config = .ok result ↔
      ∃ (tool : Tool) (text : Str),
        params.get "name".toList = some (.string tool.name) ∧
        ((params.get "arguments".toList).getD .null).get tool.argument =
          some (.string text) ∧
        result = toolResult (tool.verdict config text) := by
  constructor
  · intro called
    obtain ⟨tool, named⟩ := named_of_toolsCall called
    rw [toolsCall_of_name config named] at called
    cases argued : stringArg ((params.get "arguments".toList).getD .null)
        (String.ofList tool.argument) with
    | error failure =>
        rw [argued] at called
        cases called
    | ok text =>
        rw [argued] at called
        rw [stringArg_eq_ok_iff, String.toList_ofList] at argued
        cases called
        exact ⟨tool, text, named, argued, rfl⟩
  · rintro ⟨tool, text, named, argued, rfl⟩
    rw [toolsCall_of_name config named,
      stringArg_eq_ok_iff.mpr (by rwa [String.toList_ofList])]
    rfl

theorem value_of_dispatch (method : Str) (params : Json) {id : Json}
    (config : Config) (named : IsValue id) :
    IsValue (dispatch method params id config) := by
  rw [dispatch]
  split_ifs
  · exact resultResponse_value named initializeResult_value
  · exact resultResponse_value named toolsListResult_value
  · cases called : toolsCall params config with
    | error failure => exact errorResponse_value named
    | ok result =>
        obtain ⟨tool, text, -, -, rfl⟩ := toolsCall_eq_ok_iff.mp called
        exact resultResponse_value named (toolResult_value _)
  · exact errorResponse_value named

variable [FromStr]

/-- A reply carries a verdict exactly if a tool was called, and it is the
verdict of that tool on the text of the call. -/
structure Answers (config : Config) (line : Str) (reply : Json) : Prop where
  id : reply.get "id".toList = requestId line
  one : (reply.get "result".toList).isSome ≠ (reply.get "error".toList).isSome
  verdict : ∀ found, (reply.get "result".toList).bind
      (Json.get "structuredContent".toList) = some found ↔
    ∃ tool text, Calls line tool text ∧
      found = structured (tool.verdict config text)

/-- The written line is read as the reply to the line, and as nothing else. -/
def Written (config : Config) (line written : Str) : Prop :=
  ∃ reply : SerdeJson.Value, Answers config line reply.json ∧
    ∀ reading : SerdeJson.Value,
      text reading.json = written ↔ SerdeJson.Reordered reply.json reading.json

variable {config : Config} {line : Str} {id : Json}

/-- A result without a verdict is no answer to a call. -/
theorem answers_result {result : Json} (named : requestId line = some id)
    (silent : ∀ tool text, ¬ Calls line tool text)
    (bare : result.get "structuredContent".toList = none) :
    Answers config line (resultResponse id result) where
  id := named.symm
  one := nofun
  verdict := by
    intro found
    have none : ((resultResponse id result).get "result".toList).bind
        (Json.get "structuredContent".toList) = none := bare
    rw [none]
    constructor
    · exact nofun
    · rintro ⟨tool, text, calls, -⟩
      exact absurd calls (silent tool text)

theorem answers_error {code : Int} {message : Str}
    (named : requestId line = some id)
    (silent : ∀ tool text, ¬ Calls line tool text) :
    Answers config line (errorResponse id code message) where
  id := named.symm
  one := nofun
  verdict := by
    intro found
    constructor
    · exact nofun
    · rintro ⟨tool, text, calls, -⟩
      exact absurd calls (silent tool text)

theorem answers_call {tool : Tool} {text : Str} (named : requestId line = some id)
    (calls : Calls line tool text) :
    Answers config line
      (resultResponse id (toolResult (tool.verdict config text))) where
  id := named.symm
  one := nofun
  verdict := by
    intro found
    constructor
    · intro carried
      exact ⟨tool, text, calls, (Option.some.inj carried).symm⟩
    · rintro ⟨other, again, callsAgain, rfl⟩
      obtain ⟨rfl, rfl⟩ := calls.unique callsAgain
      rfl

theorem dispatch_answers {req : SerdeJson.Value}
    (read : FromStr.fromStr line = some req)
    (named : requestId line = some id) :
    Answers config line (dispatch
      (((req.json.get "method".toList).bind Json.asStr).getD [])
      ((req.json.get "params".toList).getD .null) id config) := by
  generalize asked : ((req.json.get "method".toList).bind Json.asStr).getD [] =
    method
  have methodOf {tool : Tool} {text : Str} (calls : Calls line tool text) :
      method = "tools/call".toList := by
    rw [← asked, ((calls_iff read).mp calls).1]
    rfl
  rw [dispatch]
  split_ifs with hello list call
  · apply answers_result named
    · intro tool text calls
      exact absurd (hello.symm.trans (methodOf calls)) (by decide)
    · rfl
  · apply answers_result named
    · intro tool text calls
      exact absurd (list.symm.trans (methodOf calls)) (by decide)
    · rfl
  · have isCall : req.json.get "method".toList =
        some (.string "tools/call".toList) := by
      rw [← bind_asStr_eq_some_iff]
      cases found : (req.json.get "method".toList).bind Json.asStr with
      | none =>
          rw [found, call] at asked
          cases asked
      | some text =>
          rw [found, call] at asked
          exact congrArg some asked
    cases called : toolsCall ((req.json.get "params".toList).getD .null)
        config with
    | ok result =>
        obtain ⟨tool, text, given, argued, rfl⟩ :=
          toolsCall_eq_ok_iff.mp called
        apply answers_call named
        exact (calls_iff read).mpr ⟨isCall, given, argued⟩
    | error failure =>
        apply answers_error named
        intro tool text calls
        obtain ⟨-, given, argued⟩ := (calls_iff read).mp calls
        have fine : toolsCall ((req.json.get "params".toList).getD .null) config =
            .ok (toolResult (tool.verdict config text)) :=
          toolsCall_eq_ok_iff.mpr ⟨tool, text, given, argued, rfl⟩
        rw [called] at fine
        cases fine
  · apply answers_error named
    intro tool text calls
    exact absurd (methodOf calls) call

/-- Every line that waits for a reply has one, and no other line has. -/
theorem answer_eq (line : Str) (config : Config) :
    (answer line config).isSome = (requestId line).isSome := by
  rw [answer, requestId]
  cases FromStr.fromStr line with
  | none => rfl
  | some req => exact Option.isSome_map

theorem answers_of_answer {reply : Json}
    (answered : answer line config = some reply) :
    Answers config line reply := by
  rw [answer] at answered
  cases read : FromStr.fromStr line with
  | none =>
      rw [read] at answered
      cases answered
      apply answers_error
      · rw [requestId, read]
      · rintro tool text ⟨req, params, arguments, again, -⟩
        rw [read] at again
        cases again
  | some req =>
      rw [read] at answered
      obtain ⟨id, named, rfl⟩ := Option.map_eq_some_iff.mp answered
      apply dispatch_answers read
      rw [requestId, read]
      exact named

theorem value_of_answer {reply : Json}
    (answered : answer line config = some reply) :
    IsValue reply := by
  rw [answer] at answered
  cases read : FromStr.fromStr line with
  | none =>
      rw [read] at answered
      cases answered
      apply errorResponse_value
      constructor <;> simp
  | some req =>
      rw [read] at answered
      obtain ⟨id, named, rfl⟩ := Option.map_eq_some_iff.mp answered
      exact value_of_dispatch _ _ config (req.of_get named)

theorem written_of_answer {reply : Json}
    (answered : answer line config = some reply) :
    Written config line (text reply) := by
  obtain ⟨distinct, formed⟩ := value_of_answer answered
  refine ⟨⟨reply, distinct, formed⟩, answers_of_answer answered, ?_⟩
  intro reading
  rw [eq_comm]
  exact text_eq_iff ⟨reply, distinct, formed⟩ reading

/-! ## Runs -/

/-- The line is not answered. -/
theorem asked_cons_of_not (config : Config) {reader : List (Except Str Str)}
    (passed : trim line = [] ∨ answer line config = none) :
    asked (.ok line :: reader) = asked reader := by
  rw [asked, heard, List.filter_cons_of_neg]
  · rfl
  · rw [← answer_eq line config]
    rcases passed with blank | silent
    · simp [blank]
    · simp [silent]

theorem asked_cons_of_answer {reader : List (Except Str Str)} {reply : Json}
    (spoken : trim line ≠ []) (answered : answer line config = some reply) :
    asked (.ok line :: reader) = line :: asked reader := by
  rw [asked, heard, List.filter_cons_of_pos]
  · rfl
  · rw [← answer_eq line config]
    simp [spoken, answered]

/-- The output is the replies, each on a line of its own. -/
theorem serve_eq (config : Config) (reader : List (Except Str Str)) :
    ∃ replies, (serve config reader).1 =
        (replies.map text).flatMap (fun reply => reply ++ ['\n']) ∧
      List.Forall₂ (fun line reply => answer line config = some reply)
        (asked reader) replies := by
  induction reader with
  | nil => exact ⟨[], rfl, .nil⟩
  | cons read reader induction =>
      obtain ⟨replies, output, answered⟩ := induction
      cases read with
      | error failure => exact ⟨[], rfl, .nil⟩
      | ok line =>
          by_cases blank : trim line = []
          · refine ⟨replies, ?_, ?_⟩
            · rw [serve, if_pos blank, output]
            · rw [asked_cons_of_not config (.inl blank)]
              exact answered
          · cases here : answer line config with
            | none =>
                refine ⟨replies, ?_, ?_⟩
                · rw [serve, if_neg blank, handleLine, here]
                  exact output
                · rw [asked_cons_of_not config (.inr here)]
                  exact answered
            | some reply =>
                refine ⟨reply :: replies, ?_, ?_⟩
                · rw [serve, if_neg blank, handleLine, here]
                  simp [output]
                · rw [asked_cons_of_answer blank here]
                  exact .cons here answered

/-- A client that reads the output line by line is told, in the order of its
requests, the verdict on each text it has asked about. -/
theorem serve_answers (config : Config) (reader : List (Except Str Str)) :
    List.Forall₂ (Written config) (asked reader)
      (lines (serve config reader).1) := by
  obtain ⟨replies, output, answered⟩ := serve_eq config reader
  have values := answered.flip.imp fun reply line found =>
    And.intro (value_of_answer found) found
  have inline : ∀ written ∈ replies.map text, Inline written := by
    rw [List.forall_mem_map]
    intro reply member
    exact inline_text (((List.forall₂_and_left _ _).mp values).1 reply member).2
  rw [output, lines_flatMap inline, List.forall₂_map_right_iff]
  exact answered.imp fun line reply found => written_of_answer found

end

end TrustLayer.AgentGuard.Mcp
