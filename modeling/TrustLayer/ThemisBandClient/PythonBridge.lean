import TrustLayer.Library.Runs
import TrustLayer.SerdeJson.Derive
import TrustLayer.TlVerify

/-!
# The bridge to the Python child

A call takes the two handles of the child out of their slots, writes a line and
reads one.  Each byte of the pipe knows which call the child answers with it.
-/

namespace TrustLayer.ThemisBandClient

open TrustLayer.AgentGuard (Json)
open TrustLayer.Library hiding Json
open TrustLayer.SerdeJson (Parser)
open TrustLayer.TlVerify (number)

/-! ## The child -/

/-- A byte of the child, and the call that it answers. -/
structure Octet where
  call : Nat
  byte : UInt8
  deriving DecidableEq

/-- The bytes up to the first line feed, and those behind it. -/
def firstLine : List Octet → Option (List Octet × List Octet)
  | [] => none
  | octet :: rest =>
      if octet.byte = 0x0A then some ([octet], rest)
      else (firstLine rest).map fun found => (octet :: found.1, found.2)

theorem mem_of_firstLine {pipe line behind : List Octet}
    (found : firstLine pipe = some (line, behind)) :
    ∀ octet ∈ line, octet ∈ pipe := by
  induction pipe generalizing line behind with
  | nil => cases found
  | cons first rest induction =>
      rw [firstLine] at found
      split_ifs at found with feed
      · obtain ⟨rfl, -⟩ := Prod.mk.inj (Option.some.inj found)
        intro octet member
        rw [List.mem_singleton.mp member]
        exact List.mem_cons_self
      · obtain ⟨⟨line, behind⟩, later, same⟩ := Option.map_eq_some_iff.mp found
        obtain ⟨rfl, -⟩ := Prod.mk.inj same
        intro octet member
        rcases List.mem_cons.mp member with rfl | inRest
        · exact List.mem_cons_self
        · exact List.mem_cons_of_mem _ (induction later octet inRest)

def textOf (line : List Octet) : Option Str :=
  fromUtf8 (line.map fun octet => byteChar octet.byte)

/-- How far a request comes; the detail is the text of the error. -/
inductive Delivery where
  | encodeError (detail : Str)
  | writeError (detail : Str)
  | flushError (detail : Str)
  | delivered
  deriving DecidableEq

/-- What happens during a call: what the child writes until it returns, whether
the line is late, and how many bytes behind the line the reader takes along. -/
structure Turn where
  delivery : Delivery
  output : List Octet
  late : Bool
  lookahead : Nat
  timeoutSecs : Nat
  elapsedMs : UInt64
  deriving DecidableEq

/-! ## The bridge -/

structure BridgeStats where
  requestsTotal : UInt64
  errorsTotal : UInt64
  latencyMsSum : UInt64
  latencyMsPeak : UInt64
  deriving DecidableEq

/-- The slots hold a handle or are empty.  `calls` counts the calls. -/
structure PythonBandBridge where
  stdin : Bool
  stdout : Bool
  pipe : List Octet
  stats : BridgeStats
  calls : Nat
  deriving DecidableEq

def PythonBandBridge.spawn : PythonBandBridge :=
  { stdin := true, stdout := true, pipe := []
    stats := { requestsTotal := 0, errorsTotal := 0, latencyMsSum := 0
               latencyMsPeak := 0 }
    calls := 0 }

def BridgeStats.recordOutcome (stats : BridgeStats) (elapsedMs : UInt64)
    (ok : Bool) : BridgeStats :=
  { requestsTotal := stats.requestsTotal + 1
    errorsTotal := if ok then stats.errorsTotal else stats.errorsTotal + 1
    latencyMsSum := stats.latencyMsSum + elapsedMs
    latencyMsPeak := max stats.latencyMsPeak elapsedMs }

/-- What the thread that reads gives back, if it does in time. -/
inductive LineRead where
  | timeout
  | none
  | some (text : Str) (rest : List Octet)

/-- A line that is not UTF-8 fails to be read. -/
def readLine (pipe : List Octet) (turn : Turn) : LineRead :=
  match firstLine pipe with
  | none => .timeout
  | some (line, behind) =>
      if turn.late then .timeout
      else
        match textOf line with
        | none => .none
        | some text => .some text (behind.drop turn.lookahead)

namespace PythonBandBridge

def recordOutcome (bridge : PythonBandBridge) (turn : Turn) (ok : Bool) :
    PythonBandBridge :=
  { bridge with stats := bridge.stats.recordOutcome turn.elapsedMs ok }

section

variable [Parser]

/-- `send_request_with_timeout`, with the text of a `BandError::Transport`. -/
def sendRequest (bridge : PythonBandBridge) (turn : Turn) :
    Except Str Json × PythonBandBridge :=
  let bridge := { bridge with
    pipe := bridge.pipe ++ turn.output, calls := bridge.calls + 1 }
  if bridge.stdin = false then (.error "bridge shut down".toList, bridge)
  else if bridge.stdout = false then
    -- the handle that was taken goes with the error
    (.error "bridge shut down".toList, { bridge with stdin := false })
  else
    match turn.delivery with
    | .encodeError detail =>
        (.error ("encode request: ".toList ++ detail),
          bridge.recordOutcome turn false)
    | .writeError detail =>
        (.error ("stdin write: ".toList ++ detail),
          bridge.recordOutcome turn false)
    | .flushError detail =>
        (.error ("stdin flush: ".toList ++ detail),
          bridge.recordOutcome turn false)
    | .delivered =>
        match readLine bridge.pipe turn with
        | .timeout =>
            (.error ("timeout waiting for response (".toList ++
              number turn.timeoutSecs ++ "s)".toList),
              { bridge.recordOutcome turn false with stdout := false })
        | .none =>
            (.error "child closed stdout".toList,
              { bridge.recordOutcome turn false with stdout := false })
        | .some text rest =>
            let bridge := { bridge with pipe := rest }
            match SerdeJson.fromStr "Value".toList some (trim text) with
            | .ok value => (.ok value, bridge.recordOutcome turn true)
            | .error error =>
                (.error ("parse response: ".toList ++ error),
                  bridge.recordOutcome turn false)

def step (bridge : PythonBandBridge) (turn : Turn) : Option PythonBandBridge :=
  some (bridge.sendRequest turn).2

/-! ## What a call leaves -/

/-- The line whose value a call returns. -/
def returned (bridge : PythonBandBridge) (turn : Turn) : List Octet :=
  match (bridge.sendRequest turn).1, firstLine (bridge.pipe ++ turn.output) with
  | .ok _, some (line, _) => line
  | _, _ => []

/-- The handles are back, and what is returned answers no earlier call. -/
structure Usable (before : PythonBandBridge) (turn : Turn)
    (after : PythonBandBridge) : Prop where
  stdin : after.stdin = true
  stdout : after.stdout = true
  current : ∀ octet ∈ before.returned turn, before.calls ≤ octet.call

omit [Parser] in
/-- The child answers a request that it gets with one line, in time and in
UTF-8, and writes nothing else that the reader leaves behind. -/
structure Prompt (before : PythonBandBridge) (turn : Turn) : Prop where
  mute : turn.delivery ≠ .delivered → turn.output = []
  answers : turn.delivery = .delivered → turn.late = false ∧
    ∃ line behind, firstLine turn.output = some (line, behind) ∧
      (textOf line).isSome ∧ behind.length ≤ turn.lookahead
  own : ∀ octet ∈ turn.output, octet.call = before.calls

/-- Both slots are full, and nothing is left in the pipe. -/
structure Ready (bridge : PythonBandBridge) : Prop where
  stdin : bridge.stdin = true
  stdout : bridge.stdout = true
  pipe : bridge.pipe = []

omit [Parser] in
theorem spawn_ready : Ready spawn :=
  ⟨rfl, rfl, rfl⟩

variable {before after : PythonBandBridge} {turn : Turn}

/-- Between prompt answers, both slots are filled again and the pipe is read
out. -/
theorem sendRequest_ready (ready : Ready before)
    (prompt : Prompt before turn) : Ready (before.sendRequest turn).2 := by
  obtain ⟨stdin, stdout, pipe⟩ := ready
  rw [sendRequest]
  simp only [stdin, stdout, pipe, List.nil_append, Bool.true_eq_false, if_false]
  cases delivery : turn.delivery with
  | encodeError detail =>
      exact ⟨rfl, rfl, prompt.mute (by simp [delivery])⟩
  | writeError detail =>
      exact ⟨rfl, rfl, prompt.mute (by simp [delivery])⟩
  | flushError detail =>
      exact ⟨rfl, rfl, prompt.mute (by simp [delivery])⟩
  | delivered =>
      obtain ⟨punctual, line, behind, found, valid, short⟩ :=
        prompt.answers delivery
      obtain ⟨text, decoded⟩ := Option.isSome_iff_exists.mp valid
      have read : readLine turn.output turn = .some text [] := by
        simp [readLine, found, punctual, decoded, List.drop_eq_nil_of_le short]
      simp only [read]
      cases SerdeJson.fromStr "Value".toList some (trim text) with
      | ok value => exact ⟨rfl, rfl, rfl⟩
      | error error => exact ⟨rfl, rfl, rfl⟩

theorem returned_current (ready : Ready before) (prompt : Prompt before turn) :
    ∀ octet ∈ before.returned turn, before.calls ≤ octet.call := by
  intro octet member
  rw [returned, ready.pipe, List.nil_append] at member
  split at member
  · rename_i line behind _ found
    exact (prompt.own octet (mem_of_firstLine found octet member)).ge
  · cases member

/-- As long as the child is prompt, every call leaves the bridge usable. -/
theorem usable_of_prompt {turns : List Turn} (ready : Ready before)
    (prompt : EachStep step (fun bridge turn _ => Prompt bridge turn) before
      turns) :
    EachStep step Usable before turns := by
  refine EachStep.of_invariant ?_ ?_ ready prompt
  · intro bridge turn next isReady happens isPrompt
    obtain rfl := Option.some.inj happens
    exact sendRequest_ready isReady isPrompt
  · intro bridge turn next isReady happens isPrompt
    obtain rfl := Option.some.inj happens
    have readyAgain := sendRequest_ready isReady isPrompt
    exact ⟨readyAgain.stdin, readyAgain.stdout,
      returned_current isReady isPrompt⟩

end

end PythonBandBridge

end TrustLayer.ThemisBandClient
