import TrustLayer.ThemisAgents
import TrustLayer.ThemisBandClient.PythonBridge

/-!
# The socket of an agent

A thread reads the events of the shim and hands each reply to the request with
its reference.  A request waits in a list until its reply comes or its time is
up.
-/

namespace TrustLayer.ThemisBandClient

open TrustLayer.AgentGuard (Json)
open TrustLayer.Library hiding Json
open TrustLayer.SerdeJson (Parser fieldsFrom readDefault)
open TrustLayer.ThemisAgents (asU64)

/-! ## Events -/

inductive SocketError where
  | stdin (detail : Str)
  | joinTimeout (seconds : Nat)
  | shutDown
  deriving DecidableEq

structure BandSocketEvent where
  event : Str
  payload : Json
  tsMs : Int
  agentId : Str

namespace BandSocketEvent

def names : List Str :=
  ["event".toList, "payload".toList, "ts_ms".toList, "agent_id".toList]

/-- An array may lack the last two fields, which have defaults. -/
def fields : Json → Option (List (Option Json)) :=
  fieldsFrom 2 names

def read (json : Json) : Option BandSocketEvent := do
  match ← fields json with
  | [some event, some payload, tsMs, agentId] =>
      return {
        event := ← event.asStr
        payload
        tsMs := ← readDefault 0 Json.asI64 tsMs
        agentId := ← readDefault [] Json.asStr agentId }
  | _ => none

end BandSocketEvent

/-- `str::parse` of a `u64`. -/
def parseU64 (text : Str) : Option UInt64 :=
  asU64 (.number ((stripPrefix ['+'] text).getD text))

/-- The reference of a payload, a number or the text of one. -/
def payloadRef (payload : Json) : Option UInt64 :=
  let ref := payload.get "ref".toList
  (ref.bind asU64).or ((ref.bind Json.asStr).bind parseU64)

/-! ## The handle -/

/-- The sink is the one of a call. -/
structure PendingRequest where
  refId : UInt64
  call : Nat
  deriving DecidableEq

/-- The reader has the handle of the child's output, for as long as it runs.
`refs` are the references of the calls. -/
structure SocketHandle where
  stdin : Bool
  reader : Bool
  pending : List PendingRequest
  eventsObserved : UInt64
  refs : List UInt64
  deriving DecidableEq

def SocketHandle.spawn : SocketHandle :=
  { stdin := true, reader := true, pending := [], eventsObserved := 0
    refs := [] }

/-- `Vec::swap_remove`. -/
def swapRemove {α : Type} (entries : List α) (index : Nat) : List α :=
  match entries.getLast? with
  | none => []
  | some last => (entries.set index last).dropLast

/-- A line of the shim, without its end. -/
abbrev ShimLine := List UInt8

def ShimLine.text (line : ShimLine) : Option Str :=
  fromUtf8 (line.map byteChar)

/-- How a write to the shim ends; the detail is the text of the error. -/
inductive ShimWrite where
  | writeError (detail : Str)
  | flushError (detail : Str)
  | written
  deriving DecidableEq

/-- What happens during a call: the clock reading, the lines that are read in
front of the call, how the write ends, the lines that are read while the call
waits, and whether they are late. -/
structure SocketTurn where
  request : Json
  refId : UInt64
  early : List ShimLine
  write : ShimWrite
  awaited : List ShimLine
  late : Bool
  timeoutSecs : Nat

namespace SocketHandle

section

variable [Parser]

/-- An event of the thread that reads: a reply goes to the call that waits for
it, anything else to the channel. -/
def observe (handle : SocketHandle) (event : BandSocketEvent) :
    SocketHandle × Option (Nat × Json) :=
  let handle := { handle with eventsObserved := handle.eventsObserved + 1 }
  if event.event = "phx_reply".toList then
    match payloadRef event.payload with
    | none => (handle, none)
    | some ref =>
        match handle.pending.findIdx? fun entry => entry.refId == ref with
        | none => (handle, none)
        | some index =>
            ({ handle with pending := swapRemove handle.pending index },
              handle.pending[index]?.map fun entry =>
                (entry.call, event.payload))
  else (handle, none)

/-- The body of the loop of the reader, which a line that is not UTF-8 ends. -/
def readLine (handle : SocketHandle) (line : ShimLine) :
    SocketHandle × Option (Nat × Json) :=
  if handle.reader = false then (handle, none)
  else
    match line.text with
    | none => ({ handle with reader := false }, none)
    | some text =>
        if text = [] then (handle, none)
        else
          match SerdeJson.fromStr "BandSocketEvent".toList BandSocketEvent.read
              text with
          | .error _ => (handle, none)
          | .ok event => handle.observe event

/-- The replies are listed as they are handed over. -/
def readLines (handle : SocketHandle) :
    List ShimLine → SocketHandle × List (Nat × Json)
  | [] => (handle, [])
  | line :: lines =>
      let (handle, reply?) := handle.readLine line
      let (handle, replies) := handle.readLines lines
      (handle, reply?.toList ++ replies)

/-- The handle as a call finds it, which counts the call. -/
def begin (handle : SocketHandle) (turn : SocketTurn) : SocketHandle :=
  let (handle, _) := handle.readLines turn.early
  { handle with refs := handle.refs ++ [turn.refId] }

/-- The request of a call is registered in front of the write. -/
def register (handle : SocketHandle) (turn : SocketTurn) (call : Nat) :
    SocketHandle :=
  { handle with
    pending := handle.pending ++ [{ refId := turn.refId, call }] }

/-- Whether the reply came or not, the request waits no longer. -/
def awaitReply (handle : SocketHandle) (turn : SocketTurn) (call : Nat) :
    Except SocketError Json × SocketHandle :=
  let (handle, replies) := handle.readLines turn.awaited
  let handle := { handle with
    pending := handle.pending.filter fun entry => entry.refId ≠ turn.refId }
  match turn.late, replies.lookup call with
  | false, some payload => (.ok payload, handle)
  | _, _ => (.error (.joinTimeout turn.timeoutSecs), handle)

/-- `send_request_raw_blocking`. -/
def sendRequest (handle : SocketHandle) (turn : SocketTurn) :
    Except SocketError Json × SocketHandle :=
  let call := handle.refs.length
  let handle := handle.begin turn
  match turn.request with
  | .object _ =>
      let handle := handle.register turn call
      if handle.stdin = false then (.error .shutDown, handle)
      else
        -- the write end is out of its slot until the write has succeeded
        match turn.write with
        | .writeError detail =>
            (.error (.stdin detail), { handle with stdin := false })
        | .flushError detail =>
            (.error (.stdin ("flush: ".toList ++ detail)),
              { handle with stdin := false })
        | .written => handle.awaitReply turn call
  | _ =>
      (.error (.stdin "send_request: req must be a JSON object".toList), handle)

def step (handle : SocketHandle) (turn : SocketTurn) : Option SocketHandle :=
  some (handle.sendRequest turn).2

/-! ## What the reader leaves -/

omit [Parser] in
theorem mem_of_mem_swapRemove {α : Type} {entries : List α} {index : Nat}
    {entry : α} (member : entry ∈ swapRemove entries index) :
    entry ∈ entries := by
  unfold swapRemove at member
  split at member
  · cases member
  · rename_i last found
    rcases List.mem_or_eq_of_mem_set (List.dropLast_subset _ member) with
      kept | rfl
    · exact kept
    · exact List.mem_of_getLast? found

/-- What the reader does to a handle: the requests that wait grow fewer, and
each reply has the reference of a request that waited. -/
structure ReadsOn (before after : SocketHandle) (replies : List (Nat × Json)) :
    Prop where
  stdin : after.stdin = before.stdin
  refs : after.refs = before.refs
  pending : ∀ entry ∈ after.pending, entry ∈ before.pending
  matched : ∀ reply ∈ replies, ∃ entry ∈ before.pending,
    entry.call = reply.1 ∧ payloadRef reply.2 = some entry.refId

omit [Parser] in
theorem ReadsOn.refl (handle : SocketHandle) : ReadsOn handle handle [] :=
  ⟨rfl, rfl, fun _ member => member, nofun⟩

omit [Parser] in
theorem ReadsOn.trans {before middle after : SocketHandle}
    {replies later : List (Nat × Json)} (first : ReadsOn before middle replies)
    (second : ReadsOn middle after later) :
    ReadsOn before after (replies ++ later) := by
  refine ⟨second.stdin.trans first.stdin, second.refs.trans first.refs,
    fun entry member => first.pending entry (second.pending entry member), ?_⟩
  intro reply member
  rcases List.mem_append.mp member with early | late
  · exact first.matched reply early
  · obtain ⟨entry, waits, sink, ref⟩ := second.matched reply late
    exact ⟨entry, first.pending entry waits, sink, ref⟩

omit [Parser] in
theorem observe_readsOn (handle : SocketHandle) (event : BandSocketEvent) :
    ReadsOn handle (handle.observe event).1
        (handle.observe event).2.toList ∧
      (handle.observe event).1.reader = handle.reader := by
  have counted : ReadsOn handle { handle with
      eventsObserved := handle.eventsObserved + 1 } [] :=
    ⟨rfl, rfl, fun _ member => member, nofun⟩
  rw [observe]
  split_ifs with isReply
  · split
    · exact ⟨counted, rfl⟩
    · rename_i ref carried
      split
      · exact ⟨counted, rfl⟩
      · rename_i index found
        refine ⟨⟨rfl, rfl, fun _ => mem_of_mem_swapRemove, ?_⟩, rfl⟩
        intro reply member
        obtain ⟨bound, matches_, -⟩ :=
          List.findIdx?_eq_some_iff_getElem.mp found
        simp only [List.getElem?_eq_getElem bound, Option.map_some,
          Option.toList_some, List.mem_singleton] at member
        subst member
        refine ⟨handle.pending[index], List.getElem_mem bound, rfl, ?_⟩
        rw [carried, eq_of_beq matches_]
  · exact ⟨counted, rfl⟩

theorem readLine_readsOn (handle : SocketHandle) (line : ShimLine) :
    ReadsOn handle (handle.readLine line).1
        (handle.readLine line).2.toList ∧
      (line.text.isSome → (handle.readLine line).1.reader = handle.reader) := by
  rw [readLine]
  split_ifs with stopped
  · exact ⟨.refl handle, fun _ => rfl⟩
  · split
    · rename_i invalid
      exact ⟨⟨rfl, rfl, fun _ member => member, nofun⟩,
        fun valid => by simp [invalid] at valid⟩
    · split_ifs with blank
      · exact ⟨.refl handle, fun _ => rfl⟩
      · split
        · exact ⟨.refl handle, fun _ => rfl⟩
        · rename_i event read
          obtain ⟨reads, same⟩ := observe_readsOn handle event
          exact ⟨reads, fun _ => same⟩

theorem readLines_readsOn (handle : SocketHandle) (lines : List ShimLine) :
    ReadsOn handle (handle.readLines lines).1 (handle.readLines lines).2 ∧
      ((∀ line ∈ lines, line.text.isSome) →
        (handle.readLines lines).1.reader = handle.reader) := by
  induction lines generalizing handle with
  | nil => exact ⟨.refl handle, fun _ => rfl⟩
  | cons line lines induction =>
      obtain ⟨first, firstReader⟩ := readLine_readsOn handle line
      obtain ⟨later, laterReader⟩ := induction (handle.readLine line).1
      refine ⟨first.trans later, fun valid => ?_⟩
      rw [List.forall_mem_cons] at valid
      exact (laterReader valid.2).trans (firstReader valid.1)

/-! ## What a call leaves -/

/-- The write end is back, the reader runs, no request waits, and what is
returned has the reference of no earlier call. -/
structure Usable (before : SocketHandle) (turn : SocketTurn)
    (after : SocketHandle) : Prop where
  stdin : after.stdin = true
  reader : after.reader = true
  pending : after.pending = []
  current : ∀ payload, (before.sendRequest turn).1 = .ok payload →
    ∀ earlier ∈ before.refs, payloadRef payload ≠ some earlier

omit [Parser] in
/-- A request is written, under a reference of its own, and the lines of the
shim are UTF-8. -/
structure Calm (before : SocketHandle) (turn : SocketTurn) : Prop where
  valid : ∀ line ∈ turn.early ++ turn.awaited, line.text.isSome
  sent : ∀ fields, turn.request = .object fields →
    turn.write = .written ∧ turn.refId ∉ before.refs

/-- Nothing is missing, and nothing waits. -/
structure Ready (handle : SocketHandle) : Prop where
  stdin : handle.stdin = true
  reader : handle.reader = true
  pending : handle.pending = []

omit [Parser] in
theorem spawn_ready : Ready spawn :=
  ⟨rfl, rfl, rfl⟩

variable {before : SocketHandle} {turn : SocketTurn}

theorem begin_ready (ready : Ready before) (calm : Calm before turn) :
    Ready (before.begin turn) := by
  obtain ⟨reads, same⟩ := readLines_readsOn before turn.early
  have valid : ∀ line ∈ turn.early, line.text.isSome := fun line member =>
    calm.valid line (List.mem_append_left _ member)
  refine ⟨reads.stdin.trans ready.stdin, (same valid).trans ready.reader,
    List.eq_nil_iff_forall_not_mem.mpr fun entry member => ?_⟩
  have waited := reads.pending entry member
  rw [ready.pending] at waited
  cases waited

/-- A call waits alone, and does so no longer when it returns. -/
theorem awaitReply_ready {handle : SocketHandle} {call : Nat}
    (ready : Ready handle) (calm : Calm before turn) :
    Ready ((handle.register turn call).awaitReply turn call).2 := by
  obtain ⟨reads, same⟩ :=
    readLines_readsOn (handle.register turn call) turn.awaited
  have valid : ∀ line ∈ turn.awaited, line.text.isSome := fun line member =>
    calm.valid line (List.mem_append_right _ member)
  have emptied : (((handle.register turn call).readLines
      turn.awaited).1.pending.filter fun entry =>
        entry.refId ≠ turn.refId) = [] := by
    apply List.filter_eq_nil_iff.mpr
    intro entry member
    have waited := reads.pending entry member
    rw [register, ready.pending, List.nil_append, List.mem_singleton] at waited
    simp [waited]
  rw [awaitReply]
  simp only
  split <;> exact ⟨reads.stdin.trans ready.stdin,
    (same valid).trans ready.reader, emptied⟩

theorem payloadRef_of_awaitReply {handle : SocketHandle} {call : Nat}
    {payload : Json} (ready : Ready handle)
    (returned :
      ((handle.register turn call).awaitReply turn call).1 = .ok payload) :
    payloadRef payload = some turn.refId := by
  rw [awaitReply] at returned
  simp only at returned
  split at returned
  · rename_i other late found
    obtain rfl := Except.ok.inj returned
    obtain ⟨front, back, replies, -⟩ := List.lookup_eq_some_iff.mp found
    obtain ⟨reads, -⟩ :=
      readLines_readsOn (handle.register turn call) turn.awaited
    obtain ⟨entry, waits, -, ref⟩ :=
      reads.matched (call, other) (by simp [replies])
    rw [register, ready.pending, List.nil_append, List.mem_singleton] at waits
    rw [ref, waits]
  · cases returned

/-- A calm call is refused, or is registered and waits for its reply. -/
theorem sendRequest_of_calm (ready : Ready before)
    (calm : Calm before turn) :
    (∃ error, before.sendRequest turn = (.error error, before.begin turn)) ∨
      turn.refId ∉ before.refs ∧
        before.sendRequest turn =
          ((before.begin turn).register turn before.refs.length).awaitReply turn
            before.refs.length := by
  rw [sendRequest]
  split
  · rename_i fields isObject
    obtain ⟨written, fresh⟩ := calm.sent fields isObject
    have open_ : ¬ ((before.begin turn).register turn
        before.refs.length).stdin = false := by
      simp [register, (begin_ready ready calm).stdin]
    simp only [open_, written]
    exact .inr ⟨fresh, rfl⟩
  · exact .inl ⟨_, rfl⟩

theorem sendRequest_ready (ready : Ready before) (calm : Calm before turn) :
    Ready (before.sendRequest turn).2 := by
  have begun := begin_ready ready calm
  rcases sendRequest_of_calm ready calm with ⟨error, refused⟩ | ⟨-, awaits⟩
  · rw [refused]
    exact begun
  · rw [awaits]
    exact awaitReply_ready begun calm

/-- What is returned has the reference of the call. -/
theorem payloadRef_of_returned (ready : Ready before)
    (calm : Calm before turn) {payload : Json}
    (returned : (before.sendRequest turn).1 = .ok payload) :
    payloadRef payload = some turn.refId ∧ turn.refId ∉ before.refs := by
  rcases sendRequest_of_calm ready calm with ⟨error, refused⟩ | ⟨fresh, awaits⟩
  · rw [refused] at returned
    cases returned
  · rw [awaits] at returned
    exact ⟨payloadRef_of_awaitReply (begin_ready ready calm) returned, fresh⟩

/-- As long as the requests are written under their own references, every call
leaves the socket usable. -/
theorem usable_of_calm {turns : List SocketTurn} (ready : Ready before)
    (calm : EachStep step (fun handle turn _ => Calm handle turn) before
      turns) :
    EachStep step Usable before turns := by
  refine EachStep.of_invariant ?_ ?_ ready calm
  · intro handle turn next isReady happens isCalm
    obtain rfl := Option.some.inj happens
    exact sendRequest_ready isReady isCalm
  · intro handle turn next isReady happens isCalm
    obtain rfl := Option.some.inj happens
    have readyAgain := sendRequest_ready isReady isCalm
    refine ⟨readyAgain.stdin, readyAgain.reader, readyAgain.pending, ?_⟩
    intro payload returned earlier member same
    obtain ⟨ref, fresh⟩ := payloadRef_of_returned isReady isCalm returned
    obtain rfl := Option.some.inj (ref.symm.trans same)
    exact fresh member

end

end SocketHandle

/-! ## Both transports -/

section

variable [Parser]

/-- Whatever the child does, each call of a run leaves its transport usable. -/
def AlwaysUsable : Prop :=
  (∀ turns, EachStep PythonBandBridge.step PythonBandBridge.Usable .spawn
      turns) ∧
    ∀ turns, EachStep SocketHandle.step SocketHandle.Usable .spawn turns

/-- A child that answers each request by one line in time, and a shim that
takes each request, leave their transports usable after every call. -/
theorem usable_of_answered {turns : List Turn} {socketTurns : List SocketTurn}
    (prompt : EachStep PythonBandBridge.step
      (fun bridge turn _ => PythonBandBridge.Prompt bridge turn) .spawn turns)
    (calm : EachStep SocketHandle.step
      (fun handle turn _ => SocketHandle.Calm handle turn) .spawn
      socketTurns) :
    EachStep PythonBandBridge.step PythonBandBridge.Usable .spawn turns ∧
      EachStep SocketHandle.step SocketHandle.Usable .spawn socketTurns :=
  ⟨PythonBandBridge.usable_of_prompt PythonBandBridge.spawn_ready prompt,
    SocketHandle.usable_of_calm SocketHandle.spawn_ready calm⟩

end

/-! ## A prompt answer, and a late one -/

/-- The parser of a child that writes nothing but empty objects. -/
@[reducible] def emptyObjects : Parser where
  tree text := if text = "\x7b\x7d".toList then some (.object []) else none
  textError _ _ := "expected value".toList
  valueError _ _ := []

/-- A line of a single byte in front of its end, which answers a call. -/
def shortLine (call : Nat) (byte : UInt8) : List Octet :=
  [⟨call, byte⟩, ⟨call, 0x0A⟩]

/-- A call that the child answers by a line that is no JSON. -/
def malformedTurn (call : Nat) : Turn :=
  { delivery := .delivered, output := shortLine call 0x78, late := false
    lookahead := 8192, timeoutSecs := 5, elapsedMs := 3 }

def lateTurn : Turn :=
  { malformedTurn 0 with late := true }

/-- A request that no reply comes to in time. -/
def silentTurn (refId : UInt64) : SocketTurn :=
  { request := .object [], refId, early := [], write := .written
    awaited := [], late := true, timeoutSecs := 5 }

section

attribute [local instance] emptyObjects

theorem malformedTurn_prompt {bridge : PythonBandBridge} {call : Nat}
    (current : bridge.calls = call) :
    PythonBandBridge.Prompt bridge (malformedTurn call) := by
  have valid : (fromUtf8 [byteChar 0x78, byteChar 0x0A]).isSome := by decide
  refine ⟨fun failed => absurd rfl failed, fun _ => ⟨rfl, ?_⟩, ?_⟩
  · exact ⟨shortLine call 0x78, [], rfl, valid, Nat.zero_le _⟩
  · simp [malformedTurn, shortLine, current]

theorem silentTurn_calm {handle : SocketHandle} {refId : UInt64}
    (fresh : refId ∉ handle.refs) :
    SocketHandle.Calm handle (silentTurn refId) :=
  ⟨nofun, fun _ _ => ⟨rfl, fresh⟩⟩

/-- Malformed lines and a reply that does not come do no harm. -/
theorem malformedTurns_usable :
    EachStep PythonBandBridge.step PythonBandBridge.Usable .spawn
        [malformedTurn 0, malformedTurn 1] ∧
      EachStep SocketHandle.step SocketHandle.Usable .spawn
        [silentTurn 1, silentTurn 2] := by
  refine usable_of_answered ?_ ?_
  · exact .cons rfl (malformedTurn_prompt rfl)
      (.cons rfl (malformedTurn_prompt (by decide)) trivial)
  · exact .cons rfl (silentTurn_calm (by decide))
      (.cons rfl (silentTurn_calm (by decide)) trivial)

/-- A line that is late takes the handle of the output with it. -/
theorem lateTurn_not_alwaysUsable : ¬ AlwaysUsable := by
  intro usable
  obtain ⟨after, -⟩ := usable.1 [lateTurn] _ rfl
  exact absurd after.stdout (by decide)

end

end TrustLayer.ThemisBandClient
