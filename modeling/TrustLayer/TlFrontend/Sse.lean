import TrustLayer.Library.Lines
import TrustLayer.Library.Runs
import TrustLayer.ThemisAgents

/-!
# The stream of the cost log

A browser gets the rows that the log has, and then what the tail task sends.
The task reads the log, the requests read the log, and rows are appended, each
in steps of its own.
-/

namespace TrustLayer.TlFrontend

open TrustLayer.Library hiding Json

/-! ## Rows -/

/-- Readers outside the repository.  An instant counts nanoseconds; an error is
its text. -/
class CostTexts where
  parseFromRfc3339 : (text : Str) → Except Str Int
  parseF64 : (text : Str) → Except Str F64

structure CostLogRow where
  timestamp : Int
  agent : Str
  provider : Str
  model : Str
  tokensIn : UInt32
  tokensOut : UInt32
  cachedInputTokens : UInt32
  costUsd : F64
  deriving DecidableEq

def CostLogRow.headers : List Str :=
  ["timestamp".toList, "agent".toList, "provider".toList, "model".toList,
    "tokens_in".toList, "tokens_out".toList, "cached_input_tokens".toList,
    "cost_usd".toList]

inductive CostLogSchemaError where
  | missingField (column : Str)
  | badTimestamp (text error : Str)
  | badNumber (column error : Str)

def parseDigits : (value : Nat) → Str → Except Str UInt32
  | value, [] => .ok (UInt32.ofNat value)
  | value, char :: rest =>
      let next := value * 10 + (char.toNat - 48)
      if ¬ isAsciiDigit char then .error "invalid digit found in string".toList
      else if 2 ^ 32 ≤ next then
        .error "number too large to fit in target type".toList
      else parseDigits next rest

/-- `str::parse` of a `u32`, with the text of a `ParseIntError`. -/
def parseU32 : Str → Except Str UInt32
  | [] => .error "cannot parse integer from empty string".toList
  | ['+'] => .error "invalid digit found in string".toList
  | '+' :: digits => parseDigits 0 digits
  | digits => parseDigits 0 digits

def trimEnd (text : Str) : Str :=
  text.rdropWhile isWhitespace

def nextPart (column : Str) :
    List Str → Except CostLogSchemaError (Str × List Str)
  | [] => .error (.missingField column)
  | part :: parts => .ok (part, parts)

def nextU32 (column : Str) (parts : List Str) :
    Except CostLogSchemaError (UInt32 × List Str) := do
  let (text, parts) ← nextPart column parts
  let value ← (parseU32 text).mapError (.badNumber column)
  return (value, parts)

section

variable [CostTexts]

/-- Columns behind the last one are passed over. -/
def CostLogRow.fromCsvLine (line : Str) :
    Except CostLogSchemaError CostLogRow := do
  let parts := splitChar ',' (trimEnd line)
  let (ts, parts) ← nextPart "timestamp".toList parts
  let timestamp ← (CostTexts.parseFromRfc3339 ts).mapError (.badTimestamp ts)
  let (agent, parts) ← nextPart "agent".toList parts
  let (provider, parts) ← nextPart "provider".toList parts
  let (model, parts) ← nextPart "model".toList parts
  let (tokensIn, parts) ← nextU32 "tokens_in".toList parts
  let (tokensOut, parts) ← nextU32 "tokens_out".toList parts
  let (cachedInputTokens, parts) ← nextU32 "cached_input_tokens".toList parts
  let (cost, _) ← nextPart "cost_usd".toList parts
  let costUsd ← (CostTexts.parseF64 cost).mapError
    (.badNumber "cost_usd".toList)
  return { timestamp, agent, provider, model, tokensIn, tokensOut
           cachedInputTokens, costUsd }

def rowOf (line : Str) : Option CostLogRow :=
  (CostLogRow.fromCsvLine line).toOption

def isHeader (first : Str) : Bool :=
  (splitChar ',' first).length == CostLogRow.headers.length &&
    "timestamp,".toList.isPrefixOf (trimStart first)

def parseLater (line : Str) : Option CostLogRow :=
  if trim line = [] then none else rowOf line

def parseCsv (raw : Str) : List CostLogRow :=
  match lines raw with
  | [] => []
  | first :: rest =>
      (if isHeader first then [] else (rowOf first).toList) ++
        rest.filterMap parseLater

end

/-! ## The log, its tail and its browsers -/

structure CostLog where
  text : Str
  mtime : Nat

/-- Where the loop of the tail task stands: it sleeps, has found the log
changed, or has rows to send. -/
inductive TailPhase where
  | sleeping
  | changed
  | sending (rows : List CostLogRow)

def TailPhase.remaining : TailPhase → List CostLogRow
  | .sending rows => rows
  | _ => []

/-- `tail_cost_log`.  `lastRead` keeps the rows that it read last. -/
structure TailTask where
  lastLen : Nat
  lastMtime : Option Nat
  phase : TailPhase
  lastRead : List CostLogRow

/-- A browser: whether it is subscribed, the rows of its replay and of the
channel that it has still to receive, and the rows that it has received. -/
structure Client where
  browser : Nat
  subscribed : Bool
  replay : List CostLogRow
  queue : List CostLogRow
  received : List CostLogRow

structure AppState where
  log : Option CostLog
  tail : TailTask
  clients : List Client

def channelCapacity : Nat := 256

/-- `fails` is an error of the file system other than a missing file. -/
inductive SseEvent where
  | append (text : Str) (mtime : Nat)
  | checkLog (fails : Bool)
  | readLog (fails : Bool)
  | send
  | connect (browser : Nat) (fails : Bool)
  | subscribe (browser : Nat)
  | receive (browser : Nat)
  | leave (browser : Nat)

def textOf : Option CostLog → Str
  | none => []
  | some log => log.text

def appendLog (log : Option CostLog) (text : Str) (mtime : Nat) : CostLog :=
  { text := textOf log ++ text, mtime }

namespace Client

/-- What a lagging receiver has missed is gone. -/
def offer (client : Client) (row : CostLogRow) : Client :=
  if client.subscribed then
    { client with
      queue := (client.queue ++ [row]).drop
        (client.queue.length + 1 - channelCapacity) }
  else client

/-- The replay comes first. -/
def receive (client : Client) : Client :=
  match client.replay, client.queue with
  | row :: replay, _ =>
      { client with replay, received := client.received ++ [row] }
  | [], row :: queue =>
      { client with queue, received := client.received ++ [row] }
  | [], [] => client

/-- The rows that were handed to a client. -/
def given (client : Client) : List CostLogRow :=
  client.received ++ client.replay ++ client.queue

end Client

namespace TailTask

/-- The look at the metadata that ends a sleep. -/
def checkLog (tail : TailTask) (log : Option CostLog) (fails : Bool) :
    TailTask :=
  match log, fails with
  | some log, false =>
      if tail.lastMtime = some log.mtime ∧ byteLen log.text = tail.lastLen then
        tail
      else
        { tail with
          lastMtime := some log.mtime, lastLen := byteLen log.text
          phase := .changed }
  | _, _ => tail

end TailTask

section

variable [CostTexts]

def rowsOf (log : Option CostLog) : List CostLogRow :=
  parseCsv (textOf log)

def readExistingRows (log : Option CostLog) (fails : Bool) :
    List CostLogRow :=
  if fails then [] else rowsOf log

def TailTask.readLog (tail : TailTask) (log : Option CostLog) (fails : Bool) :
    TailTask :=
  match log, fails with
  | some log, false =>
      { tail with
        phase := .sending (parseCsv log.text), lastRead := parseCsv log.text }
  | _, _ => { tail with phase := .sleeping }

namespace AppState

def new (log : Option CostLog) : AppState :=
  { log
    tail := { lastLen := byteLen (textOf log), lastMtime := none
              phase := .sleeping, lastRead := [] }
    clients := [] }

def update (state : AppState) (browser : Nat) (change : Client → Client) :
    AppState :=
  { state with
    clients := state.clients.map fun client =>
      if client.browser = browser then change client else client }

def step (state : AppState) : SseEvent → Option AppState
  | .append text mtime =>
      some { state with log := some (appendLog state.log text mtime) }
  | .checkLog fails =>
      match state.tail.phase with
      | .sleeping =>
          some { state with tail := state.tail.checkLog state.log fails }
      | _ => none
  | .readLog fails =>
      match state.tail.phase with
      | .changed =>
          some { state with tail := state.tail.readLog state.log fails }
      | _ => none
  | .send =>
      match state.tail.phase with
      | .sending [] =>
          some { state with tail := { state.tail with phase := .sleeping } }
      | .sending (row :: rows) =>
          some { state with
            tail := { state.tail with phase := .sending rows }
            clients := state.clients.map fun client => client.offer row }
      | _ => none
  | .connect browser fails =>
      if state.clients.any fun client => client.browser = browser then none
      else
        some { state with
          clients := state.clients ++
            [{ browser, subscribed := false
               replay := readExistingRows state.log fails
               queue := [], received := [] }] }
  | .subscribe browser =>
      some (state.update browser fun client =>
        { client with subscribed := true })
  | .receive browser =>
      some (state.update browser fun client =>
        if client.subscribed then client.receive else client)
  | .leave browser =>
      some { state with
        clients := state.clients.filter fun client =>
          client.browser ≠ browser }

/-! ## What is delivered -/

/-- A poll would find nothing that the tail has not read and sent. -/
structure Quiet (state : AppState) : Prop where
  sleeping : state.tail.phase = .sleeping
  unchanged : state.tail.checkLog state.log false = state.tail

/-- The rows of the log, in its order and each of them once: a subscribed
client is on its way through them, and is at their end when nothing is left to
receive. -/
def DeliversOnce (state : AppState) : Prop :=
  ∀ client ∈ state.clients, client.subscribed →
    client.received <+: rowsOf state.log ∧
      (Quiet state → client.replay = [] → client.queue = [] →
        client.received = rowsOf state.log)

/-- What the tail has read is in a client's hands, or has still to be sent and
goes on from there. -/
def Joins (tail : TailTask) (given : List CostLogRow) : Prop :=
  (tail.phase.remaining = [] ∧ tail.lastRead <+: given) ∨
    given ++ tail.phase.remaining = tail.lastRead

/-- An append keeps the rows of the log.  The tail reads the log while no
subscribed client has been given a row, and sends while none is behind by a
whole channel.  A client subscribes with a replay that joins what the tail has
read. -/
def Undisturbed (state : AppState) : SseEvent → Prop
  | .append text mtime =>
      rowsOf state.log <+: rowsOf (some (appendLog state.log text mtime))
  | .readLog fails =>
      fails = false ∧
        ∀ client ∈ state.clients, client.subscribed → client.given = []
  | .send =>
      ∀ client ∈ state.clients, client.subscribed →
        client.queue.length < channelCapacity
  | .subscribe browser =>
      ∀ client ∈ state.clients, client.browser = browser →
        Joins state.tail client.given
  | _ => True

/-- A client has rows of the log, and those that it lacks are to come. -/
structure Placed (log : Option CostLog) (tail : TailTask) (client : Client) :
    Prop where
  within : client.given <+: rowsOf log
  joins : client.subscribed → Joins tail client.given

/-- What the tail knows of the log. -/
structure TailKnows (log : Option CostLog) (tail : TailTask) : Prop where
  within : tail.lastRead <+: rowsOf log
  length : tail.lastMtime.isSome → tail.lastLen ≤ byteLen (textOf log)
  read : tail.phase ≠ .changed → tail.lastMtime.isSome →
    tail.lastLen = byteLen (textOf log) → tail.lastRead = rowsOf log

structure Consistent (state : AppState) : Prop where
  tail : TailKnows state.log state.tail
  clients : ∀ client ∈ state.clients, Placed state.log state.tail client

/-! ## Steps -/

omit [CostTexts] in
theorem eq_nil_of_byteLen {text : Str} (empty : byteLen text = 0) :
    text = [] := by
  cases text with
  | nil => rfl
  | cons char rest =>
      rw [byteLen, asBytes_cons, List.length_append] at empty
      exact absurd (List.eq_nil_of_length_eq_zero (by omega))
        (asBytes_ne_nil char)

theorem new_consistent (log : Option CostLog) : Consistent (new log) where
  tail := ⟨List.nil_prefix, nofun, fun _ isSome => by cases isSome⟩
  clients := nofun

variable {state : AppState}

theorem Consistent.append (consistent : Consistent state) {text : Str}
    {mtime : Nat}
    (kept : rowsOf state.log <+: rowsOf (some (appendLog state.log text mtime))) :
    Consistent { state with
      log := some (appendLog state.log text mtime) } := by
  have longer : byteLen (textOf (some (appendLog state.log text mtime))) =
      byteLen (textOf state.log) + byteLen text :=
    byteLen_append _ _
  refine ⟨⟨consistent.tail.within.trans kept, fun seen => ?_,
    fun settled seen same => ?_⟩, fun client member => ?_⟩
  · rw [longer]
    exact (consistent.tail.length seen).trans (Nat.le_add_right _ _)
  · -- a log of the same length is the same
    have bound := consistent.tail.length seen
    simp only [longer] at same
    obtain rfl : text = [] := eq_nil_of_byteLen (by omega)
    rw [consistent.tail.read settled seen (by omega)]
    simp [rowsOf, textOf, appendLog]
  · obtain ⟨within, joins⟩ := consistent.clients client member
    exact ⟨within.trans kept, joins⟩

theorem Consistent.checkLog (consistent : Consistent state)
    (sleeping : state.tail.phase = .sleeping) (fails : Bool) :
    Consistent { state with tail := state.tail.checkLog state.log fails } := by
  unfold TailTask.checkLog
  split
  · rename_i log isLog
    split_ifs with same
    · exact consistent
    · refine ⟨⟨consistent.tail.within, fun _ => ?_,
        fun settled => absurd rfl settled⟩, fun client member => ?_⟩
      · simp [isLog, textOf]
      · obtain ⟨within, joins⟩ := consistent.clients client member
        refine ⟨within, fun subscribed => ?_⟩
        simpa [Joins, sleeping, TailPhase.remaining] using joins subscribed
  · exact consistent

theorem Consistent.readLog (consistent : Consistent state)
    (fresh : ∀ client ∈ state.clients, client.subscribed → client.given = []) :
    Consistent { state with tail := state.tail.readLog state.log false } := by
  obtain ⟨⟨within, length, read⟩, clients⟩ := consistent
  cases isLog : state.log with
  | none =>
      rw [isLog] at within length read clients
      refine ⟨⟨within, length, fun _ _ _ => List.prefix_nil.mp within⟩,
        fun client member => ⟨(clients client member).within, ?_⟩⟩
      intro subscribed
      rw [fresh client member subscribed]
      exact .inl ⟨rfl, within⟩
  | some log =>
      rw [isLog] at length clients
      refine ⟨⟨List.prefix_refl _, length, fun _ _ _ => rfl⟩,
        fun client member => ⟨(clients client member).within, ?_⟩⟩
      intro subscribed
      rw [fresh client member subscribed]
      exact .inr rfl

theorem Consistent.sent (consistent : Consistent state)
    (sending : state.tail.phase = .sending []) :
    Consistent { state with
      tail := { state.tail with phase := .sleeping } } := by
  obtain ⟨⟨within, length, read⟩, clients⟩ := consistent
  have settled : state.tail.phase ≠ .changed := by simp [sending]
  refine ⟨⟨within, length, fun _ => read settled⟩, fun client member => ?_⟩
  refine ⟨(clients client member).within, fun subscribed => ?_⟩
  simpa [Joins, sending, TailPhase.remaining] using
    (clients client member).joins subscribed

/-- A row goes to the clients that lack it. -/
theorem Placed.offer {row : CostLogRow} {rows : List CostLogRow}
    {client : Client} (placed : Placed state.log state.tail client)
    (known : state.tail.lastRead <+: rowsOf state.log)
    (sending : state.tail.phase = .sending (row :: rows))
    (room : client.subscribed → client.queue.length < channelCapacity) :
    Placed state.log { state.tail with phase := .sending rows }
      (client.offer row) := by
  rw [Client.offer]
  split_ifs with subscribed
  · have joins := placed.joins subscribed
    simp only [Joins, sending, TailPhase.remaining, reduceCtorEq, false_and,
      false_or] at joins
    have none : client.queue.length + 1 - channelCapacity = 0 := by
      have := room subscribed
      omega
    have handed : Client.given { client with
        queue := client.queue ++ [row] } = client.given ++ [row] := by
      simp [Client.given]
    have onward : client.given ++ [row] ++ rows = state.tail.lastRead := by
      rw [← joins, List.append_assoc, List.singleton_append]
    rw [none, List.drop_zero]
    refine ⟨?_, fun _ => .inr ?_⟩
    · rw [handed]
      exact (List.prefix_iff_eq_append.mpr (by simp [← onward])).trans known
    · rw [handed]
      exact onward
  · exact ⟨placed.within, fun isSubscribed => absurd isSubscribed subscribed⟩

theorem Consistent.send (consistent : Consistent state)
    {row : CostLogRow} {rows : List CostLogRow}
    (sending : state.tail.phase = .sending (row :: rows))
    (room : ∀ client ∈ state.clients, client.subscribed →
      client.queue.length < channelCapacity) :
    Consistent { state with
      tail := { state.tail with phase := .sending rows }
      clients := state.clients.map fun client => client.offer row } := by
  obtain ⟨⟨within, length, read⟩, clients⟩ := consistent
  have settled : state.tail.phase ≠ .changed := by simp [sending]
  refine ⟨⟨within, length, fun _ => read settled⟩, fun client member => ?_⟩
  obtain ⟨before, known, rfl⟩ := List.mem_map.mp member
  exact (clients before known).offer within sending (room before known)

theorem Consistent.connect (consistent : Consistent state) (browser : Nat)
    (fails : Bool) :
    Consistent { state with
      clients := state.clients ++
        [{ browser, subscribed := false
           replay := readExistingRows state.log fails
           queue := [], received := [] }] } := by
  refine ⟨consistent.tail, fun client member => ?_⟩
  rcases List.mem_append.mp member with known | new
  · exact consistent.clients client known
  · rw [List.mem_singleton.mp new]
    refine ⟨?_, nofun⟩
    cases fails <;> simp [Client.given, readExistingRows]

/-- A change of a client that keeps what it was given. -/
theorem Consistent.update (consistent : Consistent state) {browser : Nat}
    {change : Client → Client}
    (given : ∀ client, (change client).given = client.given)
    (joins : ∀ client ∈ state.clients, client.browser = browser →
      (change client).subscribed → Joins state.tail client.given) :
    Consistent (state.update browser change) := by
  refine ⟨consistent.tail, fun client member => ?_⟩
  obtain ⟨before, known, rfl⟩ := List.mem_map.mp member
  obtain ⟨within, joined⟩ := consistent.clients before known
  split_ifs with same
  · refine ⟨?_, fun subscribed => ?_⟩
    · rw [given]
      exact within
    · rw [given]
      exact joins before known same subscribed
  · exact ⟨within, joined⟩

omit [CostTexts] in
theorem receive_given (client : Client) :
    client.receive.given = client.given := by
  rw [Client.receive]
  split <;> simp_all [Client.given]

theorem step_consistent {before after : AppState} {event : SseEvent}
    (consistent : Consistent before) (happens : step before event = some after)
    (undisturbed : Undisturbed before event) : Consistent after := by
  cases event with
  | append text mtime =>
      obtain rfl := Option.some.inj happens
      exact consistent.append undisturbed
  | checkLog fails =>
      simp only [step] at happens
      split at happens
      · rename_i sleeping
        obtain rfl := Option.some.inj happens
        exact consistent.checkLog sleeping fails
      · cases happens
  | readLog fails =>
      obtain ⟨rfl, fresh⟩ := undisturbed
      simp only [step] at happens
      split at happens
      · obtain rfl := Option.some.inj happens
        exact consistent.readLog fresh
      · cases happens
  | send =>
      simp only [step] at happens
      split at happens
      · rename_i sending
        obtain rfl := Option.some.inj happens
        exact consistent.sent sending
      · rename_i row rows sending
        obtain rfl := Option.some.inj happens
        exact consistent.send sending undisturbed
      · cases happens
  | connect browser fails =>
      simp only [step] at happens
      split_ifs at happens
      obtain rfl := Option.some.inj happens
      exact consistent.connect browser fails
  | subscribe browser =>
      obtain rfl := Option.some.inj happens
      exact consistent.update (fun _ => rfl)
        fun client member same _ => undisturbed client member same
  | receive browser =>
      obtain rfl := Option.some.inj happens
      refine consistent.update (fun client => ?_)
        fun client member _ subscribed => ?_
      · split_ifs
        · exact receive_given client
        · rfl
      · apply (consistent.clients client member).joins
        split_ifs at subscribed with already
        · exact already
        · exact absurd subscribed already
  | leave browser =>
      obtain rfl := Option.some.inj happens
      exact ⟨consistent.tail, fun client member =>
        consistent.clients client (List.mem_of_mem_filter member)⟩

/-! ## Runs -/

theorem Quiet.read (quiet : Quiet state) (consistent : Consistent state) :
    state.tail.lastRead = rowsOf state.log := by
  obtain ⟨sleeping, unchanged⟩ := quiet
  obtain ⟨⟨within, length, read⟩, -⟩ := consistent
  cases isLog : state.log with
  | none =>
      rw [isLog] at within
      exact List.prefix_nil.mp within
  | some log =>
      rw [isLog] at unchanged read
      simp only [TailTask.checkLog] at unchanged
      split_ifs at unchanged with same
      · exact read (by simp [sleeping]) (by simp [same.1]) same.2.symm
      · have woken := congrArg TailTask.phase unchanged
        rw [sleeping] at woken
        cases woken

theorem Consistent.deliversOnce (consistent : Consistent state) :
    DeliversOnce state := by
  intro client member subscribed
  obtain ⟨within, joins⟩ := consistent.clients client member
  refine ⟨?_, fun quiet noReplay noQueue => ?_⟩
  · refine List.IsPrefix.trans ?_ within
    rw [Client.given, List.append_assoc]
    exact List.prefix_append _ _
  · have received : client.received = client.given := by
      simp [Client.given, noReplay, noQueue]
    have through : state.tail.lastRead <+: client.given := by
      have none : state.tail.phase.remaining = [] := by
        rw [quiet.sleeping, TailPhase.remaining]
        nofun
      rcases joins subscribed with ⟨-, front⟩ | same
      · exact front
      · rw [none, List.append_nil] at same
        exact same ▸ List.prefix_refl _
    rw [quiet.read consistent] at through
    rw [received]
    exact within.eq_of_length_le through.length_le

variable {events : List SseEvent} {log : Option CostLog} {final : AppState}

theorem deliversOnce_of_undisturbed
    (undisturbed : EachStep step (fun before event _ => Undisturbed before event)
      (new log) events)
    (reached : runFrom step (new log) events = some final) :
    DeliversOnce final := by
  have consistent : Consistent final := undisturbed.keeps
    (fun _ _ _ => step_consistent) (new_consistent log) reached
  exact consistent.deliversOnce

instance (tail : TailTask) (given : List CostLogRow) :
    Decidable (Joins tail given) :=
  inferInstanceAs (Decidable (_ ∨ _))

instance (event : SseEvent) : Decidable (Undisturbed state event) :=
  match event with
  | .append _ _ => inferInstanceAs (Decidable (_ <+: _))
  | .readLog _ => inferInstanceAs (Decidable (_ ∧ _))
  | .send => inferInstanceAs (Decidable (∀ _ ∈ _, _))
  | .subscribe _ => inferInstanceAs (Decidable (∀ _ ∈ _, _))
  | .checkLog _ | .connect _ _ | .receive _ | .leave _ =>
      inferInstanceAs (Decidable True)

end AppState

end

/-! ## A new log, and one with a row -/

section

/-- The instant and the cost of the sample row. -/
@[reducible] def sampleTexts : CostTexts where
  parseFromRfc3339 text :=
    if text = "2026-06-18T12:34:56Z".toList then .ok 1781786096000000000
    else .error "input contains invalid characters".toList
  parseF64 text :=
    if text = "0.010500".toList then .ok ⟨0x3F85810624DD2F1B⟩
    else .error "invalid float literal".toList

attribute [local instance] sampleTexts

def sampleLine : Str :=
  "2026-06-18T12:34:56Z,fraud-auditor,aiml,claude-sonnet-4-6,1500,420,".toList ++
    "1200,0.010500\n".toList

/-- A browser from the time before the first row. -/
def earlyBrowser : List SseEvent :=
  [.connect 0 false, .subscribe 0, .append sampleLine 1, .checkLog false,
    .readLog false, .send, .receive 0]

/-- A browser from the time before the first poll. -/
def hastyBrowser : List SseEvent :=
  [.connect 0 false, .subscribe 0, .receive 0, .checkLog false, .readLog false,
    .send, .receive 0]

theorem earlyBrowser_undisturbed :
    EachStep AppState.step
      (fun before event _ => AppState.Undisturbed before event) (.new none)
      earlyBrowser := by
  apply EachStep.cons rfl (by decide)
  apply EachStep.cons rfl (by decide)
  apply EachStep.cons rfl (by decide)
  apply EachStep.cons rfl (by decide)
  apply EachStep.cons rfl (by decide)
  apply EachStep.cons rfl (by decide)
  exact EachStep.cons rfl (by decide) trivial

theorem earlyBrowser_deliversOnce :
    ∃ final, runFrom AppState.step (.new none) earlyBrowser = some final ∧
      AppState.DeliversOnce final :=
  ⟨_, rfl, AppState.deliversOnce_of_undisturbed earlyBrowser_undisturbed rfl⟩

/-- The first poll sends again what was replayed. -/
theorem hastyBrowser_not_deliversOnce :
    ¬ ∀ log events final, runFrom AppState.step (.new log) events = some final →
      AppState.DeliversOnce final := by
  intro delivers
  have delivered := delivers (some ⟨sampleLine, 1⟩) hastyBrowser _ rfl
  obtain ⟨within, -⟩ := delivered _ List.mem_cons_self rfl
  revert within
  decide

end

end TrustLayer.TlFrontend
