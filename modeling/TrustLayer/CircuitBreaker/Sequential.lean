import TrustLayer.CircuitBreaker
import TrustLayer.Library.Recent

/-!
# Calls one after the other

A caller that has the breaker for itself sees every call as one step.  The
counter starts again only behind a trial, so that failures with successes
between them add up.
-/

namespace TrustLayer.Breaker

open TrustLayer.Library

inductive CircuitBreakerError (ε : Type) where
  | rejected (state : CircuitState)
  | inner (error : ε)

section

variable {α ε : Type}

namespace CircuitBreaker

/-- `f` is what the inner function returns, and the clock is read before and
behind it. -/
def call (breaker : CircuitBreaker) (f : Except ε α) (started returned : Nat) :
    Except (CircuitBreakerError ε) α × CircuitBreaker :=
  match breaker.gate started with
  | (false, breaker) => (.error (.rejected breaker.state), breaker)
  | (true, breaker) =>
      match f with
      | .ok value => (.ok value, breaker.recordSuccess)
      | .error error =>
          let (failures, breaker) := breaker.countFailure
          (.error (.inner error), breaker.recordFailure failures returned)

variable {breaker : CircuitBreaker} {f : Except ε α} {value : α} {error : ε}
  {started returned openedAt : Nat}

theorem call_ok_of_closed (closed : breaker.state = .closed) :
    breaker.call (.ok value : Except ε α) started returned =
      (.ok value, breaker) := by
  simp [call, gate, recordSuccess, closed]

theorem call_error_of_closed (closed : breaker.state = .closed) :
    breaker.call (.error error : Except ε α) started returned =
      (.error (.inner error),
        { breaker with
          failures := breaker.failures + 1
          state := if breaker.threshold ≤ breaker.failures + 1
            then .opened returned else .closed }) := by
  simp only [call, gate, closed, countFailure, recordFailure, opensOn]
  by_cases reached : breaker.threshold ≤ breaker.failures + 1
  · simp [reached]
  · simp only [reached, decide_false, Bool.or_false, if_false, reduceCtorEq,
      Bool.false_eq_true]

theorem call_of_waiting (opened : breaker.state = .opened openedAt)
    (waits : ¬ breaker.timeout ≤ started - openedAt) :
    breaker.call f started returned =
      (.error (.rejected (.opened openedAt)), breaker) := by
  simp [call, gate, opened, waits]

theorem call_ok_of_opened (opened : breaker.state = .opened openedAt)
    (cooled : breaker.timeout ≤ started - openedAt) :
    breaker.call (.ok value : Except ε α) started returned =
      (.ok value, { breaker with state := .closed, failures := 0 }) := by
  simp [call, gate, opened, cooled, recordSuccess]

theorem call_error_of_opened (opened : breaker.state = .opened openedAt)
    (cooled : breaker.timeout ≤ started - openedAt) :
    breaker.call (.error error : Except ε α) started returned =
      (.error (.inner error),
        { breaker with
          failures := breaker.failures + 1
          state := .opened returned }) := by
  simp [call, gate, opened, cooled, countFailure, recordFailure, opensOn]

def IsOpen (breaker : CircuitBreaker) : Prop :=
  ∃ openedAt, breaker.state = .opened openedAt

end CircuitBreaker

/-- A call comes some time after the last one and lasts for some time. -/
structure Call (α ε : Type) where
  idle : Nat
  duration : Nat
  f : Except ε α

namespace Call

/-- The critical sections of the call, one after the other. -/
def events {κ : Type} (call : Call α ε) (caller : κ) (admitted : Bool) :
    List (Event κ) :=
  .tick call.idle :: .enter caller ::
    if admitted then
      match call.f with
      | .ok _ => [.tick call.duration, .succeed caller]
      | .error _ => [.tick call.duration, .fail caller, .settle caller]
    else [.reject caller]

/-- A call that no other one interrupts is a run of the interleaved callers. -/
theorem runFrom_events {κ : Type} [DecidableEq κ] {system : System κ}
    {caller : κ} (free : system.calls caller = none) (call : Call α ε) :
    ∃ final,
      runFrom Breaker.step system
          (call.events caller
            (system.breaker.gate (system.now + call.idle)).1) = some final ∧
        final.breaker =
          (system.breaker.call call.f (system.now + call.idle)
            (system.now + call.idle + call.duration)).2 ∧
        final.calls caller = none := by
  cases gated : system.breaker.gate (system.now + call.idle) with
  | mk admitted breaker =>
      cases admitted with
      | false =>
          simp [events, runFrom, Breaker.step, free, gated,
            CircuitBreaker.call]
      | true =>
          cases returns : call.f with
          | ok value =>
              simp [events, runFrom, Breaker.step, free, gated, returns,
                CircuitBreaker.call]
          | error error =>
              simp [events, runFrom, Breaker.step, free, gated, returns,
                CircuitBreaker.call]

end Call

/-! ## Sessions -/

/-- The history has the calls that were completed, and whether they failed. -/
structure Session where
  breaker : CircuitBreaker
  now : Nat
  history : List Bool

namespace Session

def start (breaker : CircuitBreaker) : Session :=
  { breaker, now := 0, history := [] }

/-- A rejected call runs nothing, and is none of the completed ones. -/
def step (session : Session) (call : Call α ε) : Option Session :=
  let started := session.now + call.idle
  let returned := started + call.duration
  let (answer, breaker) := session.breaker.call call.f started returned
  match answer with
  | .ok _ =>
      some { breaker, now := returned, history := session.history ++ [false] }
  | .error (.inner _) =>
      some { breaker, now := returned, history := session.history ++ [true] }
  | .error (.rejected _) => some { session with breaker, now := started }

/-- The call is let through at the instant. -/
def Admits (session : Session) (call : Call α ε) : Prop :=
  (session.breaker.gate (session.now + call.idle)).1 = true

/-- The breaker is Open exactly behind as many failures in a row as the
threshold says, a success starts the count again, and the breaker leaves Open
behind the cooldown through HalfOpen. -/
structure OnConsecutive (before : Session) (call : Call α ε)
    (after : Session) : Prop where
  opens : after.breaker.IsOpen ↔
    before.breaker.threshold.toNat ≤ trailing id after.history
  restarts : ∀ value, call.f = .ok value → before.Admits call →
    after.breaker.failures = 0
  leaves : ∀ openedAt, before.breaker.state = .opened openedAt →
    after.breaker = before.breaker ∨
      before.breaker.timeout ≤ before.now + call.idle - openedAt ∧
        (before.breaker.gate (before.now + call.idle)).2.state = .halfOpen

/-- No success finds the breaker Closed with failures on its counter. -/
def Unspoilt (before : Session) (call : Call α ε) : Prop :=
  before.breaker.state = .closed → ∀ value, call.f = .ok value →
    before.breaker.failures = 0

/-! ## Turns -/

/-- What a call that finds the breaker Closed or Open can do to it and to the
history. -/
inductive Turn (session : Session) (call : Call α ε) :
    CircuitBreaker → List Bool → Prop
  | passes (value : α) (closed : session.breaker.state = .closed)
      (returns : call.f = .ok value) :
      Turn session call session.breaker (session.history ++ [false])
  | fails (error : ε) (returned : Nat)
      (closed : session.breaker.state = .closed)
      (returns : call.f = .error error) :
      Turn session call
        { session.breaker with
          failures := session.breaker.failures + 1
          state := if session.breaker.threshold ≤ session.breaker.failures + 1
            then .opened returned else .closed }
        (session.history ++ [true])
  | waits (openedAt : Nat) (opened : session.breaker.state = .opened openedAt)
      (rejects : ¬ session.Admits call) :
      Turn session call session.breaker session.history
  | recovers (value : α) (openedAt : Nat)
      (opened : session.breaker.state = .opened openedAt)
      (cooled : session.breaker.timeout ≤ session.now + call.idle - openedAt)
      (returns : call.f = .ok value) :
      Turn session call
        { session.breaker with state := .closed, failures := 0 }
        (session.history ++ [false])
  | relapses (error : ε) (openedAt returned : Nat)
      (opened : session.breaker.state = .opened openedAt)
      (cooled : session.breaker.timeout ≤ session.now + call.idle - openedAt)
      (returns : call.f = .error error) :
      Turn session call
        { session.breaker with
          failures := session.breaker.failures + 1
          state := .opened returned }
        (session.history ++ [true])

variable {session next : Session} {call : Call α ε}

theorem step_turn (happens : session.step call = some next)
    (settled : session.breaker.state ≠ .halfOpen) :
    session.Turn call next.breaker next.history := by
  rw [step] at happens
  cases state : session.breaker.state with
  | halfOpen => exact absurd state settled
  | closed =>
      cases returns : call.f with
      | ok value =>
          simp only [returns, CircuitBreaker.call_ok_of_closed state] at happens
          cases happens
          exact .passes value state returns
      | error error =>
          simp only [returns, CircuitBreaker.call_error_of_closed state]
            at happens
          cases happens
          exact .fails error _ state returns
  | opened openedAt =>
      by_cases cooled :
        session.breaker.timeout ≤ session.now + call.idle - openedAt
      · cases returns : call.f with
        | ok value =>
            simp only [returns, CircuitBreaker.call_ok_of_opened state cooled]
              at happens
            cases happens
            exact .recovers value openedAt state cooled returns
        | error error =>
            simp only [returns, CircuitBreaker.call_error_of_opened state cooled]
              at happens
            cases happens
            exact .relapses error openedAt _ state cooled returns
      · simp only [CircuitBreaker.call_of_waiting state cooled] at happens
        cases happens
        apply Turn.waits openedAt state
        simp [Admits, CircuitBreaker.gate, state, cooled]

/-- A counter below the threshold does not wrap around. -/
theorem toNat_failures_succ {failures threshold : UInt32}
    (below : failures < threshold) :
    (failures + 1).toNat = failures.toNat + 1 := by
  have bound := UInt32.lt_iff_toNat_lt.mp below
  have limit := threshold.toNat_lt
  rw [UInt32.toNat_add]
  apply Nat.mod_eq_of_lt
  simp only [UInt32.toNat_one] at *
  omega

/-- The counter of a Closed breaker has the length of the last streak, and an
Open one has a streak of the threshold behind it. -/
structure Tracks (breaker : CircuitBreaker) (history : List Bool) : Prop where
  positive : 0 < breaker.threshold
  closed : breaker.state = .closed →
    breaker.failures.toNat = trailing id history ∧
      breaker.failures < breaker.threshold
  opened : breaker.IsOpen → breaker.threshold.toNat ≤ trailing id history
  settled : breaker.state ≠ .halfOpen

theorem Tracks.of_closed {breaker : CircuitBreaker} {history : List Bool}
    (positive : 0 < breaker.threshold) (closed : breaker.state = .closed)
    (counts : breaker.failures.toNat = trailing id history)
    (below : breaker.failures < breaker.threshold) :
    Tracks breaker history where
  positive := positive
  closed _ := ⟨counts, below⟩
  opened := by
    rintro ⟨openedAt, opened⟩
    cases closed.symm.trans opened
  settled := by
    rw [closed]
    exact CircuitState.noConfusion

theorem Tracks.of_opened {breaker : CircuitBreaker} {history : List Bool}
    {openedAt : Nat} (positive : 0 < breaker.threshold)
    (opened : breaker.state = .opened openedAt)
    (long : breaker.threshold.toNat ≤ trailing id history) :
    Tracks breaker history where
  positive := positive
  closed closed := by cases opened.symm.trans closed
  opened _ := long
  settled := by
    rw [opened]
    exact CircuitState.noConfusion

theorem Turn.tracks {breaker : CircuitBreaker} {history : List Bool}
    (turn : session.Turn call breaker history)
    (unspoilt : session.Unspoilt call)
    (tracks : Tracks session.breaker session.history) :
    Tracks breaker history := by
  cases turn with
  | passes value closed returns =>
      have none := unspoilt closed value returns
      refine .of_closed tracks.positive closed ?_ (tracks.closed closed).2
      rw [trailing_concat_of_neg (by simp), none]
      rfl
  | fails error returned closed returns =>
      obtain ⟨counts, below⟩ := tracks.closed closed
      have counted := toNat_failures_succ below
      rw [counts] at counted
      have streak := @trailing_concat_of_pos _ id session.history true rfl
      by_cases reached :
        session.breaker.threshold ≤ session.breaker.failures + 1
      · rw [if_pos reached]
        refine .of_opened tracks.positive rfl ?_
        rw [streak, ← counted]
        exact UInt32.le_iff_toNat_le.mp reached
      · rw [if_neg reached]
        refine .of_closed tracks.positive rfl ?_ (UInt32.not_le.mp reached)
        rw [streak, ← counted]
  | waits openedAt opened rejects => exact tracks
  | recovers value openedAt opened cooled returns =>
      refine .of_closed tracks.positive rfl ?_ tracks.positive
      rw [trailing_concat_of_neg (by simp)]
      rfl
  | relapses error openedAt returned opened cooled returns =>
      have streak := tracks.opened ⟨openedAt, opened⟩
      refine .of_opened tracks.positive rfl ?_
      rw [trailing_concat_of_pos rfl]
      exact streak.trans (Nat.le_succ _)

/-- A breaker that keeps track is Closed only behind a shorter streak. -/
theorem Tracks.isOpen_iff {breaker : CircuitBreaker} {history : List Bool}
    (tracks : Tracks breaker history) :
    breaker.IsOpen ↔ breaker.threshold.toNat ≤ trailing id history := by
  refine ⟨tracks.opened, fun long => ?_⟩
  cases state : breaker.state with
  | closed =>
      obtain ⟨counts, below⟩ := tracks.closed state
      rw [← counts] at long
      have shorter := UInt32.lt_iff_toNat_lt.mp below
      exact absurd long (Nat.not_le.mpr shorter)
  | halfOpen => exact absurd state tracks.settled
  | opened openedAt => exact ⟨openedAt, state⟩

theorem Turn.threshold_eq {breaker : CircuitBreaker} {history : List Bool}
    (turn : session.Turn call breaker history) :
    breaker.threshold = session.breaker.threshold := by
  cases turn <;> rfl

/-- A success leaves a Closed breaker as it was, with its counter. -/
theorem Turn.breaker_eq {breaker : CircuitBreaker} {history : List Bool}
    {value : α} (turn : session.Turn call breaker history)
    (closed : session.breaker.state = .closed)
    (returns : call.f = .ok value) : breaker = session.breaker := by
  cases turn with
  | passes value closed returns => rfl
  | fails error returned closed fails => cases returns.symm.trans fails
  | waits openedAt opened rejects => rfl
  | recovers value openedAt opened cooled returns =>
      cases closed.symm.trans opened
  | relapses error openedAt returned opened cooled fails =>
      cases returns.symm.trans fails

/-- The breaker leaves Open for the trial behind the cooldown. -/
theorem Turn.leaves {breaker : CircuitBreaker} {history : List Bool}
    {openedAt : Nat} (turn : session.Turn call breaker history)
    (opened : session.breaker.state = .opened openedAt) :
    breaker = session.breaker ∨
      session.breaker.timeout ≤ session.now + call.idle - openedAt ∧
        (session.breaker.gate (session.now + call.idle)).2.state =
          .halfOpen := by
  have trial : ∀ other, session.breaker.state = .opened other →
      session.breaker.timeout ≤ session.now + call.idle - other →
        session.breaker.timeout ≤ session.now + call.idle - openedAt ∧
          (session.breaker.gate (session.now + call.idle)).2.state =
            .halfOpen := by
    intro other same cooled
    cases opened.symm.trans same
    exact ⟨cooled, by simp [CircuitBreaker.gate, opened, cooled]⟩
  cases turn with
  | passes value closed returns => cases opened.symm.trans closed
  | fails error returned closed returns => cases opened.symm.trans closed
  | waits other same rejects => exact .inl rfl
  | recovers value other same cooled returns =>
      exact .inr (trial other same cooled)
  | relapses error other returned same cooled returns =>
      exact .inr (trial other same cooled)

/-- An admitted success finds the counter at zero or behind a trial. -/
theorem Turn.restarts {breaker : CircuitBreaker} {history : List Bool}
    {value : α} (turn : session.Turn call breaker history)
    (unspoilt : session.Unspoilt call) (returns : call.f = .ok value)
    (admits : session.Admits call) : breaker.failures = 0 := by
  cases turn with
  | passes value closed returns => exact unspoilt closed value returns
  | fails error returned closed fails => cases returns.symm.trans fails
  | waits openedAt opened rejects => exact absurd admits rejects
  | recovers value openedAt opened cooled returns => rfl
  | relapses error openedAt returned opened cooled fails =>
      cases returns.symm.trans fails

/-! ## Runs -/

/-- In every sequence of calls on a fresh breaker, the breaker follows the
streaks of failures exactly when no success finds failures on the counter of
the Closed breaker. -/
theorem onConsecutive_iff (threshold : UInt32) (positive : 0 < threshold)
    (timeout : Nat) (calls : List (Call α ε)) :
    EachStep step OnConsecutive (start (.withParams threshold timeout)) calls ↔
      EachStep step (fun before call _ => before.Unspoilt call)
        (start (.withParams threshold timeout)) calls := by
  constructor
  · intro each
    refine EachStep.of_invariant (fun _ _ _ _ _ _ => trivial) ?_ trivial each
    intro before call after _ happens law closed value returns
    have settled : before.breaker.state ≠ .halfOpen := by
      rw [closed]
      exact CircuitState.noConfusion
    have admits : before.Admits call := by
      rw [Admits, CircuitBreaker.gate, closed]
    have kept := (step_turn happens settled).breaker_eq closed returns
    rw [← kept]
    exact law.restarts value returns admits
  · intro each
    refine EachStep.of_invariant
      (fun before call after tracks happens unspoilt =>
        (step_turn happens tracks.settled).tracks unspoilt tracks)
      ?_ ?_ each
    · intro before call after tracks happens unspoilt
      have turn := step_turn happens tracks.settled
      refine
        { opens := ?_
          restarts := fun value => turn.restarts unspoilt
          leaves := fun openedAt => turn.leaves }
      rw [← turn.threshold_eq]
      exact (turn.tracks unspoilt tracks).isOpen_iff
    · exact Tracks.of_closed positive rfl rfl positive

end Session

end

namespace Session

def failing : Call Unit Unit := { idle := 1, duration := 0, f := .error () }

def succeeding : Call Unit Unit := { idle := 1, duration := 0, f := .ok () }

/-- Two failures in a row open the breaker, and a failed trial opens it
again. -/
theorem onConsecutive_iff_failing :
    EachStep step OnConsecutive (start (.withParams 2 30))
      [failing, failing, { failing with idle := 30 }] := by
  apply (onConsecutive_iff 2 (by decide) 30 _).mpr
  intro next happens
  cases happens
  refine ⟨nofun, fun next happens => ?_⟩
  cases happens
  refine ⟨nofun, fun next happens => ?_⟩
  cases happens
  exact ⟨nofun, trivial⟩

/-- Two failures, a success and one more failure open a breaker whose threshold
is three. -/
theorem spoilt_not_onConsecutive :
    (∃ session,
      runFrom step (start (.withParams 3 30))
          [failing, failing, succeeding, failing] = some session ∧
        session.breaker.IsOpen ∧ trailing id session.history = 1) ∧
      ¬ EachStep step OnConsecutive (start (.withParams 3 30))
        [failing, failing, succeeding, failing] := by
  constructor
  · exact ⟨_, rfl, ⟨4, rfl⟩, rfl⟩
  · intro each
    have law := eachStep_iff.mp each [failing, failing, succeeding] failing []
      _ _ rfl rfl rfl
    have streak := law.opens.mp ⟨4, rfl⟩
    exact absurd streak (by decide)

end Session

end TrustLayer.Breaker
