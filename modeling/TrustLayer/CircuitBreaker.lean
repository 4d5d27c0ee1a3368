import TrustLayer.Library.Runs
import Mathlib.Logic.Function.Basic

/-!
# The circuit breaker

The admission check of a call, its operation and the recording of its result
are separate critical sections.  Any number of callers interleave them.
-/

namespace TrustLayer.Breaker

open TrustLayer.Library

/-- `opened` is the source's `Open`. -/
inductive CircuitState where
  | closed
  | opened (openedAt : Nat)
  | halfOpen
  deriving DecidableEq

structure CircuitBreaker where
  threshold : UInt32
  timeout : Nat
  state : CircuitState
  failures : UInt32
  deriving DecidableEq

namespace CircuitBreaker

def defaultThreshold : UInt32 := 5

def defaultTimeout : Nat := 30

/-- The source asserts that the threshold is positive. -/
def withParams (threshold : UInt32) (timeout : Nat) : CircuitBreaker :=
  { threshold, timeout, state := .closed, failures := 0 }

def new : CircuitBreaker :=
  withParams defaultThreshold defaultTimeout

/-- The gate of `call`: whether the call is allowed. -/
def gate (breaker : CircuitBreaker) (now : Nat) : Bool × CircuitBreaker :=
  match breaker.state with
  | .closed => (true, breaker)
  | .halfOpen => (true, breaker)
  | .opened openedAt =>
      if now - openedAt ≥ breaker.timeout then
        (true, { breaker with state := .halfOpen })
      else (false, breaker)

/-- The section after a success. -/
def recordSuccess (breaker : CircuitBreaker) : CircuitBreaker :=
  if breaker.state = .halfOpen then
    { breaker with state := .closed, failures := 0 }
  else breaker

/-- `fetch_add` after a failure, before the lock is taken. -/
def countFailure (breaker : CircuitBreaker) : UInt32 × CircuitBreaker :=
  (breaker.failures + 1, { breaker with failures := breaker.failures + 1 })

/-- The two conditions under which a failure opens the breaker. -/
def opensOn (breaker : CircuitBreaker) (failures : UInt32) : Bool :=
  decide (breaker.state = .halfOpen) || decide (failures ≥ breaker.threshold)

/-- The section after a failure. -/
def recordFailure (breaker : CircuitBreaker) (failures : UInt32) (now : Nat) :
    CircuitBreaker :=
  if breaker.opensOn failures then { breaker with state := .opened now }
  else breaker

theorem gate_of_halfOpen {breaker : CircuitBreaker} (now : Nat)
    (half : breaker.state = .halfOpen) : breaker.gate now = (true, breaker) := by
  rw [gate, half]

/-- The gate moves the breaker only from Open to HalfOpen, for a call it
allows. -/
theorem gate_cases (breaker : CircuitBreaker) (now : Nat) :
    (breaker.gate now).2 = breaker ∨
      breaker.state ≠ .halfOpen ∧ (breaker.gate now).1 = true ∧
        (breaker.gate now).2.state = .halfOpen := by
  cases state : breaker.state with
  | closed => simp [gate, state]
  | halfOpen => simp [gate, state]
  | opened openedAt =>
      simp only [gate, state]
      split
      · exact .inr ⟨by simp, rfl, rfl⟩
      · exact .inl rfl

theorem recordSuccess_state (breaker : CircuitBreaker) :
    breaker.recordSuccess.state =
      if breaker.state = .halfOpen then .closed else breaker.state := by
  unfold recordSuccess
  split <;> rfl

theorem recordFailure_state (breaker : CircuitBreaker) (failures : UInt32)
    (now : Nat) :
    (breaker.recordFailure failures now).state =
      if breaker.opensOn failures then .opened now else breaker.state := by
  unfold recordFailure
  split <;> rfl

theorem opensOn_of_halfOpen {breaker : CircuitBreaker}
    (half : breaker.state = .halfOpen) (failures : UInt32) :
    breaker.opensOn failures = true := by
  simp [opensOn, half]

end CircuitBreaker

/-! ## Callers -/

/-- A call in flight.  `openings` counts the openings before its admission. -/
inductive Phase where
  | running (openings : Nat)
  | failed (failures : UInt32) (openings : Nat)
  | rejected
  deriving DecidableEq

/-- The breaker, the clock and the calls in flight, with two counters that the
code does not keep: the openings so far, and the operations admitted in the
latest HalfOpen period. -/
structure System (κ : Type) where
  breaker : CircuitBreaker
  now : Nat
  calls : κ → Option Phase
  openings : Nat
  trials : Nat

inductive Event (κ : Type) where
  | tick (elapsed : Nat)
  | enter (caller : κ)
  | reject (caller : κ)
  | succeed (caller : κ)
  | fail (caller : κ)
  | settle (caller : κ)
  deriving DecidableEq

section

variable {κ : Type}

def System.start (breaker : CircuitBreaker) : System κ :=
  { breaker, now := 0, calls := fun _ => none, openings := 0, trials := 0 }

/-- The trials of the period after an admission. -/
def trialsAfter (before after : CircuitState) (trials : Nat) : Nat :=
  if after = .halfOpen then if before = .halfOpen then trials + 1 else 1
  else trials

variable [DecidableEq κ]

/-- One critical section of one caller, or time that passes. -/
def step (system : System κ) : Event κ → Option (System κ)
  | .tick elapsed => some { system with now := system.now + elapsed }
  | .enter caller =>
      match system.calls caller with
      | some _ => none
      | none =>
          match system.breaker.gate system.now with
          | (true, breaker) =>
              some { system with
                breaker
                calls := Function.update system.calls caller
                  (some (.running system.openings))
                trials := trialsAfter system.breaker.state breaker.state
                  system.trials }
          | (false, breaker) =>
              some { system with
                breaker
                calls := Function.update system.calls caller
                  (some .rejected) }
  | .reject caller =>
      match system.calls caller with
      | some .rejected =>
          some { system with
            calls := Function.update system.calls caller none }
      | _ => none
  | .succeed caller =>
      match system.calls caller with
      | some (.running _) =>
          some { system with
            breaker := system.breaker.recordSuccess
            calls := Function.update system.calls caller none }
      | _ => none
  | .fail caller =>
      match system.calls caller with
      | some (.running openings) =>
          some { system with
            breaker := system.breaker.countFailure.2
            calls := Function.update system.calls caller
              (some (.failed system.breaker.countFailure.1 openings)) }
      | _ => none
  | .settle caller =>
      match system.calls caller with
      | some (.failed failures _) =>
          some { system with
            breaker := system.breaker.recordFailure failures system.now
            calls := Function.update system.calls caller none
            openings :=
              if system.breaker.opensOn failures then system.openings + 1
              else system.openings }
      | _ => none

/-! ## The law -/

omit [DecidableEq κ] in
/-- The call was admitted before the latest opening. -/
def Stale (system : System κ) (caller : κ) : Prop :=
  ∃ openings, openings < system.openings ∧
    (system.calls caller = some (.running openings) ∨
      ∃ failures, system.calls caller = some (.failed failures openings))

omit [DecidableEq κ] in
/-- The caller whose result the event records. -/
def Records (event : Event κ) (caller : κ) : Prop :=
  event = .succeed caller ∨ event = .settle caller

omit [DecidableEq κ] in
/-- The step leaves at most one trial in the HalfOpen period, and the result
of a stale call neither closes the breaker nor opens it again. -/
structure SingleTrial (before : System κ) (event : Event κ)
    (after : System κ) : Prop where
  single : after.breaker.state = .halfOpen → after.trials ≤ 1
  inert : ∀ caller, Records event caller → Stale before caller →
    (after.breaker.state = .closed → before.breaker.state = .closed) ∧
      after.openings = before.openings

omit [DecidableEq κ] in
/-- The branches that break the law are not taken: no admission check finds
the breaker HalfOpen, and the result of a stale call finds it neither HalfOpen
nor, when it is a failure, with the threshold reached. -/
structure Calm (before : System κ) (event : Event κ) : Prop where
  admission : ∀ caller, event = .enter caller →
    before.breaker.state ≠ .halfOpen
  success : ∀ caller, event = .succeed caller → Stale before caller →
    before.breaker.state ≠ .halfOpen
  failure : ∀ caller failures openings, event = .settle caller →
    Stale before caller →
      before.calls caller = some (.failed failures openings) →
        before.breaker.opensOn failures = false

/-! ## Steps -/

section

variable {system next : System κ} {caller : κ}

theorem step_enter (happens : step system (.enter caller) = some next) :
    next.breaker = (system.breaker.gate system.now).2 ∧
      next.openings = system.openings ∧
      next.trials =
        if (system.breaker.gate system.now).1 then
          trialsAfter system.breaker.state next.breaker.state system.trials
        else system.trials := by
  simp only [step] at happens
  split at happens
  · cases happens
  · split at happens
    · rename_i breaker gated
      cases happens
      simp [gated]
    · rename_i breaker gated
      cases happens
      simp [gated]

theorem step_succeed (happens : step system (.succeed caller) = some next) :
    next.breaker = system.breaker.recordSuccess ∧
      next.openings = system.openings ∧ next.trials = system.trials := by
  simp only [step] at happens
  split at happens
  · cases happens
    exact ⟨rfl, rfl, rfl⟩
  · cases happens

theorem step_settle (happens : step system (.settle caller) = some next) :
    ∃ failures openings,
      system.calls caller = some (.failed failures openings) ∧
        next.breaker = system.breaker.recordFailure failures system.now ∧
        next.trials = system.trials ∧
        next.openings =
          if system.breaker.opensOn failures then system.openings + 1
          else system.openings := by
  simp only [step] at happens
  split at happens
  · rename_i failures openings flight
    cases happens
    exact ⟨failures, openings, flight, rfl, rfl, rfl⟩
  · cases happens

/-- The other events leave the state of the breaker and both counters. -/
theorem step_quiet {event : Event κ} (happens : step system event = some next)
    (notEnter : ∀ caller, event ≠ .enter caller)
    (notRecord : ∀ caller, ¬ Records event caller) :
    next.breaker.state = system.breaker.state ∧
      next.openings = system.openings ∧ next.trials = system.trials := by
  cases event with
  | enter caller => exact absurd rfl (notEnter caller)
  | succeed caller => exact absurd (.inl rfl) (notRecord caller)
  | settle caller => exact absurd (.inr rfl) (notRecord caller)
  | tick elapsed =>
      cases happens
      exact ⟨rfl, rfl, rfl⟩
  | reject caller =>
      simp only [step] at happens
      split at happens
      · cases happens
        exact ⟨rfl, rfl, rfl⟩
      · cases happens
  | fail caller =>
      simp only [step] at happens
      split at happens
      · cases happens
        exact ⟨rfl, rfl, rfl⟩
      · cases happens

/-- A HalfOpen period starts with one trial, an admission adds one, and no
other step that stays HalfOpen changes the count. -/
theorem step_trials {event : Event κ} (happens : step system event = some next)
    (half : next.breaker.state = .halfOpen) :
    (system.breaker.state ≠ .halfOpen ∧ next.trials = 1) ∨
      system.breaker.state = .halfOpen ∧
        ((∃ caller, event = .enter caller) ∧ next.trials = system.trials + 1 ∨
          (∀ caller, event ≠ .enter caller) ∧ next.trials = system.trials) := by
  cases event with
  | enter caller =>
      obtain ⟨breaker, -, trials⟩ := step_enter happens
      rw [half] at trials
      rcases system.breaker.gate_cases system.now with same | ⟨was, allows, -⟩
      · rw [breaker, same] at half
        rw [CircuitBreaker.gate_of_halfOpen _ half, half] at trials
        exact .inr ⟨half, .inl ⟨⟨caller, rfl⟩, trials⟩⟩
      · rw [allows] at trials
        refine .inl ⟨was, trials.trans ?_⟩
        simp [trialsAfter, was]
  | succeed caller =>
      rw [(step_succeed happens).1, CircuitBreaker.recordSuccess_state] at half
      split at half
      · cases half
      · exact absurd half ‹_›
  | settle caller =>
      obtain ⟨failures, openings, -, breaker, -, -⟩ := step_settle happens
      rw [breaker, CircuitBreaker.recordFailure_state] at half
      split at half
      · cases half
      · exact absurd (CircuitBreaker.opensOn_of_halfOpen half failures) ‹_›
  | tick elapsed =>
      cases happens
      exact .inr ⟨half, .inr ⟨by simp, rfl⟩⟩
  | reject caller =>
      obtain ⟨state, -, trials⟩ :=
        step_quiet happens (by simp) (by simp [Records])
      exact .inr ⟨state ▸ half, .inr ⟨by simp, trials⟩⟩
  | fail caller =>
      obtain ⟨state, -, trials⟩ :=
        step_quiet happens (by simp) (by simp [Records])
      exact .inr ⟨state ▸ half, .inr ⟨by simp, trials⟩⟩

/-! ## Runs -/

/-- A calm step keeps a single trial in the HalfOpen period. -/
theorem calm_single {event : Event κ} (happens : step system event = some next)
    (calm : Calm system event)
    (before : system.breaker.state = .halfOpen → system.trials ≤ 1)
    (half : next.breaker.state = .halfOpen) : next.trials ≤ 1 := by
  rcases step_trials happens half with
    ⟨-, trials⟩ | ⟨was, ⟨⟨caller, enters⟩, -⟩ | ⟨-, trials⟩⟩
  · exact Nat.le_of_eq trials
  · exact absurd was (calm.admission caller enters)
  · exact trials ▸ before was

theorem calm_inert {event : Event κ} (happens : step system event = some next)
    (calm : Calm system event) (records : Records event caller)
    (stale : Stale system caller) :
    (next.breaker.state = .closed → system.breaker.state = .closed) ∧
      next.openings = system.openings := by
  rcases records with rfl | rfl
  · obtain ⟨breaker, openings, -⟩ := step_succeed happens
    have notHalf := calm.success caller rfl stale
    rw [breaker, CircuitBreaker.recordSuccess_state, if_neg notHalf]
    exact ⟨id, openings⟩
  · obtain ⟨failures, admitted, flight, breaker, -, openings⟩ :=
      step_settle happens
    have quiet := calm.failure caller failures admitted rfl stale flight
    rw [quiet] at openings
    rw [breaker, CircuitBreaker.recordFailure_state, quiet]
    exact ⟨id, openings⟩

/-- A step that keeps the law is calm, once the HalfOpen period has its first
trial. -/
theorem calm_of_singleTrial {event : Event κ}
    (happens : step system event = some next)
    (started : system.breaker.state = .halfOpen → 1 ≤ system.trials)
    (law : SingleTrial system event next) : Calm system event where
  admission := by
    rintro caller rfl half
    obtain ⟨breaker, -, trials⟩ := step_enter happens
    rw [CircuitBreaker.gate_of_halfOpen _ half] at breaker trials
    have after : next.breaker.state = .halfOpen := by rw [breaker, half]
    have counted : next.trials = system.trials + 1 := by
      rw [trials, after]
      simp [trialsAfter, half]
    have single := law.single after
    have first := started half
    omega
  success := by
    rintro caller rfl stale half
    have closes : next.breaker.state = .closed := by
      rw [(step_succeed happens).1, CircuitBreaker.recordSuccess_state,
        if_pos half]
    have closed := (law.inert caller (.inl rfl) stale).1 closes
    rw [half] at closed
    cases closed
  failure := by
    rintro caller failures admitted rfl stale flight
    obtain ⟨found, foundAdmitted, sameFlight, -, -, openings⟩ :=
      step_settle happens
    cases flight.symm.trans sameFlight
    have kept := (law.inert caller (.inr rfl) stale).2
    cases opens : system.breaker.opensOn failures with
    | false => rfl
    | true =>
        rw [opens, if_pos rfl] at openings
        omega

/-- In every run from a fresh breaker, by any callers in any interleaving, the
law holds at every step exactly when every step is calm. -/
theorem singleTrial_iff (threshold : UInt32) (timeout : Nat)
    (events : List (Event κ)) :
    EachStep step SingleTrial (.start (.withParams threshold timeout)) events ↔
      EachStep step (fun before event _ => Calm before event)
        (.start (.withParams threshold timeout)) events := by
  have started : ∀ (before : System κ) event (after : System κ),
      (before.breaker.state = .halfOpen → 1 ≤ before.trials) →
        step before event = some after →
          (after.breaker.state = .halfOpen → 1 ≤ after.trials) := by
    intro before event after earlier happens half
    have counted := step_trials happens half
    have first := earlier
    grind
  constructor
  · intro each
    refine EachStep.of_invariant
      (fun before event after earlier happens _ =>
        started before event after earlier happens)
      (fun before event after earlier happens law =>
        calm_of_singleTrial happens earlier law) ?_ each
    exact fun half => CircuitState.noConfusion half
  · intro each
    refine EachStep.of_invariant
      (fun before event after earlier happens calm =>
        calm_single happens calm earlier)
      (fun before event after earlier happens calm =>
        { single := calm_single happens calm earlier
          inert := fun _ records stale =>
            calm_inert happens calm records stale }) ?_ each
    exact fun half => CircuitState.noConfusion half

/-! ## Sequential callers -/

omit [DecidableEq κ] in
/-- A call starts only when no other is in flight. -/
def Sequential (before : System κ) (event : Event κ) : Prop :=
  ∀ caller, event = .enter caller → ∀ other, before.calls other = none

omit [DecidableEq κ] in
/-- At most one call is in flight, it is not stale, and a HalfOpen period has
its trial in flight. -/
structure Alone (system : System κ) : Prop where
  one : ∀ first second firstPhase secondPhase,
    system.calls first = some firstPhase →
      system.calls second = some secondPhase → first = second
  fresh : ∀ caller, ¬ Stale system caller
  trial : system.breaker.state = .halfOpen →
    ∃ caller phase, system.calls caller = some phase ∧ phase ≠ .rejected

omit [DecidableEq κ] in
theorem Alone.calm {event : Event κ} (alone : Alone system)
    (sequential : Sequential system event) : Calm system event where
  admission := by
    intro caller enters half
    obtain ⟨other, phase, flight, -⟩ := alone.trial half
    cases flight.symm.trans (sequential caller enters other)
  success := fun caller _ stale => absurd stale (alone.fresh caller)
  failure := fun caller _ _ _ stale => absurd stale (alone.fresh caller)

/-- Once the only call returns, none is in flight. -/
theorem Alone.update_none (alone : Alone system) {phase : Phase}
    (flight : system.calls caller = some phase) (other : κ) :
    Function.update system.calls caller none other = none := by
  by_cases same : other = caller
  · rw [same, Function.update_self]
  · rw [Function.update_of_ne same]
    cases calls : system.calls other with
    | none => rfl
    | some otherPhase =>
        exact absurd (alone.one other caller otherPhase phase calls flight) same

omit [DecidableEq κ] in
theorem Alone.of_idle (idle : ∀ caller, system.calls caller = none)
    (notHalf : system.breaker.state ≠ .halfOpen) : Alone system where
  one := by
    intro first second firstPhase secondPhase flight
    cases flight.symm.trans (idle first)
  fresh := by
    rintro caller ⟨openings, -, flight | ⟨failures, flight⟩⟩
    · cases flight.symm.trans (idle caller)
    · cases flight.symm.trans (idle caller)
  trial := fun half => absurd half notHalf

theorem step_calls_none (happens : step system (.succeed caller) = some next ∨
      step system (.settle caller) = some next ∨
      step system (.reject caller) = some next) :
    ∃ phase, system.calls caller = some phase ∧
      next.calls = Function.update system.calls caller none := by
  rcases happens with happens | happens | happens
  all_goals
    simp only [step] at happens
    split at happens
    · rename_i flight
      cases happens
      exact ⟨_, flight, rfl⟩
    · cases happens

theorem step_calls_enter (happens : step system (.enter caller) = some next) :
    next.calls = Function.update system.calls caller
      (some (if (system.breaker.gate system.now).1
        then .running system.openings else .rejected)) := by
  simp only [step] at happens
  split at happens
  · cases happens
  · split at happens
    · rename_i breaker gated
      cases happens
      simp [gated]
    · rename_i breaker gated
      cases happens
      simp [gated]

theorem step_calls_fail (happens : step system (.fail caller) = some next) :
    ∃ openings failures, system.calls caller = some (.running openings) ∧
      next.calls = Function.update system.calls caller
        (some (.failed failures openings)) := by
  simp only [step] at happens
  split at happens
  · rename_i openings flight
    cases happens
    exact ⟨openings, _, flight, rfl⟩
  · cases happens

/-- A flight after one call changed its phase is that call or an old one. -/
theorem flight_of_update {phase : Phase} {other : κ} {otherPhase : Phase}
    (flight : Function.update system.calls caller (some phase) other =
      some otherPhase) :
    other = caller ∧ otherPhase = phase ∨
      system.calls other = some otherPhase := by
  by_cases same : other = caller
  · subst same
    rw [Function.update_self] at flight
    exact .inl ⟨rfl, (Option.some.inj flight).symm⟩
  · rw [Function.update_of_ne same] at flight
    exact .inr flight

theorem Alone.enter (sequential : ∀ other, system.calls other = none)
    (happens : step system (.enter caller) = some next) : Alone next := by
  have calls := step_calls_enter happens
  obtain ⟨breaker, openings, -⟩ := step_enter happens
  have only : ∀ other phase, next.calls other = some phase → other = caller ∧
      phase = if (system.breaker.gate system.now).1
        then .running system.openings else .rejected := by
    intro other phase flight
    rw [calls] at flight
    rcases flight_of_update flight with found | old
    · exact found
    · cases old.symm.trans (sequential other)
  refine
    { one := fun first second firstPhase secondPhase firstFlight secondFlight =>
        (only first firstPhase firstFlight).1.trans
          (only second secondPhase secondFlight).1.symm
      fresh := ?_
      trial := fun half => ⟨caller, _, by rw [calls, Function.update_self], ?_⟩ }
  · rintro other ⟨admitted, earlier, flight | ⟨failures, flight⟩⟩
    · have phase := (only other _ flight).2
      split at phase
      · cases phase
        omega
      · cases phase
    · have phase := (only other _ flight).2
      split at phase <;> cases phase
  · have allows : (system.breaker.gate system.now).1 = true := by
      rcases system.breaker.gate_cases system.now with same | ⟨-, allows, -⟩
      · rw [breaker, same] at half
        rw [CircuitBreaker.gate_of_halfOpen _ half]
      · exact allows
    rw [allows, if_pos rfl]
    exact Phase.noConfusion

theorem Alone.fail (alone : Alone system)
    (happens : step system (.fail caller) = some next) : Alone next := by
  obtain ⟨admitted, failures, running, calls⟩ := step_calls_fail happens
  obtain ⟨state, openings, -⟩ :=
    step_quiet happens (by simp) (by simp [Records])
  have old : ∀ other phase, next.calls other = some phase →
      ∃ before, system.calls other = some before := by
    intro other phase flight
    rw [calls] at flight
    rcases flight_of_update flight with ⟨rfl, -⟩ | before
    · exact ⟨_, running⟩
    · exact ⟨_, before⟩
  refine
    { one := fun first second firstPhase secondPhase firstFlight secondFlight => ?_
      fresh := ?_
      trial := fun _ => ⟨caller, _, by rw [calls, Function.update_self],
        Phase.noConfusion⟩ }
  · obtain ⟨firstBefore, firstOld⟩ := old first firstPhase firstFlight
    obtain ⟨secondBefore, secondOld⟩ := old second secondPhase secondFlight
    exact alone.one first second _ _ firstOld secondOld
  · rintro other ⟨found, earlier, flight⟩
    rw [openings] at earlier
    rw [calls] at flight
    rcases flight with flight | ⟨foundFailures, flight⟩
    · rcases flight_of_update flight with ⟨-, phase⟩ | before
      · cases phase
      · exact alone.fresh other ⟨found, earlier, .inl before⟩
    · rcases flight_of_update flight with ⟨rfl, phase⟩ | before
      · cases phase
        exact alone.fresh other ⟨admitted, earlier, .inl running⟩
      · exact alone.fresh other ⟨found, earlier, .inr ⟨_, before⟩⟩

theorem Alone.step {event : Event κ} (alone : Alone system)
    (sequential : Sequential system event)
    (happens : step system event = some next) : Alone next := by
  have idle : ∀ caller, (∃ phase, system.calls caller = some phase ∧
      next.calls = Function.update system.calls caller none) →
        ∀ other, next.calls other = none := by
    rintro caller ⟨phase, flight, calls⟩ other
    rw [calls]
    exact alone.update_none flight other
  cases event with
  | tick elapsed =>
      cases happens
      exact ⟨alone.one, alone.fresh, alone.trial⟩
  | enter caller => exact .enter (sequential caller rfl) happens
  | fail caller => exact alone.fail happens
  | succeed caller =>
      refine .of_idle (idle caller (step_calls_none (.inl happens))) ?_
      rw [(step_succeed happens).1, CircuitBreaker.recordSuccess_state]
      split
      · exact CircuitState.noConfusion
      · assumption
  | settle caller =>
      refine .of_idle (idle caller (step_calls_none (.inr (.inl happens)))) ?_
      obtain ⟨failures, openings, -, breaker, -, -⟩ := step_settle happens
      rw [breaker, CircuitBreaker.recordFailure_state]
      split
      · exact CircuitState.noConfusion
      · exact fun half => absurd
          (CircuitBreaker.opensOn_of_halfOpen half failures) ‹_›
  | reject caller =>
      refine .of_idle (idle caller (step_calls_none (.inr (.inr happens)))) ?_
      rw [(step_quiet happens (by simp) (by simp [Records])).1]
      intro half
      obtain ⟨other, phase, flight, notRejected⟩ := alone.trial half
      have rejected : system.calls caller = some .rejected := by
        simp only [Breaker.step] at happens
        split at happens
        · assumption
        · cases happens
      cases alone.one other caller _ _ flight rejected
      cases flight.symm.trans rejected
      exact notRejected rfl

/-- Callers that wait for each other meet the condition at every step. -/
theorem sequential_calm (threshold : UInt32) (timeout : Nat)
    (events : List (Event κ))
    (sequential : EachStep step (fun before event _ => Sequential before event)
      (.start (.withParams threshold timeout)) events) :
    EachStep step (fun before event _ => Calm before event)
      (.start (.withParams threshold timeout)) events :=
  EachStep.of_invariant
    (fun _ _ _ alone happens waits => Alone.step alone waits happens)
    (fun _ _ _ alone _ waits => Alone.calm alone waits)
    (.of_idle (fun _ => rfl) CircuitState.noConfusion) sequential

end

end

/-- A second call is admitted while the trial is in flight. -/
def twoTrials : List (Event Nat) :=
  [.enter 0, .fail 0, .settle 0, .tick 30, .enter 1, .enter 2]

/-- A success admitted before the breaker opened closes it in place of the
trial. -/
def staleSuccess : List (Event Nat) :=
  [.enter 0, .enter 1, .fail 1, .settle 1, .tick 30, .enter 2, .succeed 0]

theorem interleaved_not_singleTrial :
    ¬ EachStep step SingleTrial (.start (.withParams 1 30)) twoTrials ∧
      ¬ EachStep step SingleTrial (.start (.withParams 1 30)) staleSuccess := by
  constructor
  · intro each
    have law := eachStep_iff.mp each
      [.enter 0, .fail 0, .settle 0, .tick 30, .enter 1] (.enter 2) [] _ _ rfl
      rfl rfl
    exact absurd (law.single rfl) (by decide)
  · intro each
    have law := eachStep_iff.mp each
      [.enter 0, .enter 1, .fail 1, .settle 1, .tick 30, .enter 2] (.succeed 0)
      [] _ _ rfl rfl rfl
    have closed := (law.inert 0 (.inl rfl) ⟨0, by decide, .inl rfl⟩).1 rfl
    cases closed

end TrustLayer.Breaker
