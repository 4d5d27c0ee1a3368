import TrustLayer.ThemisOrchestrator.State
import Mathlib.Data.List.Infix

/-!
# What a state machine records

An audit replays the history of an invoice.  It is the happy path up to some
state, and `halted` behind that where the machine was stopped.
-/

namespace TrustLayer.ThemisOrchestrator

open TrustLayer.Library

namespace InvoiceState

def happyPath : List InvoiceState :=
  [.received, .extracting, .matching, .auditing, .classifying, .signing,
    .narrating, .validating, .done]

/-- The happy path from a state on. -/
def ahead (state : InvoiceState) : List InvoiceState :=
  happyPath.dropWhile (· ≠ state)

theorem ahead_of_next {state later : InvoiceState}
    (step : state.next = some later) : state.ahead = state :: later.ahead := by
  cases state <;> cases step <;> decide

theorem exists_ahead {state : InvoiceState} (running : state ≠ .halted) :
    ∃ later, state.ahead = state :: later := by
  cases state with
  | halted => exact absurd rfl running
  | done => exact ⟨[], rfl⟩
  | received | extracting | matching | auditing | classifying | signing
  | narrating | validating => exact ⟨_, ahead_of_next rfl⟩

end InvoiceState

namespace StateMachine

def startingAt (state : InvoiceState) (now : Int) : StateMachine :=
  { state, history := [(state, now)] }

/-- A call of `transition`, at a time. -/
structure Attempt where
  transition : Transition
  now : Int

def attempt (machine : StateMachine) (attempt : Attempt) : StateMachine :=
  (machine.transition attempt.transition attempt.now).2

def run (machine : StateMachine) (attempts : List Attempt) : StateMachine :=
  attempts.foldl StateMachine.attempt machine

/-- The recorded states without their times. -/
def states (machine : StateMachine) : List InvoiceState :=
  machine.history.map Prod.fst

/-! ## One attempt -/

/-- What an attempt does: a terminal machine refuses it, and any other one
enters its next state or `halted`. -/
inductive Attempted (machine : StateMachine) (attempt : Attempt) :
    Except StateError InvoiceState × StateMachine → Prop
  | refused (terminal : machine.state.next = none) :
      Attempted machine attempt
        (.error (.terminalState machine.state), machine)
  | advanced (state : InvoiceState) (next : machine.state.next = some state) :
      Attempted machine attempt
        (.ok state, machine.enter state attempt.now)
  | stopped (state : InvoiceState) (next : machine.state.next = some state) :
      Attempted machine attempt
        (.ok .halted, machine.enter .halted attempt.now)

variable {machine : StateMachine} {start : InvoiceState}

theorem transition_attempted (machine : StateMachine) (attempt : Attempt) :
    machine.Attempted attempt
      (machine.transition attempt.transition attempt.now) := by
  obtain ⟨transition, now⟩ := attempt
  cases next : machine.state.next with
  | none =>
      have terminal := InvoiceState.next_eq_none_iff.mp next
      rw [transition_of_terminal terminal]
      exact .refused next
  | some state =>
      cases transition with
      | advance =>
          rw [transition_advance next]
          exact .advanced state next
      | halt reason =>
          rw [transition_halt next]
          exact .stopped state next
      | fail reason =>
          rw [transition_fail next]
          exact .stopped state next

theorem states_enter (state : InvoiceState) (now : Int) :
    (machine.enter state now).states = machine.states ++ [state] := by
  rw [states, enter, List.map_append]
  rfl

/-! ## The record -/

/-- The current state is the last one recorded.  A machine that was not stopped
has the rest of the path before it, and one that was stopped has left the
path. -/
structure Records (start : InvoiceState) (machine : StateMachine) : Prop where
  last : ∃ passed, machine.states = passed ++ [machine.state]
  path : ∀ passed, machine.states = passed ++ [machine.state] →
    if machine.state = .halted then passed <+: start.ahead
    else passed ++ machine.state.ahead = start.ahead

theorem records_startingAt (start : InvoiceState) (now : Int) :
    Records start (startingAt start now) where
  last := ⟨[], rfl⟩
  path := by
    intro passed recorded
    have alone : [] ++ [start] = passed ++ [start] := recorded
    obtain rfl := List.append_cancel_right alone
    split
    · exact List.nil_prefix
    · rfl

theorem Records.enter (records : Records start machine)
    {state later : InvoiceState} (now : Int)
    (next : machine.state.next = some later)
    (entered : state = later ∨ state = .halted) :
    Records start (machine.enter state now) := by
  have running : machine.state ≠ .halted := by
    intro halted
    rw [halted] at next
    cases next
  obtain ⟨before, recorded⟩ := records.last
  have rest := records.path before recorded
  rw [if_neg running, InvoiceState.ahead_of_next next] at rest
  refine ⟨⟨machine.states, states_enter state now⟩, ?_⟩
  intro passed extended
  rw [states_enter, recorded] at extended
  obtain ⟨rfl, -⟩ := List.append_inj' extended rfl
  have onPath : before ++ [machine.state] ++ later.ahead = start.ahead := by
    rw [List.append_assoc]
    exact rest
  split
  · exact ⟨later.ahead, onPath⟩
  · rename_i notHalted
    obtain rfl := entered.resolve_right notHalted
    exact onPath

theorem Records.attempt (records : Records start machine) (attempt : Attempt) :
    Records start (machine.attempt attempt) := by
  have attempted := transition_attempted machine attempt
  rw [StateMachine.attempt]
  revert attempted
  generalize machine.transition attempt.transition attempt.now = answer
  intro attempted
  cases attempted with
  | refused terminal => exact records
  | advanced state next => exact records.enter attempt.now next (.inl rfl)
  | stopped state next => exact records.enter attempt.now next (.inr rfl)

theorem Records.run (records : Records start machine)
    (attempts : List Attempt) : Records start (machine.run attempts) := by
  induction attempts generalizing machine with
  | nil => exact records
  | cons attempt attempts induction => exact induction (records.attempt attempt)

/-- The record is the path up to some state, and `halted` behind it where the
machine was stopped. -/
theorem Records.exists_prefix (records : Records start machine) :
    ∃ visited, visited <+: start.ahead ∧
      (machine.states = visited ∨ machine.states = visited ++ [.halted]) := by
  obtain ⟨passed, recorded⟩ := records.last
  have path := records.path passed recorded
  by_cases halted : machine.state = .halted
  · rw [if_pos halted] at path
    rw [halted] at recorded
    exact ⟨passed, path, .inr recorded⟩
  · rw [if_neg halted] at path
    obtain ⟨later, ahead⟩ := InvoiceState.exists_ahead halted
    refine ⟨machine.states, ⟨later, ?_⟩, .inl rfl⟩
    rw [recorded, ← path, ahead, List.append_assoc]
    rfl

theorem Records.getLast? (records : Records start machine) :
    machine.states.getLast? = some machine.current := by
  obtain ⟨passed, recorded⟩ := records.last
  rw [recorded, List.getLast?_concat]
  rfl

theorem transition_eq_error {attempt : Attempt} {error : StateError}
    (refused : (machine.transition attempt.transition attempt.now).1 =
      .error error) : machine.attempt attempt = machine := by
  have attempted := transition_attempted machine attempt
  rw [StateMachine.attempt]
  revert attempted refused
  generalize machine.transition attempt.transition attempt.now = answer
  intro refused attempted
  cases attempted with
  | refused terminal => rfl
  | advanced state next => cases refused
  | stopped state next => cases refused

/-- Whatever is attempted, the history of a new machine is the happy path up to
some state, and perhaps `halted` behind it.  Its last entry is the current
state, the two terminal states accept nothing, and what is refused changes
nothing. -/
theorem run_new_records (now : Int) (attempts : List Attempt) :
    (∃ visited, visited <+: InvoiceState.happyPath ∧
      (((new now).run attempts).states = visited ∨
        ((new now).run attempts).states = visited ++ [.halted])) ∧
    ((new now).run attempts).states.getLast? =
      some ((new now).run attempts).current ∧
    (((new now).run attempts).current = .done ∨
        ((new now).run attempts).current = .halted →
      ∀ transition later,
        ((new now).run attempts).transition transition later =
          (.error (.terminalState ((new now).run attempts).current),
            (new now).run attempts)) ∧
    ∀ transition later error,
      (((new now).run attempts).transition transition later).1 =
          .error error →
        (((new now).run attempts).transition transition later).2 =
          (new now).run attempts := by
  have records := (records_startingAt .received now).run attempts
  refine ⟨records.exists_prefix, records.getLast?, ?_, ?_⟩
  · intro terminal transition later
    exact transition_of_terminal terminal
  · intro transition later error refused
    exact @transition_eq_error _ ⟨transition, later⟩ error refused

end StateMachine

end TrustLayer.ThemisOrchestrator
