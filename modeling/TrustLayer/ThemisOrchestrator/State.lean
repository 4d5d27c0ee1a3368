import TrustLayer.Baaar
import Mathlib.Data.List.Basic

/-!
# The state machine of an invoice

Nine states in a row, and `halted` beside them.  The last state of the row and
`halted` are terminal.
-/

namespace TrustLayer.ThemisOrchestrator

open TrustLayer.Library
open TrustLayer.Baaar (BaaarReason)

inductive InvoiceState where
  | received
  | extracting
  | matching
  | auditing
  | classifying
  | signing
  | narrating
  | validating
  | done
  | halted
  deriving DecidableEq

namespace InvoiceState

def next : InvoiceState → Option InvoiceState
  | .received => some .extracting
  | .extracting => some .matching
  | .matching => some .auditing
  | .auditing => some .classifying
  | .classifying => some .signing
  | .signing => some .narrating
  | .narrating => some .validating
  | .validating => some .done
  | .done | .halted => none

/-- How often a machine in the state can advance. -/
def advances : InvoiceState → Nat
  | .received => 8
  | .extracting => 7
  | .matching => 6
  | .auditing => 5
  | .classifying => 4
  | .signing => 3
  | .narrating => 2
  | .validating => 1
  | .done | .halted => 0

theorem advances_of_next {state later : InvoiceState}
    (step : state.next = some later) : state.advances = later.advances + 1 := by
  cases state <;> cases step <;> rfl

theorem next_ne_halted (state : InvoiceState) :
    state.next ≠ some .halted := by
  cases state <;> simp [next]

/-- A state that is not terminal has advances left. -/
theorem next_eq_none_iff_advances {state : InvoiceState} :
    state.next = none ↔ state.advances = 0 := by
  cases state <;> simp [next, advances]

theorem next_eq_none_iff {state : InvoiceState} :
    state.next = none ↔ state = .done ∨ state = .halted := by
  cases state <;> simp [next]

theorem ne_of_next {state later : InvoiceState}
    (step : state.next = some later) : state ≠ later := by
  cases state <;> cases step <;> decide

end InvoiceState

inductive Transition where
  | advance
  | halt (reason : BaaarReason)
  | fail (reason : Str)
  deriving DecidableEq

inductive StateError where
  | terminalState (state : InvoiceState)
  | invalidTransition (source target : InvoiceState)
  deriving DecidableEq

structure StateMachine where
  state : InvoiceState
  history : List (InvoiceState × Int)
  deriving DecidableEq

namespace StateMachine

def new (now : Int) : StateMachine :=
  { state := .received, history := [(.received, now)] }

def current (machine : StateMachine) : InvoiceState :=
  machine.state

/-- The machine in its new state. -/
def enter (machine : StateMachine) (state : InvoiceState) (now : Int) :
    StateMachine :=
  { state, history := machine.history ++ [(state, now)] }

def transition (machine : StateMachine) (t : Transition) (now : Int) :
    Except StateError InvoiceState × StateMachine :=
  if machine.state = .done ∨ machine.state = .halted then
    (.error (.terminalState machine.state), machine)
  else
    match t with
    | .advance =>
        match machine.state.next with
        | none => (.error (.terminalState machine.state), machine)
        | some state => (.ok state, machine.enter state now)
    | .halt _ | .fail _ => (.ok .halted, machine.enter .halted now)

/-- The loop `while sm.current() != expected`: at most `left` advances are
possible.  The clock is read once for each entry of the history. -/
def advanceTo (machine : StateMachine) (clock : Nat → Int)
    (expected : InvoiceState) :
    (left : Nat) → Except StateError Unit × StateMachine
  | 0 =>
      if machine.current = expected then (.ok (), machine)
      else (.error (.terminalState machine.state), machine)
  | left + 1 =>
      if machine.current = expected then (.ok (), machine)
      else
        match machine.transition .advance (clock machine.history.length) with
        | (.error error, machine) => (.error error, machine)
        | (.ok _, machine) => advanceTo machine clock expected left

/-- `force_advance_to_done`, which stops at the first error. -/
def forceAdvanceToDone (machine : StateMachine) (clock : Nat → Int) :
    StateMachine :=
  if machine.current ≠ .done ∧ machine.current ≠ .halted then
    (machine.advanceTo clock .done machine.state.advances).2
  else machine

section

variable {machine : StateMachine} {clock : Nat → Int}

theorem transition_of_terminal {t : Transition} {now : Int}
    (terminal : machine.state = .done ∨ machine.state = .halted) :
    machine.transition t now =
      (.error (.terminalState machine.state), machine) :=
  if_pos terminal

theorem not_terminal_of_next {later : InvoiceState}
    (step : machine.state.next = some later) :
    ¬ (machine.state = .done ∨ machine.state = .halted) := by
  rw [← InvoiceState.next_eq_none_iff, step]
  exact nofun

theorem transition_advance {later : InvoiceState} {now : Int}
    (step : machine.state.next = some later) :
    machine.transition .advance now = (.ok later, machine.enter later now) := by
  simp only [transition, if_neg (not_terminal_of_next step), step]

/-- A machine that can advance can be halted. -/
theorem transition_halt {reason : BaaarReason} {later : InvoiceState}
    {now : Int} (step : machine.state.next = some later) :
    machine.transition (.halt reason) now =
      (.ok .halted, machine.enter .halted now) :=
  if_neg (not_terminal_of_next step)

theorem transition_fail {reason : Str} {later : InvoiceState} {now : Int}
    (step : machine.state.next = some later) :
    machine.transition (.fail reason) now =
      (.ok .halted, machine.enter .halted now) :=
  if_neg (not_terminal_of_next step)

theorem advanceTo_current (left : Nat) :
    machine.advanceTo clock machine.state left = (.ok (), machine) := by
  cases left with
  | zero => exact if_pos rfl
  | succ left => exact if_pos rfl

/-- The loop takes one step to the next state. -/
theorem advanceTo_next {later : InvoiceState}
    (step : machine.state.next = some later) :
    machine.advanceTo clock later machine.state.advances =
      (.ok (), machine.enter later (clock machine.history.length)) := by
  have other : ¬ machine.current = later := InvoiceState.ne_of_next step
  rw [InvoiceState.advances_of_next step, advanceTo, if_neg other,
    transition_advance step]
  exact @advanceTo_current (machine.enter later _) clock _

end

end StateMachine

end TrustLayer.ThemisOrchestrator
