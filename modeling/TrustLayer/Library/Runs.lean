import Mathlib.Data.List.Basic
import Mathlib.Logic.Relation

/-!
# Runs of a transition system

A step answers with the next state, or with nothing where the event cannot
happen.  A law of the steps of a run is checked at every split of the run.
-/

namespace TrustLayer.Library

section

variable {σ ε : Type} (step : σ → ε → Option σ)

def runFrom : σ → List ε → Option σ
  | state, [] => some state
  | state, event :: events =>
      match step state event with
      | some next => runFrom next events
      | none => none

/-- Every step of the run, from its own state, satisfies the law. -/
def EachStep (law : σ → ε → σ → Prop) : σ → List ε → Prop
  | _, [] => True
  | state, event :: events =>
      ∀ next, step state event = some next →
        law state event next ∧ EachStep law next events

end

section

variable {σ ε : Type} {step : σ → ε → Option σ}
variable {law other : σ → ε → σ → Prop} {state : σ} {events : List ε}

/-- A law of each step holds wherever a run is cut. -/
theorem eachStep_iff :
    EachStep step law state events ↔
      ∀ past event later before after, events = past ++ event :: later →
        runFrom step state past = some before →
          step before event = some after → law before event after := by
  induction events generalizing state with
  | nil =>
      refine iff_of_true trivial fun past event later before after split => ?_
      cases past <;> cases split
  | cons first events induction =>
      constructor
      · intro each past event later before after split reached happens
        cases past with
        | nil =>
            obtain ⟨rfl, rfl⟩ := List.cons.inj split
            cases reached
            exact (each after happens).1
        | cons earlier past =>
            obtain ⟨rfl, tailSplit⟩ := List.cons.inj split
            rw [runFrom] at reached
            cases moved : step state first with
            | none => simp [moved] at reached
            | some next =>
                rw [moved] at reached
                exact induction.mp (each next moved).2 past event later before
                  after tailSplit reached happens
      · intro each next moved
        refine ⟨each [] first events state next rfl rfl moved,
          induction.mpr fun past event later before after split reached => ?_⟩
        refine each (first :: past) event later before after
          (congrArg (first :: ·) split) ?_
        rw [runFrom, moved]
        exact reached

theorem runFrom_append (past later : List ε) :
    runFrom step state (past ++ later) =
      (runFrom step state past).bind fun middle =>
        runFrom step middle later := by
  induction past generalizing state with
  | nil => rfl
  | cons event past induction =>
      simp only [List.cons_append, runFrom]
      cases step state event with
      | none => rfl
      | some next => exact induction

/-- A law of a run is one of its first part and of the rest from there. -/
theorem eachStep_append {past later : List ε} :
    EachStep step law state (past ++ later) ↔
      EachStep step law state past ∧
        ∀ middle, runFrom step state past = some middle →
          EachStep step law middle later := by
  induction past generalizing state with
  | nil => simp [EachStep, runFrom]
  | cons event past induction =>
      cases moved : step state event with
      | none => simp [EachStep, runFrom, moved]
      | some next =>
          simp only [List.cons_append, EachStep, runFrom, moved,
            Option.some.injEq, forall_eq', induction]
          exact and_assoc.symm

theorem EachStep.cons {event : ε} {next : σ}
    (moved : step state event = some next) (here : law state event next)
    (later : EachStep step law next events) :
    EachStep step law state (event :: events) := by
  intro other happens
  obtain rfl := Option.some.inj (moved.symm.trans happens)
  exact ⟨here, later⟩

/-- A run to its last state, whose steps satisfy the law. -/
structure Reached (step : σ → ε → Option σ) (law : σ → ε → σ → Prop)
    (state : σ) (events : List ε) (final : σ) : Prop where
  each : EachStep step law state events
  run : runFrom step state events = some final

theorem Reached.nil (state : σ) : Reached step law state [] state :=
  ⟨trivial, rfl⟩

theorem Reached.cons {event : ε} {next final : σ}
    (moved : step state event = some next) (here : law state event next)
    (later : Reached step law next events final) :
    Reached step law state (event :: events) final where
  each := .cons moved here later.each
  run := by
    rw [runFrom, moved]
    exact later.run

theorem Reached.append {past later : List ε} {middle final : σ}
    (first : Reached step law state past middle)
    (rest : Reached step law middle later final) :
    Reached step law state (past ++ later) final where
  each := by
    refine eachStep_append.mpr ⟨first.each, fun other reached => ?_⟩
    obtain rfl := Option.some.inj (first.run.symm.trans reached)
    exact rest.each
  run := by
    rw [runFrom_append, first.run]
    exact rest.run

theorem EachStep.mono
    (weaker : ∀ before event after, law before event after →
      other before event after)
    (each : EachStep step law state events) :
    EachStep step other state events := by
  induction events generalizing state with
  | nil => trivial
  | cons event events induction =>
      intro next happens
      obtain ⟨here, later⟩ := each next happens
      exact ⟨weaker state event next here, induction later⟩

/-- What every step keeps under the law, a run keeps. -/
theorem EachStep.keeps {invariant : σ → Prop} {final : σ}
    (kept : ∀ before event after, invariant before →
      step before event = some after → law before event after →
        invariant after)
    (start : invariant state) (each : EachStep step law state events)
    (reached : runFrom step state events = some final) : invariant final := by
  induction events generalizing state with
  | nil =>
      obtain rfl := Option.some.inj reached
      exact start
  | cons event events induction =>
      rw [runFrom] at reached
      cases moved : step state event with
      | none => simp [moved] at reached
      | some next =>
          rw [moved] at reached
          obtain ⟨here, later⟩ := each next moved
          exact induction (kept state event next start moved here) later reached

/-- An invariant that every step keeps under the law carries one law of the
steps over to another. -/
theorem EachStep.of_invariant {invariant : σ → Prop}
    (kept : ∀ before event after, invariant before →
      step before event = some after → law before event after →
        invariant after)
    (carries : ∀ before event after, invariant before →
      step before event = some after → law before event after →
        other before event after)
    (start : invariant state) (each : EachStep step law state events) :
    EachStep step other state events := by
  induction events generalizing state with
  | nil => trivial
  | cons event events induction =>
      intro next happens
      obtain ⟨here, later⟩ := each next happens
      exact ⟨carries state event next start happens here,
        induction (kept state event next start happens here) later⟩

/-- Two laws that agree on every step agree on every run. -/
theorem eachStep_congr
    (agree : ∀ before event after, step before event = some after →
      (law before event after ↔ other before event after)) :
    EachStep step law state events ↔ EachStep step other state events := by
  induction events generalizing state with
  | nil => rfl
  | cons event events induction =>
      refine forall_congr' fun next => imp_congr_right fun happens => ?_
      exact and_congr (agree state event next happens) induction

/-- A law of a simulating system holds of the system it simulates. -/
theorem EachStep.of_simulation {τ : Type} {simulating : τ → ε → Option τ}
    {simulatedLaw : τ → ε → τ → Prop} {image : σ → τ}
    (simulates : ∀ before event after, step before event = some after →
      simulating (image before) event = some (image after))
    (carries : ∀ before event after,
      simulatedLaw (image before) event (image after) → law before event after)
    (each : EachStep simulating simulatedLaw (image state) events) :
    EachStep step law state events := by
  induction events generalizing state with
  | nil => trivial
  | cons event events induction =>
      intro next happens
      obtain ⟨here, later⟩ := each (image next) (simulates _ _ _ happens)
      exact ⟨carries _ _ _ here, induction later⟩

/-- An invariant under which every step obeys the law, and that every step
keeps. -/
theorem EachStep.of_kept {invariant : σ → Prop}
    (obeys : ∀ before event after, invariant before →
      step before event = some after →
        law before event after ∧ invariant after)
    (start : invariant state) : EachStep step law state events := by
  induction events generalizing state with
  | nil => trivial
  | cons event events induction =>
      intro next happens
      obtain ⟨here, kept⟩ := obeys state event next start happens
      exact ⟨here, induction kept⟩

end

/-! ## Machines and what explains their answers

A specification allows some answers to an input in each of its own states, and
moves on with the answer.  A relation that every step keeps lets it explain every run.
-/

section

variable {σ τ ι ω : Type}

/-- The answers of a machine to some inputs, and where they leave it. -/
def answers (step : σ → ι → ω × σ) : σ → List ι → List ω × σ
  | state, [] => ([], state)
  | state, input :: inputs =>
      let rest := answers step (step state input).2 inputs
      ((step state input).1 :: rest.1, rest.2)

/-- The specification allows the answers to the inputs, one after the other. -/
inductive Explains (spec : ι → τ → ω → τ → Prop) :
    τ → List ι → List ω → τ → Prop where
  | nil (state : τ) : Explains spec state [] [] state
  | cons {before next after : τ} {input : ι} {inputs : List ι} {answer : ω}
      {rest : List ω} :
      spec input before answer next →
      Explains spec next inputs rest after →
      Explains spec before (input :: inputs) (answer :: rest) after

variable {step : σ → ι → ω × σ} {spec : ι → τ → ω → τ → Prop}

/-- What a specification keeps holds in the end of what it explains. -/
theorem Explains.keeps {holds : τ → Prop}
    (each : ∀ input before answer after, spec input before answer after →
      holds before → holds after)
    {before after : τ} {inputs : List ι} {given : List ω}
    (explains : Explains spec before inputs given after) (first : holds before) :
    holds after := by
  induction explains with
  | nil => exact first
  | cons allowed _ induction => exact induction (each _ _ _ _ allowed first)

/-- A machine refines a specification that follows each of its steps. -/
theorem explains_answers {related : σ → τ → Prop}
    (each : ∀ state abstract input, related state abstract →
      ∃ next, spec input abstract (step state input).1 next ∧
        related (step state input).2 next)
    {state : σ} {abstract : τ} (inputs : List ι)
    (first : related state abstract) :
    ∃ last, Explains spec abstract inputs (answers step state inputs).1 last ∧
      related (answers step state inputs).2 last := by
  induction inputs generalizing state abstract with
  | nil => exact ⟨abstract, .nil abstract, first⟩
  | cons input inputs induction =>
      obtain ⟨next, allowed, followed⟩ := each state abstract input first
      obtain ⟨last, rest, ended⟩ := induction followed
      exact ⟨last, .cons allowed rest, ended⟩

end

/-! ## Monitored runs

A monitor looks at each event before it happens and lets it through or not.
Nothing is known of the system behind it but the events that can lead out of a
region of its states.
-/

section

variable {σ ε : Type}

/-- A step whose event the monitor lets through. -/
def Monitored (allowed : ε → Prop) (step : σ → ε → σ → Prop)
    (before after : σ) : Prop :=
  ∃ event, allowed event ∧ step before event after

/-- Only the leaving events lead out of the region. -/
def LeavesBy (leaving : ε → Prop) (step : σ → ε → σ → Prop)
    (region : σ → Prop) : Prop :=
  ∀ before event after, step before event after → region before →
    ¬ region after → leaving event

end

/-- No monitored run leaves a region that only the leaving events lead out
of. -/
def Confines {ε : Type} (allowed leaving : ε → Prop) : Prop :=
  ∀ (σ : Type) (step : σ → ε → σ → Prop) (region : σ → Prop),
    LeavesBy leaving step region → ∀ before after,
      Relation.ReflTransGen (Monitored allowed step) before after →
        region before → region after

/-- A monitor confines every system exactly when it lets no leaving event
through. -/
theorem confines_iff {ε : Type} {allowed leaving : ε → Prop} :
    Confines allowed leaving ↔ ∀ event, leaving event → ¬ allowed event := by
  constructor
  · intro confines event leaves passes
    -- one event leads out of the states that are `True`
    have out := confines Prop (fun _ other after => other = event ∧ ¬ after) id
      (fun _ other _ happens _ _ => happens.1 ▸ leaves) True False
      (.single ⟨event, passes, rfl, not_false⟩) trivial
    exact out
  · intro refuses σ step region leavesBy before after run inside
    induction run with
    | refl => exact inside
    | tail run last induction =>
        obtain ⟨event, passes, happens⟩ := last
        refine Classical.byContradiction fun outside => ?_
        exact refuses event
          (leavesBy _ event _ happens induction outside) passes

end TrustLayer.Library
