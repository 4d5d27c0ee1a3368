import Mathlib.Data.List.Basic

/-!
# Pipelines of stages

Each stage answers from what the earlier ones have made, or cuts the run.  A
gate looks at every answer, keeps it, and may halt the run behind it.
-/

namespace TrustLayer.Library

/-- How a run over the stages ends. -/
inductive Ending (ρ η : Type) where
  | completed
  | halted (reason : η)
  | cut (reason : ρ)
  deriving DecidableEq

section

variable {ι δ ρ η : Type}
variable (answer : ι → List δ → Except ρ δ) (gate : ι → δ → Option η)

/-- What the stages make behind what was made before. -/
def pipeline : List ι → (made : List δ) → List δ × Ending ρ η
  | [], made => (made, .completed)
  | stage :: stages, made =>
      match answer stage made with
      | .error reason => (made, .cut reason)
      | .ok decision =>
          match gate stage decision with
          | some reason => (made ++ [decision], .halted reason)
          | none => pipeline stages (made ++ [decision])

/-- Every stage answers, and the gate lets the run go on. -/
inductive Passes : List ι → (made final : List δ) → Prop where
  | nil {made : List δ} : Passes [] made made
  | cons {stage : ι} {stages : List ι} {made final : List δ} {decision : δ}
      (answered : answer stage made = .ok decision)
      (accepted : gate stage decision = none)
      (later : Passes stages (made ++ [decision]) final) :
      Passes (stage :: stages) made final

/-- The stages that pass, and the one that the run ends at. -/
inductive Ends : List ι → (made final : List δ) → Ending ρ η → Prop where
  | completed {stages : List ι} {made final : List δ}
      (passes : Passes answer gate stages made final) :
      Ends stages made final .completed
  | halted {passed later : List ι} {stage : ι} {made before : List δ}
      {decision : δ} {reason : η}
      (passes : Passes answer gate passed made before)
      (answered : answer stage before = .ok decision)
      (refused : gate stage decision = some reason) :
      Ends (passed ++ stage :: later) made (before ++ [decision])
        (.halted reason)
  | cut {passed later : List ι} {stage : ι} {made before : List δ} {reason : ρ}
      (passes : Passes answer gate passed made before)
      (failed : answer stage before = .error reason) :
      Ends (passed ++ stage :: later) made before (.cut reason)

end

section

variable {ι δ ρ η : Type}
variable {answer : ι → List δ → Except ρ δ} {gate : ι → δ → Option η}
variable {stages passed later : List ι} {stage : ι} {made before final : List δ}
variable {decision : δ} {ending : Ending ρ η}

theorem Passes.length (passes : Passes answer gate stages made final) :
    final.length = made.length + stages.length := by
  induction passes with
  | nil => rfl
  | cons answered accepted later induction =>
      rw [induction, List.length_append, List.length_singleton,
        List.length_cons]
      omega

/-- Stages that always answer, and are always accepted, pass. -/
theorem exists_passes (willing : ∀ stage ∈ stages, ∀ made, ∃ decision,
      answer stage made = .ok decision ∧ gate stage decision = none)
    (made : List δ) : ∃ final, Passes answer gate stages made final := by
  induction stages generalizing made with
  | nil => exact ⟨made, .nil⟩
  | cons stage stages induction =>
      obtain ⟨decision, answered, accepted⟩ :=
        willing stage List.mem_cons_self made
      obtain ⟨final, later⟩ := induction
        (fun other member => willing other (List.mem_cons_of_mem stage member))
        (made ++ [decision])
      exact ⟨final, .cons answered accepted later⟩

/-- A run goes on behind the stages that pass. -/
theorem Passes.pipeline_append (passes : Passes answer gate passed made before)
    (later : List ι) :
    pipeline answer gate (passed ++ later) made =
      pipeline answer gate later before := by
  induction passes with
  | nil => rfl
  | cons answered accepted passes induction =>
      rw [List.cons_append, pipeline, answered]
      simp only [accepted]
      exact induction

theorem Ends.cons (answered : answer stage made = .ok decision)
    (accepted : gate stage decision = none)
    (ends : Ends answer gate stages (made ++ [decision]) final ending) :
    Ends answer gate (stage :: stages) made final ending := by
  cases ends with
  | completed passes => exact .completed (.cons answered accepted passes)
  | halted passes last refused =>
      exact .halted (.cons answered accepted passes) last refused
  | cut passes failed => exact .cut (.cons answered accepted passes) failed

/-- The run that is computed is the one that the relation describes. -/
theorem pipeline_eq_iff :
    pipeline answer gate stages made = (final, ending) ↔
      Ends answer gate stages made final ending := by
  constructor
  · intro run
    induction stages generalizing made with
    | nil =>
        obtain ⟨rfl, rfl⟩ := Prod.mk.inj run
        exact .completed .nil
    | cons stage stages induction =>
        rw [pipeline] at run
        split at run
        case h_1 reason failed =>
          obtain ⟨rfl, rfl⟩ := Prod.mk.inj run
          exact .cut (.nil : Passes answer gate [] _ _) failed
        case h_2 decision answered =>
          split at run
          case h_1 reason refused =>
            obtain ⟨rfl, rfl⟩ := Prod.mk.inj run
            exact .halted (.nil : Passes answer gate [] _ _) answered refused
          case h_2 accepted =>
            exact .cons answered accepted (induction run)
  · intro ends
    cases ends with
    | completed passes =>
        have run := passes.pipeline_append []
        rwa [List.append_nil] at run
    | halted passes answered refused =>
        rw [passes.pipeline_append, pipeline, answered]
        simp only [refused]
    | cut passes failed =>
        rw [passes.pipeline_append, pipeline, failed]

theorem exists_ends (stages : List ι) (made : List δ) :
    ∃ final ending, Ends answer gate stages made final ending :=
  ⟨_, _, pipeline_eq_iff.mp rfl⟩

theorem ends_completed_iff :
    Ends answer gate stages made final .completed ↔
      Passes answer gate stages made final := by
  constructor
  · intro ends
    cases ends with
    | completed passes => exact passes
  · exact .completed

/-- Where a run is cut. -/
theorem Ends.exists_of_cut {reason : ρ}
    (ends : Ends answer gate stages made final (.cut reason)) :
    ∃ passed stage later, stages = passed ++ stage :: later ∧
      Passes answer gate passed made final ∧
      answer stage final = .error reason := by
  cases ends with
  | cut passes failed => exact ⟨_, _, _, rfl, passes, failed⟩

/-- Where a run is halted. -/
theorem Ends.exists_of_halted {reason : η}
    (ends : Ends answer gate stages made final (.halted reason)) :
    ∃ passed stage later before decision, stages = passed ++ stage :: later ∧
      Passes answer gate passed made before ∧
      answer stage before = .ok decision ∧ gate stage decision = some reason ∧
      final = before ++ [decision] := by
  cases ends with
  | halted passes answered refused =>
      exact ⟨_, _, _, _, _, rfl, passes, answered, refused, rfl⟩

/-- A run ends in one way. -/
theorem Ends.unique {other : List δ} {otherEnding : Ending ρ η}
    (ends : Ends answer gate stages made final ending)
    (otherEnds : Ends answer gate stages made other otherEnding) :
    final = other ∧ ending = otherEnding :=
  Prod.mk.inj
    ((pipeline_eq_iff.mpr ends).symm.trans (pipeline_eq_iff.mpr otherEnds))

theorem Ends.length_of_completed
    (ends : Ends answer gate stages made final .completed) :
    final.length = made.length + stages.length :=
  (ends_completed_iff.mp ends).length

end

end TrustLayer.Library
