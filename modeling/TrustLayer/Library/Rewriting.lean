import TrustLayer.Library.Walk
import Mathlib.Algebra.GroupWithZero.Nat
import Mathlib.Algebra.Order.BigOperators.Group.List

/-!
# Rewriting in spans

A rewriter replaces some spans of a list and keeps the others.  A walker that
emits, at every step, a text for the elements it consumes is one.
-/

namespace TrustLayer.Library

section

variable {α β σ : Type} {kept replaced : List α → List β → Prop}

/-- The second list is the first one with `count` spans replaced and the others
kept. -/
inductive Rewritten (kept replaced : List α → List β → Prop) :
    (count : Nat) → List α → List β → Prop where
  | nil : Rewritten kept replaced 0 [] []
  | keep {count : Nat} {span before : List α} {text after : List β} :
      kept span text → Rewritten kept replaced count before after →
      Rewritten kept replaced count (span ++ before) (text ++ after)
  | replace {count : Nat} {span before : List α} {text after : List β} :
      replaced span text → Rewritten kept replaced count before after →
      Rewritten kept replaced (count + 1) (span ++ before) (text ++ after)

theorem Rewritten.mono {keptToo replacedToo : List α → List β → Prop}
    {count : Nat} {before : List α} {after : List β}
    (rewritten : Rewritten kept replaced count before after)
    (keptLe : ∀ span text, span ⊆ before → kept span text → keptToo span text)
    (replacedLe : ∀ span text, span ⊆ before → replaced span text →
      replacedToo span text) :
    Rewritten keptToo replacedToo count before after := by
  induction rewritten with
  | nil => exact .nil
  | @keep count span before text after here later induction =>
      have front := List.subset_append_left span before
      have behind := List.subset_append_right span before
      exact .keep (keptLe span text front here)
        (induction
          (fun _ _ inside => keptLe _ _ (List.Subset.trans inside behind))
          (fun _ _ inside => replacedLe _ _ (List.Subset.trans inside behind)))
  | @replace count span before text after here later induction =>
      have front := List.subset_append_left span before
      have behind := List.subset_append_right span before
      exact .replace (replacedLe span text front here)
        (induction
          (fun _ _ inside => keptLe _ _ (List.Subset.trans inside behind))
          (fun _ _ inside => replacedLe _ _ (List.Subset.trans inside behind)))

/-- A list that is kept whole. -/
theorem Rewritten.whole {before : List α} {after : List β}
    (keeps : kept before after) : Rewritten kept replaced 0 before after := by
  simpa using @Rewritten.keep _ _ kept replaced 0 before [] after [] keeps .nil

/-- What no span outweighs, the whole does not outweigh. -/
theorem Rewritten.sum_le {weight : α → Nat} {cost : β → Nat}
    (keptLe : ∀ span text, kept span text →
      (text.map cost).sum ≤ (span.map weight).sum)
    (replacedLe : ∀ span text, replaced span text →
      (text.map cost).sum ≤ (span.map weight).sum)
    {count : Nat} {before : List α} {after : List β}
    (rewritten : Rewritten kept replaced count before after) :
    (after.map cost).sum ≤ (before.map weight).sum := by
  induction rewritten with
  | nil => exact Nat.le_refl _
  | keep here _ induction =>
      simp only [List.map_append, List.sum_append]
      exact Nat.add_le_add (keptLe _ _ here) induction
  | replace here _ induction =>
      simp only [List.map_append, List.sum_append]
      exact Nat.add_le_add (replacedLe _ _ here) induction

/-- Where no span is replaced and every one is kept as it is, nothing changes. -/
theorem Rewritten.eq_of_not_replaced {kept replaced : List α → List α → Prop}
    (same : ∀ span text, kept span text → text = span)
    (none : ∀ span text, ¬ replaced span text) {count : Nat}
    {before after : List α} (rewritten : Rewritten kept replaced count before after) :
    after = before := by
  induction rewritten with
  | nil => rfl
  | keep here _ induction => rw [same _ _ here, induction]
  | replace here => exact absurd here (none _ _)

/-! ## Walkers that emit -/

variable {step : σ → α → List α → σ × Nat} {out : σ → List β} {spent : σ → Nat}
  {price : Nat}

/-- A step emits a text for the span it consumes, and pays the price of a span
that it replaces. -/
def EmitsAt (kept replaced : List α → List β → Prop) (out : σ → List β)
    (spent : σ → Nat) (price : Nat) (state : σ) (item : α) (rest : List α)
    (turn : σ × Nat) : Prop :=
  turn.2 ≤ rest.length ∧ ∃ text, out turn.1 = out state ++ text ∧
    ((kept (item :: rest.take turn.2) text ∧ spent turn.1 = spent state) ∨
      (replaced (item :: rest.take turn.2) text ∧
        spent turn.1 = spent state + price))

def Emits (kept replaced : List α → List β → Prop) (out : σ → List β)
    (spent : σ → Nat) (price : Nat) (step : σ → α → List α → σ × Nat) : Prop :=
  ∀ state item rest,
    EmitsAt kept replaced out spent price state item rest (step state item rest)

/-- What the steps emit, the walk rewrites. -/
theorem walk_rewritten (emits : Emits kept replaced out spent price step)
    (items : List α) (state : σ) :
    ∃ spans text, out (walk step items 0 state) = out state ++ text ∧
      spent (walk step items 0 state) = spent state + spans * price ∧
      Rewritten kept replaced spans items text := by
  induction size : items.length using Nat.strong_induction_on
    generalizing items state with
  | _ length induction =>
      cases items with
      | nil => exact ⟨0, [], by simp, by simp, .nil⟩
      | cons item rest =>
          obtain ⟨fits, text, emitted, here⟩ := emits state item rest
          rw [walk_cons]
          generalize step state item rest = turn at fits emitted here ⊢
          obtain ⟨next, skip⟩ := turn
          have shorter : (rest.drop skip).length < length := by
            rw [List.length_drop, ← size, List.length_cons]
            omega
          obtain ⟨spans, later, laterOut, laterSpent, rewritten⟩ :=
            induction _ shorter (rest.drop skip) next rfl
          have parts : item :: rest =
              (item :: rest.take skip) ++ rest.drop skip := by
            rw [List.cons_append, List.take_append_drop]
          simp only at emitted here ⊢
          rw [laterOut, laterSpent, emitted, parts, List.append_assoc]
          rcases here with ⟨keeps, same⟩ | ⟨replaces, more⟩
          · exact ⟨spans, _, rfl, by rw [same], .keep keeps rewritten⟩
          · refine ⟨spans + 1, _, rfl, ?_, .replace replaces rewritten⟩
            rw [more, Nat.add_mul]
            omega

/-- A law of the state and of what is left to read holds at the end. -/
theorem walk_reaches {inv : σ → List α → Prop}
    (preserved : ∀ state item rest, inv state (item :: rest) →
      inv (step state item rest).1 (rest.drop (step state item rest).2))
    {items : List α} {state : σ} (start : inv state items) :
    inv (walk step items 0 state) [] := by
  induction size : items.length using Nat.strong_induction_on
    generalizing items state with
  | _ length induction =>
      cases items with
      | nil => exact start
      | cons item rest =>
          rw [walk_cons]
          refine induction _ ?_ (preserved state item rest start) rfl
          rw [List.length_drop, ← size, List.length_cons]
          omega

end

end TrustLayer.Library
