import Mathlib.Data.List.Count
import Mathlib.Logic.Function.Basic

/-!
# Counts under an assignment

Each item has a key, and a test that depends on what is assigned to the key.
-/

namespace TrustLayer.Library

section

variable {α κ σ : Type} [DecidableEq κ] (key : α → κ) (test : σ → α → Bool)

def countWith (assign : κ → σ) (items : List α) : Nat :=
  items.countP fun item => test (assign (key item)) item

/-- The items of one key that pass the test. -/
def countAt (place : κ) (value : σ) (items : List α) : Nat :=
  items.countP fun item => decide (key item = place) && test value item

theorem countWith_update (assign : κ → σ) (place : κ) (value : σ)
    (items : List α) :
    countWith key test (Function.update assign place value) items +
        countAt key test place (assign place) items =
      countWith key test assign items + countAt key test place value items := by
  induction items with
  | nil => rfl
  | cons item items induction =>
      simp only [countWith, countAt, List.countP_cons] at induction ⊢
      by_cases here : key item = place
      · simp only [here, Function.update_self, decide_true, Bool.true_and]
        omega
      · simp only [Function.update_of_ne here, here, decide_false,
          Bool.false_and, Bool.false_eq_true, if_false]
        omega

variable {key test} {items : List α}

omit [DecidableEq κ] in
theorem countWith_congr {assign other : κ → σ}
    (same : ∀ item ∈ items, assign (key item) = other (key item)) :
    countWith key test assign items = countWith key test other items := by
  refine List.countP_congr fun item member => ?_
  rw [same item member]

/-- A count does not depend on the assignment exactly when none of its parts
depends on the value of its key. -/
theorem countWith_constant_iff :
    (∀ assign other, countWith key test assign items =
        countWith key test other items) ↔
      ∀ place value other,
        countAt key test place value items =
          countAt key test place other items := by
  constructor
  · intro constant place value other
    have updated := countWith_update key test (fun _ => other) place value
      items
    rw [constant _ fun _ => other] at updated
    omega
  · intro constant
    -- the keys of the items are moved over one by one
    have moves : ∀ (places : List κ) (assign other : κ → σ),
        (∀ item ∈ items, key item ∉ places →
          assign (key item) = other (key item)) →
        countWith key test assign items =
          countWith key test other items := by
      intro places
      induction places with
      | nil =>
          intro assign other same
          exact countWith_congr fun item member =>
            same item member List.not_mem_nil
      | cons place places induction =>
          intro assign other same
          have moved := countWith_update key test assign place (other place)
            items
          rw [constant place (assign place) (other place)] at moved
          rw [← Nat.add_right_cancel moved]
          refine induction _ _ fun item member absent => ?_
          by_cases here : key item = place
          · rw [here, Function.update_self]
          · rw [Function.update_of_ne here]
            exact same item member (by simp [here, absent])
    intro assign other
    exact moves (items.map key) assign other fun item member absent =>
      absurd (List.mem_map_of_mem member) absent

end

end TrustLayer.Library
