import Mathlib.Data.List.Infix

/-!
# Left-to-right walkers

A walker reads a list once from left to right.  One step sees the state, the
current element and everything after it, and answers with the next state and
the number of following elements it has consumed together with the current
one.  Hand-written scanners with an index variable are instances: `i += 1` is
a step that consumes nothing more, and a jump is a step that consumes more.
-/

namespace TrustLayer.Library

/-- Run `step` over `items`, ignoring the first `skip` of them. -/
def walk {σ α : Type} (step : σ → α → List α → σ × Nat) :
    (items : List α) → (skip : Nat) → (state : σ) → σ
  | [], _, state => state
  | _ :: rest, skip + 1, state => walk step rest skip state
  | item :: rest, 0, state =>
      match step state item rest with
      | (next, skip) => walk step rest skip next

section

variable {σ τ α : Type} {step : σ → α → List α → σ × Nat}

@[simp] theorem walk_nil (skip : Nat) (state : σ) :
    walk step [] skip state = state := by
  cases skip <;> rfl

theorem walk_skip (items : List α) (skip : Nat) (state : σ) :
    walk step items skip state = walk step (items.drop skip) 0 state := by
  induction items generalizing skip with
  | nil => simp
  | cons item rest induction =>
      cases skip with
      | zero => rfl
      | succ skip => simpa [walk] using induction skip

/-- The position reached by one step, as the list that is still to be read. -/
theorem walk_cons (item : α) (rest : List α) (state : σ) :
    walk step (item :: rest) 0 state =
      walk step (rest.drop (step state item rest).2) 0
        (step state item rest).1 := by
  rw [← walk_skip]
  rfl

theorem walk_cons_of_eq {item : α} {rest : List α} {state next : σ}
    {skip : Nat} (result : step state item rest = (next, skip)) :
    walk step (item :: rest) 0 state =
      walk step (rest.drop skip) 0 next := by
  rw [walk_cons, result]

theorem walk_one {item : α} {rest : List α} {state next : σ}
    (result : step state item rest = (next, 0)) :
    walk step (item :: rest) 0 state = walk step rest 0 next :=
  walk_cons_of_eq result

/-- A run of elements that are consumed one at a time only folds the state. -/
theorem walk_run (inv : σ → Prop) (push : σ → α → σ) {run : List α}
    (quiet : ∀ state, inv state → ∀ item ∈ run, ∀ rest,
      step state item rest = (push state item, 0) ∧ inv (push state item))
    (rest : List α) {state : σ} (start : inv state) :
    walk step (run ++ rest) 0 state = walk step rest 0 (run.foldl push state) ∧
      inv (run.foldl push state) := by
  induction run generalizing state with
  | nil => exact ⟨rfl, start⟩
  | cons item run induction =>
      obtain ⟨result, kept⟩ :=
        quiet state start item List.mem_cons_self (run ++ rest)
      have tail := induction
        (fun state holds item member =>
          quiet state holds item (List.mem_cons_of_mem _ member)) kept
      rw [List.cons_append, walk_cons_of_eq result]
      exact tail

/-- When no step looks ahead the walk is a fold. -/
theorem walk_foldl {push : σ → α → σ} {items : List α}
    (quiet : ∀ state item rest, (item :: rest) <:+ items →
      step state item rest = (push state item, 0)) (state : σ) :
    walk step items 0 state = items.foldl push state := by
  induction items generalizing state with
  | nil => rfl
  | cons item rest induction =>
      rw [walk_one (quiet state item rest (List.suffix_refl _)),
        List.foldl_cons]
      exact induction
        (fun state item rest suffix =>
          quiet state item rest (suffix.trans (List.suffix_cons _ _))) _

/-- Two step functions that agree along the input give the same walk. -/
theorem walk_congr {other : σ → α → List α → σ × Nat} {items : List α}
    (agree : ∀ state item rest, (item :: rest) <:+ items →
      step state item rest = other state item rest)
    (skip : Nat) (state : σ) :
    walk step items skip state = walk other items skip state := by
  induction items generalizing skip state with
  | nil => simp
  | cons item rest induction =>
      have later : ∀ state item' rest', (item' :: rest') <:+ rest →
          step state item' rest' = other state item' rest' :=
        fun state item' rest' suffix =>
          agree state item' rest' (suffix.trans (List.suffix_cons _ _))
      cases skip with
      | zero =>
          simp only [walk, agree state item rest (List.suffix_refl _)]
          exact induction later _ _
      | succ skip => exact induction later _ _

/-- A property of the state that every step keeps holds at the end. -/
theorem walk_invariant {inv : σ → Prop} {items : List α}
    (kept : ∀ state item rest, (item :: rest) <:+ items → inv state →
      inv (step state item rest).1)
    (skip : Nat) {state : σ} (start : inv state) :
    inv (walk step items skip state) := by
  induction items generalizing skip state with
  | nil => simpa using start
  | cons item rest induction =>
      have later : ∀ state item' rest', (item' :: rest') <:+ rest →
          inv state → inv (step state item' rest').1 :=
        fun state item' rest' suffix =>
          kept state item' rest' (suffix.trans (List.suffix_cons _ _))
      cases skip with
      | zero =>
          exact induction later _
            (kept state item rest (List.suffix_refl _) start)
      | succ skip => exact induction later _ start

/-- A walk can be cut where no step looks or jumps across. -/
theorem walk_append {left right : List α}
    (inside : ∀ state item rest, (item :: rest) <:+ left →
      step state item (rest ++ right) = step state item rest ∧
        (step state item rest).2 ≤ rest.length) (state : σ) :
    walk step (left ++ right) 0 state =
      walk step right 0 (walk step left 0 state) := by
  have cut : ∀ skip ≤ left.length, ∀ state,
      walk step (left ++ right) skip state =
        walk step right 0 (walk step left skip state) := by
    induction left with
    | nil =>
        intro skip short state
        obtain rfl : skip = 0 := Nat.le_zero.mp short
        rfl
    | cons item rest induction =>
        have later := induction fun state item' rest' suffix =>
          inside state item' rest' (suffix.trans (List.suffix_cons _ _))
        intro skip short state
        cases skip with
        | zero =>
            obtain ⟨same, fits⟩ := inside state item rest (List.suffix_refl _)
            simp only [List.cons_append, walk, same]
            exact later _ fits _
        | succ skip => exact later skip (Nat.le_of_succ_le_succ short) state
  exact cut 0 (Nat.zero_le _) state

/-! ## Laws along a walk -/

/-- `good` holds of every step that the walk takes. -/
def AlongWalk (step : σ → α → List α → σ × Nat)
    (good : σ → α → List α → Prop) :
    (items : List α) → (skip : Nat) → (state : σ) → Prop
  | [], _, _ => True
  | _ :: rest, skip + 1, state => AlongWalk step good rest skip state
  | item :: rest, 0, state =>
      good state item rest ∧
        match step state item rest with
        | (next, skip) => AlongWalk step good rest skip next

instance decidableAlongWalk (step : σ → α → List α → σ × Nat)
    (good : σ → α → List α → Prop)
    [∀ state item rest, Decidable (good state item rest)] :
    (items : List α) → (skip : Nat) → (state : σ) →
      Decidable (AlongWalk step good items skip state)
  | [], _, _ => .isTrue trivial
  | _ :: rest, skip + 1, state => decidableAlongWalk step good rest skip state
  | item :: rest, 0, state =>
      have := decidableAlongWalk step good rest (step state item rest).2
        (step state item rest).1
      inferInstanceAs (Decidable (_ ∧ _))

variable {good : σ → α → List α → Prop}

theorem AlongWalk.of_forall (holds : ∀ state item rest, good state item rest)
    (items : List α) (skip : Nat) (state : σ) :
    AlongWalk step good items skip state := by
  induction items generalizing skip state with
  | nil => trivial
  | cons item rest induction =>
      cases skip with
      | zero => exact ⟨holds _ _ _, induction _ _⟩
      | succ skip => exact induction _ _

theorem AlongWalk.mono {weaker : σ → α → List α → Prop}
    (weakens : ∀ state item rest, good state item rest →
      weaker state item rest) {items : List α} {skip : Nat} {state : σ}
    (along : AlongWalk step good items skip state) :
    AlongWalk step weaker items skip state := by
  induction items generalizing skip state with
  | nil => trivial
  | cons item rest induction =>
      cases skip with
      | zero => exact ⟨weakens _ _ _ along.1, induction along.2⟩
      | succ skip => exact induction along

/-- What holds along a walk holds along its rest after a run. -/
theorem AlongWalk.run (push : σ → α → σ) {run : List α}
    (quiet : ∀ state, ∀ item ∈ run, ∀ rest,
      step state item rest = (push state item, 0))
    {rest : List α} {state : σ}
    (along : AlongWalk step good (run ++ rest) 0 state) :
    AlongWalk step good rest 0 (run.foldl push state) := by
  induction run generalizing state with
  | nil => exact along
  | cons item run induction =>
      have later := along.2
      rw [quiet state item List.mem_cons_self] at later
      exact induction
        (fun state item member =>
          quiet state item (List.mem_cons_of_mem _ member)) later

/-- A relation between the states of two walkers that every pair of good steps
keeps, both steps consuming equally much, relates their results. -/
theorem AlongWalk.simulation {other : τ → α → List α → τ × Nat}
    {related : σ → τ → Prop}
    (kept : ∀ left right item rest, related left right →
      good left item rest →
      (step left item rest).2 = (other right item rest).2 ∧
        related (step left item rest).1 (other right item rest).1)
    {items : List α} {skip : Nat} {left : σ} {right : τ}
    (along : AlongWalk step good items skip left) (start : related left right) :
    related (walk step items skip left) (walk other items skip right) := by
  induction items generalizing skip left right with
  | nil => simpa using start
  | cons item rest induction =>
      cases skip with
      | zero =>
          obtain ⟨here, later⟩ := along
          obtain ⟨sameSkip, relatedNext⟩ := kept left right item rest start here
          simp only [walk, ← sameSkip]
          exact induction later relatedNext
      | succ skip => exact induction along start

/-- Two walkers stay related when only the first has a run to copy before. -/
theorem AlongWalk.simulation_run {other : τ → α → List α → τ × Nat}
    {related : σ → τ → Prop}
    (kept : ∀ left right item rest, related left right →
      good left item rest →
      (step left item rest).2 = (other right item rest).2 ∧
        related (step left item rest).1 (other right item rest).1)
    (push : σ → α → σ) {run rest : List α}
    (quiet : ∀ state, ∀ item ∈ run, ∀ rest,
      step state item rest = (push state item, 0))
    {left : σ} {right : τ} (along : AlongWalk step good (run ++ rest) 0 left)
    (start : related (run.foldl push left) right) :
    related (walk step (run ++ rest) 0 left) (walk other rest 0 right) := by
  have copied : walk step (run ++ rest) 0 left =
      walk step rest 0 (run.foldl push left) :=
    (walk_run (fun _ => True) push
      (fun state _ item member rest => ⟨quiet state item member rest, trivial⟩)
      rest trivial).1
  rw [copied]
  exact (along.run push quiet).simulation kept start

theorem walk_simulation {other : τ → α → List α → τ × Nat}
    {related : σ → τ → Prop}
    (kept : ∀ left right item rest, related left right →
      (step left item rest).2 = (other right item rest).2 ∧
        related (step left item rest).1 (other right item rest).1)
    (items : List α) {left : σ} {right : τ} (start : related left right) :
    related (walk step items 0 left) (walk other items 0 right) :=
  AlongWalk.simulation
    (fun left right item rest both _ => kept left right item rest both)
    (AlongWalk.of_forall (fun _ _ _ => trivial) items 0 left) start

theorem alongWalk_skip (items : List α) (skip : Nat) (state : σ) :
    AlongWalk step good items skip state ↔
      AlongWalk step good (items.drop skip) 0 state := by
  induction items generalizing skip with
  | nil => simp [AlongWalk]
  | cons item rest induction =>
      cases skip with
      | zero => rfl
      | succ skip => simpa [AlongWalk] using induction skip

theorem alongWalk_cons (item : α) (rest : List α) (state : σ) :
    AlongWalk step good (item :: rest) 0 state ↔
      good state item rest ∧
        AlongWalk step good (rest.drop (step state item rest).2) 0
          (step state item rest).1 := by
  rw [← alongWalk_skip]
  rfl

theorem AlongWalk.and {other : σ → α → List α → Prop} {items : List α}
    {skip : Nat} {state : σ} (first : AlongWalk step good items skip state)
    (second : AlongWalk step other items skip state) :
    AlongWalk step (fun state item rest =>
      good state item rest ∧ other state item rest) items skip state := by
  induction items generalizing skip state with
  | nil => trivial
  | cons item rest induction =>
      cases skip with
      | zero => exact ⟨⟨first.1, second.1⟩, induction first.2 second.2⟩
      | succ skip => exact induction first second

/-- A walk arrives at the text behind when no good step jumps across its
start; `inv` is a law of the state and of what is left in front. -/
theorem AlongWalk.reach {inv : σ → List α → Prop} {behind : List α}
    (kept : ∀ state item rest, inv state (item :: rest) →
      good state item (rest ++ behind) →
      (step state item (rest ++ behind)).2 ≤ rest.length ∧
        inv (step state item (rest ++ behind)).1
          (rest.drop (step state item (rest ++ behind)).2))
    {front : List α} {state : σ}
    (along : AlongWalk step good (front ++ behind) 0 state)
    (start : inv state front) :
    ∃ next, walk step (front ++ behind) 0 state = walk step behind 0 next ∧
      AlongWalk step good behind 0 next ∧ inv next [] := by
  induction size : front.length using Nat.strong_induction_on
    generalizing front state with
  | _ length induction =>
      cases front with
      | nil => exact ⟨state, rfl, along, start⟩
      | cons item rest =>
          rw [List.cons_append, alongWalk_cons] at along
          obtain ⟨fits, arrived⟩ := kept state item rest start along.1
          have later := along.2
          rw [List.drop_append_of_le_length fits] at later
          rw [List.cons_append, walk_cons, List.drop_append_of_le_length fits]
          refine induction (rest.drop
            (step state item (rest ++ behind)).2).length ?_ later arrived rfl
          rw [List.length_drop, ← size, List.length_cons]
          omega

/-! ## Marks -/

variable {β : Type}

/-- The marks that the steps put on the elements, in order; a step marks its
element and those it consumes with it. -/
def walkMarks (step : σ → α → List α → σ × Nat)
    (mark : σ → α → List α → List β) :
    (items : List α) → (skip : Nat) → (state : σ) → List β
  | [], _, _ => []
  | _ :: rest, skip + 1, state => walkMarks step mark rest skip state
  | item :: rest, 0, state =>
      mark state item rest ++
        match step state item rest with
        | (next, skip) => walkMarks step mark rest skip next

variable {mark : σ → α → List α → List β}

@[simp] theorem walkMarks_nil (skip : Nat) (state : σ) :
    walkMarks step mark [] skip state = [] := by
  cases skip <;> rfl

theorem walkMarks_skip (items : List α) (skip : Nat) (state : σ) :
    walkMarks step mark items skip state =
      walkMarks step mark (items.drop skip) 0 state := by
  induction items generalizing skip with
  | nil => simp
  | cons item rest induction =>
      cases skip with
      | zero => rfl
      | succ skip => simpa [walkMarks] using induction skip

theorem walkMarks_cons (item : α) (rest : List α) (state : σ) :
    walkMarks step mark (item :: rest) 0 state =
      mark state item rest ++
        walkMarks step mark (rest.drop (step state item rest).2) 0
          (step state item rest).1 := by
  rw [← walkMarks_skip]
  rfl

end

end TrustLayer.Library
