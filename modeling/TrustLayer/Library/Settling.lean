import TrustLayer.Library.Walk

/-!
# Calls, loops and recursion that may fail

A call that binds another one ends as the first does, or as the one behind it.
A loop whose turns all return is the loop without failures.  A recursive call
is given fuel and fails when it runs out; it settles on a value when every
amount of fuel from some one on gives that value.
-/

namespace TrustLayer.Library

/-! ## Calls one after the other -/

section

variable {ε ι α β : Type} {result : Except ε α} {next : α → Except ε β}

theorem bind_eq_ok_iff {value : β} : (result >>= next) = .ok value ↔
    ∃ middle, result = .ok middle ∧ next middle = .ok value := by
  cases result with
  | error error => exact iff_of_false nofun (by rintro ⟨_, ⟨⟩, _⟩)
  | ok middle =>
      constructor
      · intro same
        exact ⟨middle, rfl, same⟩
      · rintro ⟨_, ⟨⟩, same⟩
        exact same

theorem bind_eq_error_iff {error : ε} : (result >>= next) = .error error ↔
    result = .error error ∨
      ∃ middle, result = .ok middle ∧ next middle = .error error := by
  cases result with
  | error other =>
      constructor
      · intro same
        exact .inl (congrArg Except.error (Except.error.inj same))
      · rintro (same | ⟨_, impossible, _⟩)
        · exact congrArg Except.error (Except.error.inj same)
        · cases impossible
  | ok middle =>
      constructor
      · intro same
        exact .inr ⟨middle, rfl, same⟩
      · rintro (impossible | ⟨_, ⟨⟩, same⟩)
        · cases impossible
        · exact same

theorem mapError_eq_ok_iff {wrap : ε → ι} {value : α} :
    result.mapError wrap = .ok value ↔ result = .ok value := by
  cases result with
  | error error => exact iff_of_false nofun nofun
  | ok middle =>
      constructor
      · intro same
        exact congrArg Except.ok (Except.ok.inj same)
      · intro same
        exact congrArg Except.ok (Except.ok.inj same)

theorem mapError_eq_error_iff {wrap : ε → ι} {error : ι} :
    result.mapError wrap = .error error ↔
      ∃ inner, result = .error inner ∧ wrap inner = error := by
  cases result with
  | error inner =>
      constructor
      · intro same
        exact ⟨inner, rfl, Except.error.inj same⟩
      · rintro ⟨_, ⟨⟩, same⟩
        exact congrArg Except.error same
  | ok middle => exact iff_of_false nofun (by rintro ⟨_, ⟨⟩, _⟩)

end

/-! ## Loops -/

section

variable {ε σ α β : Type}

/-- `walk` with steps that may fail. -/
def tryWalk (step : σ → α → List α → Except ε (σ × Nat)) :
    (items : List α) → (skip : Nat) → (state : σ) → Except ε σ
  | [], _, state => .ok state
  | _ :: rest, skip + 1, state => tryWalk step rest skip state
  | item :: rest, 0, state => do
      let (next, skip) ← step state item rest
      tryWalk step rest skip next

/-! ## Loops without a failing turn -/

theorem tryWalk_eq_ok {call : σ → α → List α → Except ε (σ × Nat)}
    {step : σ → α → List α → σ × Nat} {items : List α}
    (returns : ∀ state item rest, (item :: rest) <:+ items →
      call state item rest = .ok (step state item rest))
    (skip : Nat) (state : σ) :
    tryWalk call items skip state = .ok (walk step items skip state) := by
  induction items generalizing skip state with
  | nil => cases skip <;> rfl
  | cons item rest induction =>
      have later : ∀ state other behind, (other :: behind) <:+ rest →
          call state other behind = .ok (step state other behind) :=
        fun state other behind suffix =>
          returns state other behind (suffix.trans (List.suffix_cons _ _))
      cases skip with
      | zero =>
          rw [tryWalk, returns state item rest (List.suffix_refl _)]
          exact induction later _ _
      | succ skip => exact induction later skip state

theorem foldlM_eq_ok {call : σ → α → Except ε σ} {step : σ → α → σ}
    {items : List α}
    (returns : ∀ state, ∀ item ∈ items, call state item = .ok (step state item))
    (state : σ) :
    items.foldlM call state = .ok (items.foldl step state) := by
  induction items generalizing state with
  | nil => rfl
  | cons item items induction =>
      rw [List.foldlM_cons, returns state item List.mem_cons_self]
      exact induction
        (fun state item member =>
          returns state item (List.mem_cons_of_mem _ member)) _

theorem anyM_eq_ok {call : α → Except ε Bool} {test : α → Bool}
    (returns : ∀ item, call item = .ok (test item)) (items : List α) :
    items.anyM call = .ok (items.any test) := by
  induction items with
  | nil => rfl
  | cons item items induction =>
      rw [List.anyM, returns item, List.any_cons]
      cases test item with
      | false => exact induction
      | true => rfl

/-! ## Fuel -/

/-- The call returns the value whenever it is given enough fuel. -/
def Settles (run : (fuel : Nat) → Except ε α) (value : α) : Prop :=
  ∃ enough, ∀ fuel, enough ≤ fuel → run fuel = .ok value

namespace Settles

variable {run : Nat → Except ε α} {value : α}

theorem of_ok {result : Except ε α} (returns : result = .ok value) :
    Settles (fun _ => result) value :=
  ⟨0, fun _ _ => returns⟩

/-- One level of the recursion takes one unit of fuel. -/
theorem succ (settles : Settles (fun fuel => run (fuel + 1)) value) :
    Settles run value := by
  obtain ⟨enough, returns⟩ := settles
  refine ⟨enough + 1, fun fuel covers => ?_⟩
  obtain ⟨less, rfl⟩ := Nat.exists_eq_add_of_le' (Nat.le_of_add_left_le covers)
  exact returns less (Nat.le_of_succ_le_succ covers)

theorem bind {next : α → Nat → Except ε β} {last : β}
    (first : Settles run value) (second : Settles (next value) last) :
    Settles (fun fuel => run fuel >>= fun value => next value fuel) last := by
  obtain ⟨enough, returns⟩ := first
  obtain ⟨more, follows⟩ := second
  refine ⟨max enough more, fun fuel covers => ?_⟩
  have here := returns fuel (le_trans (le_max_left _ _) covers)
  have behind := follows fuel (le_trans (le_max_right _ _) covers)
  exact (congrArg (· >>= fun value => next value fuel) here).trans behind

theorem foldlM {call : Nat → σ → α → Except ε σ} {step : σ → α → σ}
    {items : List α}
    (settles : ∀ state, ∀ item ∈ items,
      Settles (fun fuel => call fuel state item) (step state item))
    (state : σ) :
    Settles (fun fuel => items.foldlM (call fuel) state)
      (items.foldl step state) := by
  induction items generalizing state with
  | nil => exact of_ok rfl
  | cons item items induction =>
      simp only [List.foldlM_cons]
      exact bind (settles state item List.mem_cons_self)
        (induction
          (fun state item member =>
            settles state item (List.mem_cons_of_mem _ member)) _)

end Settles

end

end TrustLayer.Library
