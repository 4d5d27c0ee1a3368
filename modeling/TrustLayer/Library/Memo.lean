import Mathlib.Data.List.AList
import Mathlib.Data.List.Induction

/-!
# Memo tables

A table is filled on demand: a key that it does not hold gets the value that
the demand brings, and keeps it until it is forgotten.
-/

namespace TrustLayer.Library

/-- A use of a memo table. -/
inductive MemoUse (κ υ : Type) where
  | demand (key : κ) (value : υ)
  | forget (key : κ)
  deriving DecidableEq

section

variable {κ υ : Type}

def MemoUse.key : MemoUse κ υ → κ
  | .demand key _ => key
  | .forget key => key

/-- Since the key was last forgotten, nothing has used it. -/
def Idle (uses : List (MemoUse κ υ)) (key : κ) : Prop :=
  ∃ before between, uses = before ++ between ∧
    (before = [] ∨ ∃ front, before = front ++ [.forget key]) ∧
    ∀ use ∈ between, use.key ≠ key

/-- The value of the first demand since the key was last forgotten. -/
def FirstSince (uses : List (MemoUse κ υ)) (key : κ) (value : υ) : Prop :=
  ∃ past later, uses = past ++ .demand key value :: later ∧ Idle past key ∧
    .forget key ∉ later

abbrev MemoTable (κ υ : Type) := AList fun _ : κ => υ

variable [DecidableEq κ]

/-- The answer of a demand is what the table holds behind it. -/
def memoTurn (table : MemoTable κ υ) : MemoUse κ υ → MemoTable κ υ
  | .demand key value =>
      if (table.lookup key).isSome then table else table.insert key value
  | .forget key => table.erase key

def memoized (uses : List (MemoUse κ υ)) : MemoTable κ υ :=
  uses.foldl memoTurn ∅

variable {uses : List (MemoUse κ υ)} {use : MemoUse κ υ} {key : κ} {value : υ}

theorem memoized_concat :
    memoized (uses ++ [use]) = memoTurn (memoized uses) use := by
  rw [memoized, List.foldl_append]
  rfl

/-! ## Splitting the last use off -/

omit [DecidableEq κ] in
theorem idle_nil : Idle ([] : List (MemoUse κ υ)) key :=
  ⟨[], [], rfl, .inl rfl, by simp⟩

omit [DecidableEq κ] in
theorem idle_concat_iff :
    Idle (uses ++ [use]) key ↔
      use = .forget key ∨ use.key ≠ key ∧ Idle uses key := by
  constructor
  · rintro ⟨before, between, split, start, free⟩
    rcases between.eq_nil_or_concat with rfl | ⟨front, last, rfl⟩
    · rw [List.append_nil] at split
      rcases start with rfl | ⟨front, rfl⟩
      · simp at split
      · exact .inl (List.singleton_inj.mp (List.append_inj_right' split rfl))
    · have whole : uses ++ [use] = (before ++ front) ++ [last] := by
        simpa using split
      obtain ⟨rfl, same⟩ := List.append_inj' whole rfl
      obtain rfl := List.singleton_inj.mp same
      refine .inr ⟨free use (by simp), before, front, rfl, start, ?_⟩
      intro other member
      exact free other (by simp [member])
  · rintro (rfl | ⟨other, before, between, rfl, start, free⟩)
    · exact ⟨uses ++ [.forget key], [], by simp, .inr ⟨uses, rfl⟩, by simp⟩
    · refine ⟨before, between ++ [use], by simp, start, ?_⟩
      intro earlier member
      rcases List.mem_append.mp member with inside | last
      · exact free earlier inside
      · exact List.mem_singleton.mp last ▸ other

omit [DecidableEq κ] in
theorem firstSince_concat_iff :
    FirstSince (uses ++ [use]) key value ↔
      use = .demand key value ∧ Idle uses key ∨
        use ≠ .forget key ∧ FirstSince uses key value := by
  constructor
  · rintro ⟨past, later, split, idle, kept⟩
    rcases later.eq_nil_or_concat with rfl | ⟨front, last, rfl⟩
    · obtain ⟨rfl, same⟩ := List.append_inj' split rfl
      exact .inl ⟨List.singleton_inj.mp same, idle⟩
    · have whole : uses ++ [use] =
          (past ++ .demand key value :: front) ++ [last] := by
        simpa using split
      obtain ⟨rfl, same⟩ := List.append_inj' whole rfl
      obtain rfl := List.singleton_inj.mp same
      refine .inr ⟨?_, past, front, rfl, idle, ?_⟩
      · rintro rfl
        exact kept (by simp)
      · exact fun member => kept (by simp [member])
  · rintro (⟨rfl, idle⟩ | ⟨other, past, later, rfl, idle, kept⟩)
    · exact ⟨uses, [], rfl, idle, by simp⟩
    · refine ⟨past, later ++ [use], by simp, idle, ?_⟩
      simpa [kept] using Ne.symm other

/-! ## What the table holds -/

theorem lookup_memoTurn_demand (table : MemoTable κ υ) (value : υ) :
    (memoTurn table (.demand key value)).lookup key =
      some ((table.lookup key).getD value) := by
  rw [memoTurn]
  cases held : table.lookup key with
  | none => exact AList.lookup_insert table
  | some old => exact held

theorem lookup_memoTurn_forget (table : MemoTable κ υ) :
    (memoTurn table (.forget key)).lookup key = none :=
  AList.lookup_erase key table

theorem lookup_memoTurn_of_ne (table : MemoTable κ υ) (other : use.key ≠ key) :
    (memoTurn table use).lookup key = table.lookup key := by
  cases use with
  | demand own value =>
      rw [memoTurn]
      split_ifs
      · rfl
      · exact AList.lookup_insert_ne (Ne.symm other)
  | forget own => exact AList.lookup_erase_ne (Ne.symm other)

theorem lookup_memoized_eq_none_iff :
    (memoized uses).lookup key = none ↔ Idle uses key := by
  induction uses using List.reverseRecOn with
  | nil => exact iff_of_true (AList.lookup_empty key) idle_nil
  | append_singleton uses use induction =>
      rw [memoized_concat, idle_concat_iff, ← induction]
      by_cases other : use.key ≠ key
      · rw [lookup_memoTurn_of_ne _ other, and_iff_right other]
        refine (or_iff_right ?_).symm
        rintro rfl
        exact other rfl
      · cases use with
        | demand own value =>
            obtain rfl : own = key := not_not.mp other
            rw [lookup_memoTurn_demand]
            simp [MemoUse.key]
        | forget own =>
            obtain rfl : own = key := not_not.mp other
            exact iff_of_true (lookup_memoTurn_forget _) (.inl rfl)

/-- A key has the value of the first demand since it was forgotten. -/
theorem lookup_memoized_eq_some_iff :
    (memoized uses).lookup key = some value ↔ FirstSince uses key value := by
  induction uses using List.reverseRecOn with
  | nil =>
      refine iff_of_false (by simp [memoized]) ?_
      rintro ⟨past, later, split, -⟩
      simp at split
  | append_singleton uses use induction =>
      rw [memoized_concat, firstSince_concat_iff, ← induction,
        ← lookup_memoized_eq_none_iff]
      by_cases other : use.key ≠ key
      · rw [lookup_memoTurn_of_ne _ other]
        have kept : use ≠ .forget key := by
          rintro rfl
          exact other rfl
        rw [and_iff_right kept]
        refine (or_iff_right ?_).symm
        rintro ⟨rfl, -⟩
        exact other rfl
      · cases use with
        | demand own new =>
            obtain rfl : own = key := not_not.mp other
            rw [lookup_memoTurn_demand]
            cases held : (memoized uses).lookup own with
            | none => simp
            | some old => simp
        | forget own =>
            obtain rfl : own = key := not_not.mp other
            rw [lookup_memoTurn_forget]
            simp

/-- What is held is kept, until it is forgotten. -/
theorem lookup_foldl_memoTurn {table : MemoTable κ υ}
    (held : table.lookup key = some value) (kept : .forget key ∉ uses) :
    (uses.foldl memoTurn table).lookup key = some value := by
  induction uses generalizing table with
  | nil => exact held
  | cons use uses induction =>
      rw [List.mem_cons, not_or] at kept
      apply induction _ kept.2
      by_cases other : use.key ≠ key
      · exact (lookup_memoTurn_of_ne table other).trans held
      · cases use with
        | demand own new =>
            obtain rfl : own = key := not_not.mp other
            rw [lookup_memoTurn_demand, held]
            rfl
        | forget own =>
            obtain rfl : own = key := not_not.mp other
            exact absurd rfl kept.1

theorem demand_mem_of_lookup
    (held : (memoized uses).lookup key = some value) :
    .demand key value ∈ uses := by
  obtain ⟨past, later, rfl, -⟩ := lookup_memoized_eq_some_iff.mp held
  exact List.mem_append_right _ List.mem_cons_self

/-- The keys that are held, each of them once. -/
theorem mem_keys_memoized_iff :
    key ∈ (memoized uses).keys ↔ ¬ Idle uses key := by
  rw [← AList.mem_keys, ← lookup_memoized_eq_none_iff, AList.lookup_eq_none,
    not_not]

theorem length_memoized {keys : List κ} (once : keys.Nodup)
    (held : ∀ key, key ∈ keys ↔ ¬ Idle uses key) :
    (memoized uses).entries.length = keys.length := by
  have same : (memoized uses).keys.Perm keys := by
    apply (List.perm_ext_iff_of_nodup (AList.keys_nodup _) once).mpr
    intro key
    rw [mem_keys_memoized_iff, held]
  rw [← same.length_eq, AList.keys, List.keys, List.length_map]

end

end TrustLayer.Library
