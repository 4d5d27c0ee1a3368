import Mathlib.Data.List.Induction
import Mathlib.Logic.Function.Basic

/-!
# Tables of writes, and registers

A table that is written key by key holds the last value of each key.  A register
has a record for some keys, and lists entries under a key once there is a record
of it.
-/

namespace TrustLayer.Library

/-! ## Tables -/

section

variable {κ υ : Type} [DecidableEq κ]

/-- What a table holds after some writes to an empty one. -/
def written (writes : List (κ × υ)) : κ → Option υ :=
  writes.foldl
    (fun table write => Function.update table write.1 (some write.2))
    fun _ => none

omit [DecidableEq κ] in
/-- Nothing behind it has its key. -/
def LastWrite (writes : List (κ × υ)) (key : κ) (value : υ) : Prop :=
  ∃ before later, writes = before ++ (key, value) :: later ∧
    ∀ write ∈ later, write.1 ≠ key

variable {writes : List (κ × υ)} {key : κ} {value : υ}

@[simp] theorem written_concat (write : κ × υ) :
    written (writes ++ [write]) =
      Function.update (written writes) write.1 (some write.2) := by
  rw [written, List.foldl_append]
  rfl

omit [DecidableEq κ] in
theorem lastWrite_concat_iff {write : κ × υ} :
    LastWrite (writes ++ [write]) key value ↔
      write = (key, value) ∨ write.1 ≠ key ∧ LastWrite writes key value := by
  constructor
  · rintro ⟨before, later, whole, free⟩
    rcases later.eq_nil_or_concat with rfl | ⟨front, last, rfl⟩
    · have same := List.append_inj_right' whole rfl
      exact .inl (List.singleton_inj.mp same)
    · have split : writes ++ [write] =
          (before ++ (key, value) :: front) ++ [last] := by
        simpa using whole
      obtain ⟨rfl, same⟩ := List.append_inj' split rfl
      obtain rfl := List.singleton_inj.mp same
      refine .inr ⟨free write (by simp), before, front, rfl, ?_⟩
      intro other member
      exact free other (by simp [member])
  · rintro (rfl | ⟨other, before, later, rfl, free⟩)
    · exact ⟨writes, [], rfl, by simp⟩
    · refine ⟨before, later ++ [write], by simp, ?_⟩
      intro earlier member
      rcases List.mem_append.mp member with inside | last
      · exact free earlier inside
      · exact List.mem_singleton.mp last ▸ other

theorem written_eq_some_iff :
    written writes key = some value ↔ LastWrite writes key value := by
  induction writes using List.reverseRecOn with
  | nil =>
      constructor
      · intro nothing
        cases nothing
      · rintro ⟨before, later, whole, -⟩
        simp at whole
  | append_singleton writes write induction =>
      obtain ⟨own, latest⟩ := write
      rw [written_concat, lastWrite_concat_iff, ← induction]
      by_cases same : key = own
      · subst same
        simp
      · have other : own ≠ key := Ne.symm same
        simp [Function.update_of_ne same, other]

end

/-! ## Registers

A later record of a key takes the place of an earlier one; nothing is taken
back.
-/

/-- A change of a register. -/
inductive Change (κ ρ ε : Type) where
  | record (key : κ) (value : ρ)
  | entry (key : κ) (item : ε)
  deriving DecidableEq

section

variable {κ ρ ε : Type}

def Change.write : Change κ ρ ε → Option (κ × ρ)
  | .record key value => some (key, value)
  | .entry _ _ => none

/-- Every entry stands behind a record of its key. -/
def Backed (changes : List (Change κ ρ ε)) : Prop :=
  ∀ before key item later, changes = before ++ .entry key item :: later →
    ∃ value, .record key value ∈ before

variable [DecidableEq κ]

def Change.itemAt (key : κ) : Change κ ρ ε → Option ε
  | .entry other item => if other = key then some item else none
  | .record _ _ => none

/-- The record of each key, after some changes. -/
def recordsOf (changes : List (Change κ ρ ε)) : κ → Option ρ :=
  written (changes.filterMap Change.write)

/-- The entries of each key, in their order. -/
def entriesOf (changes : List (Change κ ρ ε)) (key : κ) : List ε :=
  changes.filterMap (Change.itemAt key)

variable {changes : List (Change κ ρ ε)} {key : κ}

theorem recordsOf_concat_record (value : ρ) :
    recordsOf (changes ++ [.record key value]) =
      Function.update (recordsOf changes) key (some value) := by
  rw [recordsOf, List.filterMap_append]
  exact written_concat (key, value)

theorem recordsOf_concat_entry (item : ε) :
    recordsOf (changes ++ [.entry key item]) = recordsOf changes := by
  rw [recordsOf, List.filterMap_append]
  exact congrArg written (List.append_nil _)

theorem entriesOf_concat_record (value : ρ) :
    entriesOf (changes ++ [.record key value]) = entriesOf changes := by
  funext other
  rw [entriesOf, List.filterMap_append]
  exact List.append_nil _

theorem entriesOf_concat_entry (item : ε) :
    entriesOf (changes ++ [.entry key item]) =
      Function.update (entriesOf changes) key (entriesOf changes key ++ [item]) := by
  funext other
  rw [entriesOf, List.filterMap_append]
  by_cases same : other = key
  · subst same
    rw [Function.update_self]
    exact congrArg _ (by simp [Change.itemAt])
  · rw [Function.update_of_ne same]
    have apart : key ≠ other := Ne.symm same
    simp [Change.itemAt, apart, entriesOf]

theorem recordsOf_isSome_iff :
    (recordsOf changes key).isSome ↔ ∃ value, .record key value ∈ changes := by
  induction changes using List.reverseRecOn with
  | nil => simp [recordsOf, written]
  | append_singleton changes change induction =>
      cases change with
      | record other value =>
          rw [recordsOf_concat_record]
          by_cases same : key = other
          · subst same
            rw [Function.update_self]
            exact iff_of_true rfl ⟨value, by simp⟩
          · rw [Function.update_of_ne same, induction]
            simp [same]
      | entry other item =>
          rw [recordsOf_concat_entry, induction]
          simp

omit [DecidableEq κ] in
theorem backed_nil : Backed ([] : List (Change κ ρ ε)) := by
  intro before key item later split
  simp at split

omit [DecidableEq κ] in
theorem Backed.record (backed : Backed changes) (value : ρ) :
    Backed (changes ++ [.record key value]) := by
  intro before other item later split
  rcases later.eq_nil_or_concat with rfl | ⟨front, last, rfl⟩
  · cases List.append_inj_right' split rfl
  · have whole : changes ++ [.record key value] =
        (before ++ .entry other item :: front) ++ [last] := by
      simpa using split
    exact backed before other item front (List.append_inj_left' whole rfl)

theorem Backed.entry (backed : Backed changes) {value : ρ}
    (known : recordsOf changes key = some value) (item : ε) :
    Backed (changes ++ [.entry key item]) := by
  intro before other new later split
  rcases later.eq_nil_or_concat with rfl | ⟨front, last, rfl⟩
  · obtain ⟨rfl, same⟩ := List.append_inj' split rfl
    cases same
    exact recordsOf_isSome_iff.mp (Option.isSome_of_eq_some known)
  · have whole : changes ++ [.entry key item] =
        (before ++ .entry other new :: front) ++ [last] := by
      simpa using split
    exact backed before other new front (List.append_inj_left' whole rfl)

end

end TrustLayer.Library
