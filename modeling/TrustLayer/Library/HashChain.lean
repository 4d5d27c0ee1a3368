import Mathlib.Data.List.Basic

/-!
# Hash-linked lists

Entries that store their own digest and the digest before them.  When every
entry points at its neighbour and every stored digest is recomputed from the
entry, the last digest determines the whole list.
-/

namespace TrustLayer.Library

section

variable {ε δ α : Type} {previous digest : ε → δ} {item : ε → α}
variable {link : δ → α → δ}

/-- Every entry stores the digest of the entry before it. -/
def LinkedFrom (previous digest : ε → δ) : (start : δ) → List ε → Prop
  | _, [] => True
  | start, entry :: entries =>
      previous entry = start ∧ LinkedFrom previous digest (digest entry) entries

/-- The stored digest of an entry is recomputed from what it stores. -/
def Sealed (link : δ → α → δ) (previous digest : ε → δ) (item : ε → α)
    (entry : ε) : Prop :=
  digest entry = link (previous entry) (item entry)

/-- The last stored digest. -/
def rootFrom (digest : ε → δ) (start : δ) (entries : List ε) : δ :=
  (entries.getLast?.map digest).getD start

@[simp] theorem rootFrom_nil (start : δ) :
    rootFrom digest start [] = start :=
  rfl

@[simp] theorem rootFrom_cons (start : δ) (entry : ε) (entries : List ε) :
    rootFrom digest start (entry :: entries) =
      rootFrom digest (digest entry) entries := by
  cases entries with
  | nil => rfl
  | cons next entries => simp [rootFrom, List.getLast?_cons]

/-- An entry is appended to the digest of the last one. -/
theorem linkedFrom_concat {start : δ} {entries : List ε} {entry : ε} :
    LinkedFrom previous digest start (entries ++ [entry]) ↔
      LinkedFrom previous digest start entries ∧
        previous entry = rootFrom digest start entries := by
  induction entries generalizing start with
  | nil => simp [LinkedFrom]
  | cons first entries induction =>
      rw [List.cons_append, LinkedFrom, LinkedFrom, induction, rootFrom_cons,
        and_assoc]

/-- What holds of the start and of every stored digest holds of what the
entries point at. -/
theorem LinkedFrom.forall_previous {good : δ → Prop} {entries : List ε}
    {start : δ} (linked : LinkedFrom previous digest start entries)
    (startGood : good start) (digestsGood : ∀ entry ∈ entries, good (digest entry)) :
    ∀ entry ∈ entries, good (previous entry) := by
  induction entries generalizing start with
  | nil => simp
  | cons entry entries induction =>
      obtain ⟨samePrevious, linked⟩ := linked
      obtain ⟨headGood, tailGood⟩ := List.forall_mem_cons.mp digestsGood
      exact List.forall_mem_cons.mpr
        ⟨samePrevious ▸ startGood, induction linked headGood tailGood⟩

/-- The link function tells apart what any two of the entries store. -/
def CollisionFree (link : δ → α → δ) (previous : ε → δ) (item : ε → α)
    (entries : List ε) : Prop :=
  ∀ entry ∈ entries, ∀ other ∈ entries,
    link (previous entry) (item entry) = link (previous other) (item other) →
      previous entry = previous other ∧ item entry = item other

theorem CollisionFree.subset {entries larger : List ε}
    (free : CollisionFree link previous item larger)
    (subset : entries ⊆ larger) : CollisionFree link previous item entries :=
  fun entry member other otherMember =>
    free entry (subset member) other (subset otherMember)

/-- Two linked lists of one length that end in one digest store the same
items, unless the link function collides on what they store. -/
theorem LinkedFrom.unique {left right : List ε} {first second : δ}
    (leftLinked : LinkedFrom previous digest first left)
    (rightLinked : LinkedFrom previous digest second right)
    (sealedAll : ∀ entry ∈ left ++ right, Sealed link previous digest item entry)
    (free : CollisionFree link previous item (left ++ right))
    (sameLength : left.length = right.length)
    (sameRoot : rootFrom digest first left = rootFrom digest second right) :
    first = second ∧ left.map item = right.map item := by
  induction left generalizing right first second with
  | nil =>
      cases List.length_eq_zero_iff.mp sameLength.symm
      exact ⟨sameRoot, rfl⟩
  | cons entry left induction =>
      cases right with
      | nil => cases sameLength
      | cons other right =>
          obtain ⟨entryPrevious, leftLinked⟩ := leftLinked
          obtain ⟨otherPrevious, rightLinked⟩ := rightLinked
          rw [rootFrom_cons, rootFrom_cons] at sameRoot
          have later : left ++ right ⊆ entry :: left ++ other :: right := by
            intro found member
            rcases List.mem_append.mp member with inLeft | inRight
            · simp [inLeft]
            · simp [inRight]
          obtain ⟨sameDigest, sameItems⟩ := induction leftLinked rightLinked
            (fun found member => sealedAll found (later member))
            (free.subset later) (Nat.succ.inj sameLength) sameRoot
          have entrySealed : Sealed link previous digest item entry :=
            sealedAll entry (by simp)
          have otherSealed : Sealed link previous digest item other :=
            sealedAll other (by simp)
          obtain ⟨samePrevious, sameItem⟩ :=
            free entry (by simp) other (by simp)
              (entrySealed.symm.trans (sameDigest.trans otherSealed))
          refine ⟨?_, ?_⟩
          · rw [← entryPrevious, ← otherPrevious, samePrevious]
          · rw [List.map_cons, List.map_cons, sameItem, sameItems]

end

end TrustLayer.Library
