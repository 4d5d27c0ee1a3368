import Mathlib.Data.List.Sort

/-!
# The items of a sorted list

What a search finds first in a list that was sorted stably, what is chosen when
the first items are taken, and how many items there are around a rank, read off
the list before it was sorted.
-/

namespace TrustLayer.Library

variable {α : Type} {r : α → α → Prop} [DecidableRel r]

/-- The first item that passes and that no earlier or later one that passes
goes before. -/
def foremost (r : α → α → Prop) [DecidableRel r] (passes : α → Bool) :
    List α → Option α
  | [] => none
  | item :: items =>
      match foremost r passes items with
      | none => if passes item then some item else none
      | some found => if passes item ∧ r item found then some item else some found

theorem foremost_mem {passes : α → Bool} {items : List α} {found : α}
    (search : foremost r passes items = some found) :
    found ∈ items ∧ passes found = true := by
  induction items generalizing found with
  | nil => cases search
  | cons item items induction =>
      rw [foremost] at search
      cases later : foremost r passes items with
      | none =>
          rw [later] at search
          by_cases here : passes item
          · cases (if_pos here).symm.trans search
            exact ⟨List.mem_cons_self, here⟩
          · cases (if_neg here).symm.trans search
      | some other =>
          rw [later] at search
          by_cases here : passes item ∧ r item other
          · cases (if_pos here).symm.trans search
            exact ⟨List.mem_cons_self, here.1⟩
          · cases (if_neg here).symm.trans search
            obtain ⟨member, passed⟩ := induction later
            exact ⟨List.mem_cons_of_mem _ member, passed⟩

theorem foremost_eq_none_iff {passes : α → Bool} {items : List α} :
    foremost r passes items = none ↔ ∀ item ∈ items, passes item = false := by
  induction items with
  | nil => simp [foremost]
  | cons item items induction =>
      rw [foremost, List.forall_mem_cons, ← induction]
      cases foremost r passes items with
      | none => simp
      | some found =>
          by_cases before : passes item ∧ r item found <;> simp [before]

/-- An item is found where it is inserted, unless one before it passes. -/
theorem find?_orderedInsert [IsTrans α r] {passes : α → Bool} {items : List α} {item : α}
    (sorted : items.Pairwise r) :
    (items.orderedInsert r item).find? passes =
      match items.find? passes with
      | none => if passes item then some item else none
      | some found =>
          if passes item ∧ r item found then some item else some found := by
  induction items with
  | nil => by_cases here : passes item <;> simp [here]
  | cons head items induction =>
      obtain ⟨above, rest⟩ := List.pairwise_cons.mp sorted
      by_cases before : r item head
      · rw [List.orderedInsert_cons_of_le r items before, List.find?_cons]
        have reaches : ∀ found ∈ (head :: items).find? passes, r item found := by
          intro found search
          rcases List.mem_cons.mp (List.mem_of_find?_eq_some search) with
            rfl | later
          · exact before
          · exact trans_of r before (above found later)
        cases search : (head :: items).find? passes with
        | none => cases passes item <;> rfl
        | some found =>
            have reached := reaches found search
            cases passes item <;> simp [reached]
      · rw [List.orderedInsert_of_not_le r items before, List.find?_cons,
          List.find?_cons]
        cases here : passes head with
        | false => exact induction rest
        | true => simp [before]

section

variable [Std.Total r] [IsTrans α r]

theorem find?_insertionSort (passes : α → Bool) (items : List α) :
    (items.insertionSort r).find? passes = foremost r passes items := by
  induction items with
  | nil => rfl
  | cons item items induction =>
      rw [List.insertionSort_cons,
        find?_orderedInsert (List.pairwise_insertionSort r items), induction]
      rfl

/-- No item that passes goes before the foremost without being its equal. -/
theorem foremost_le {passes : α → Bool} {items : List α} {found item : α}
    (search : foremost r passes items = some found) (member : item ∈ items)
    (passed : passes item = true) : r found item := by
  induction items generalizing found with
  | nil => cases member
  | cons head items induction =>
      rw [foremost] at search
      cases later : foremost r passes items with
      | none =>
          have absent := foremost_eq_none_iff.mp later
          rcases List.mem_cons.mp member with rfl | inTail
          · rw [later] at search
            cases (if_pos passed).symm.trans search
            exact refl _
          · rw [absent item inTail] at passed
            cases passed
      | some other =>
          rw [later] at search
          by_cases here : passes head ∧ r head other
          · cases (if_pos here).symm.trans search
            rcases List.mem_cons.mp member with rfl | inTail
            · exact refl _
            · exact trans_of r here.2 (induction later inTail)
          · cases (if_neg here).symm.trans search
            rcases List.mem_cons.mp member with rfl | inTail
            · exact (Std.Total.total item found).resolve_left
                fun before => here ⟨passed, before⟩
            · exact induction later inTail

/-! ## The first items by their keys -/

variable {κ : Type}

/-- The keys of the first items in order. -/
def chosenKeys (r : α → α → Prop) [DecidableRel r] (key : α → κ) (count : Nat)
    (items : List α) : List κ :=
  ((items.insertionSort r).take count).map key

variable {key : α → κ} {count : Nat} {items : List α}

omit [Std.Total r] [IsTrans α r] in
theorem take_append_drop_perm :
    ((items.insertionSort r).take count ++
      (items.insertionSort r).drop count).Perm items := by
  rw [List.take_append_drop]
  exact List.perm_insertionSort r items

omit [Std.Total r] [IsTrans α r] in
theorem mem_chosenKeys_of_mem_drop (nodup : (items.map key).Nodup) {item : α}
    (dropped : item ∈ (items.insertionSort r).drop count) :
    key item ∉ chosenKeys r key count items := by
  have keys := ((@take_append_drop_perm _ r _ count items).map key).nodup_iff.mpr
    nodup
  rw [List.map_append] at keys
  intro chosen
  exact (List.nodup_append.mp keys).2.2 _ chosen _
    (List.mem_map_of_mem dropped) rfl

variable [DecidableEq κ]

omit [Std.Total r] [IsTrans α r] in
/-- As many items are chosen as there are to choose. -/
theorem length_chosen (nodup : (items.map key).Nodup)
    (enough : count ≤ items.length) :
    (items.filter fun item => key item ∈ chosenKeys r key count items).length =
      count := by
  have permuted := (@take_append_drop_perm _ r _ count items).filter
    fun item => decide (key item ∈ chosenKeys r key count items)
  have front : ((items.insertionSort r).take count).filter
      (fun item => decide (key item ∈ chosenKeys r key count items)) =
        (items.insertionSort r).take count := by
    rw [List.filter_eq_self]
    intro item member
    exact decide_eq_true (List.mem_map_of_mem member)
  have back : ((items.insertionSort r).drop count).filter
      (fun item => decide (key item ∈ chosenKeys r key count items)) = [] := by
    rw [List.filter_eq_nil_iff]
    intro item member chosen
    exact mem_chosenKeys_of_mem_drop nodup member (of_decide_eq_true chosen)
  rw [← permuted.length_eq, List.filter_append, front, back, List.append_nil,
    List.length_take_of_le]
  rw [(List.perm_insertionSort r items).length_eq]
  exact enough

omit [DecidableEq κ] in
/-- What is chosen goes before what is not. -/
theorem chosen_before (nodup : (items.map key).Nodup) {first second : α}
    (inFirst : first ∈ items) (inSecond : second ∈ items)
    (chosen : key first ∈ chosenKeys r key count items)
    (left : key second ∉ chosenKeys r key count items) : r first second := by
  have sorted := List.pairwise_insertionSort r items
  rw [← List.take_append_drop count (items.insertionSort r),
    List.pairwise_append] at sorted
  have split : ∀ item ∈ items, item ∈ (items.insertionSort r).take count ∨
      item ∈ (items.insertionSort r).drop count := by
    intro item member
    rw [← List.mem_append]
    exact take_append_drop_perm.mem_iff.mpr member
  have taken : first ∈ (items.insertionSort r).take count := by
    apply (split first inFirst).resolve_right
    intro dropped
    exact mem_chosenKeys_of_mem_drop nodup dropped chosen
  have dropped : second ∈ (items.insertionSort r).drop count := by
    apply (split second inSecond).resolve_left
    intro taken
    exact left (List.mem_map_of_mem taken)
  exact sorted.2.2 first taken second dropped

end

/-! ## Ranks -/

section

variable {β : Type} [LinearOrder β] {items front back : List β} {found : β}
  {rank : Nat}

theorem countP_lt_le_length
    (sorted : (front ++ found :: back).Pairwise (· ≤ ·)) :
    (front ++ found :: back).countP (fun item => item < found) ≤
      front.length := by
  have behind : (found :: back).countP (fun item => item < found) = 0 := by
    rw [List.countP_eq_zero]
    intro item member
    rcases List.mem_cons.mp member with rfl | later
    · simp
    · simpa using List.rel_of_pairwise_cons (List.pairwise_append.mp sorted).2.1
        later
  rw [List.countP_append, behind, Nat.add_zero]
  exact List.countP_le_length

theorem length_lt_countP_le
    (sorted : (front ++ found :: back).Pairwise (· ≤ ·)) :
    front.length <
      (front ++ found :: back).countP (fun item => item ≤ found) := by
  have before : front.countP (fun item => item ≤ found) = front.length := by
    rw [List.countP_eq_length]
    intro item member
    simpa using (List.pairwise_append.mp sorted).2.2 item member found
      List.mem_cons_self
  rw [List.countP_append, before, List.countP_cons_of_pos (by simp)]
  omega

/-- As many items as the rank says are below the item at the rank, at most,
and more items than that are not above it. -/
theorem countP_at_rank
    (at_ : (items.insertionSort (· ≤ ·))[rank]? = some found) :
    items.countP (fun item => item < found) ≤ rank ∧
      rank < items.countP (fun item => item ≤ found) := by
  have sorted := List.pairwise_insertionSort (· ≤ ·) items
  have permuted := List.perm_insertionSort (· ≤ ·) items
  obtain ⟨inside, same⟩ := List.getElem?_eq_some_iff.mp at_
  have split := List.take_append_drop rank (items.insertionSort (· ≤ ·))
  rw [List.drop_eq_getElem_cons inside, same] at split
  have size := List.length_take_of_le (Nat.le_of_lt inside)
  rw [← split] at sorted permuted
  rw [← permuted.countP_eq, ← permuted.countP_eq]
  constructor
  · exact (countP_lt_le_length sorted).trans size.le
  · exact size.symm.le.trans_lt (length_lt_countP_le sorted)

end

end TrustLayer.Library
