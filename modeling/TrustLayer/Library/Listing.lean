import Mathlib.Data.List.Sort
import Mathlib.Order.Defs.LinearOrder

/-!
# Ordered and limited listings

What a query may return that orders rows by a key, greatest first, and limits
their number.  Rows with equal keys come in any order.
-/

namespace TrustLayer.Library

variable {α κ : Type} [LinearOrder κ]

/-- `listed` is an answer to `ORDER BY key DESC LIMIT limit` over `rows`. -/
def IsListing (key : α → κ) (limit : Nat) (rows listed : List α) : Prop :=
  ∃ ordered : List α, ordered.Perm rows ∧
    ordered.Pairwise (fun earlier later => key later ≤ key earlier) ∧
    listed = ordered.take limit

/-- How many rows come at or above a row. -/
def rank (key : α → κ) (rows : List α) (row : α) : Nat :=
  rows.countP fun other => key row ≤ key other

variable {key : α → κ} {limit : Nat} {rows listed : List α} {row : α}

theorem IsListing.subset (listing : IsListing key limit rows listed) :
    listed ⊆ rows := by
  obtain ⟨ordered, permutation, -, rfl⟩ := listing
  exact fun row member => permutation.subset (List.mem_of_mem_take member)

/-- A row of small rank is listed, whichever order the ties come in. -/
theorem IsListing.mem_of_rank (listing : IsListing key limit rows listed)
    (member : row ∈ rows) (few : rank key rows row ≤ limit) : row ∈ listed := by
  obtain ⟨ordered, permutation, sorted, rfl⟩ := listing
  by_contra missing
  have inOrdered : row ∈ ordered.take limit ++ ordered.drop limit := by
    simpa using permutation.mem_iff.mpr member
  have dropped : row ∈ ordered.drop limit :=
    (List.mem_append.mp inOrdered).resolve_left missing
  have full : (ordered.take limit).length = limit := by
    have nonempty := List.length_pos_of_mem dropped
    simp only [List.length_drop] at nonempty
    simp only [List.length_take]
    omega
  have above : ∀ other ∈ ordered.take limit, key row ≤ key other := by
    rw [← List.take_append_drop limit ordered] at sorted
    exact fun other taken => (List.pairwise_append.mp sorted).2.2 other taken
      row dropped
  have counted : rank key rows row =
      rank key (ordered.take limit) row + rank key (ordered.drop limit) row := by
    calc rank key rows row
      _ = rank key ordered row := (permutation.countP_eq _).symm
      _ = _ := by
        rw [rank, ← List.take_append_drop limit ordered, List.countP_append]
        simp [rank]
  have taken : rank key (ordered.take limit) row = limit := by
    rw [rank, List.countP_eq_length.mpr (by simpa using above), full]
  have itself : 0 < rank key (ordered.drop limit) row :=
    List.countP_pos_iff.mpr ⟨row, dropped, by simp⟩
  omega

section

variable [DecidableEq α]

/-- The rows but one, greatest key first. -/
def sortedOthers (key : α → κ) (rows : List α) (row : α) : List α :=
  (rows.erase row).insertionSort fun earlier later => key later ≤ key earlier

/-- The order that lists a row behind all others of the same key. -/
def lastOfTies (key : α → κ) (rows : List α) (row : α) : List α :=
  (sortedOthers key rows row).filter (fun other => key row ≤ key other) ++
    row :: (sortedOthers key rows row).filter fun other =>
      !decide (key row ≤ key other)

theorem sortedOthers_perm (key : α → κ) (rows : List α) (row : α) :
    (sortedOthers key rows row).Perm (rows.erase row) :=
  List.perm_insertionSort _ _

theorem sortedOthers_sorted (key : α → κ) (rows : List α) (row : α) :
    (sortedOthers key rows row).Pairwise fun earlier later =>
      key later ≤ key earlier := by
  have total : Std.Total fun earlier later : α => key later ≤ key earlier :=
    ⟨fun _ _ => le_total _ _⟩
  have transitive : IsTrans α fun earlier later => key later ≤ key earlier :=
    ⟨fun _ _ _ first second => second.trans first⟩
  exact List.pairwise_insertionSort _ _

theorem lastOfTies_perm (member : row ∈ rows) :
    (lastOfTies key rows row).Perm rows := by
  have others := sortedOthers_perm key rows row
  calc (lastOfTies key rows row).Perm
        (row :: sortedOthers key rows row) :=
      List.perm_middle.trans ((List.filter_append_perm _ _).cons row)
    _ |>.Perm (row :: rows.erase row) := others.cons row
    _ |>.Perm rows := (List.perm_cons_erase member).symm

theorem lastOfTies_sorted (key : α → κ) (rows : List α) (row : α) :
    (lastOfTies key rows row).Pairwise fun earlier later =>
      key later ≤ key earlier := by
  have sorted := sortedOthers_sorted key rows row
  refine List.pairwise_append.mpr ⟨sorted.filter _,
    List.pairwise_cons.mpr ⟨?_, sorted.filter _⟩, ?_⟩
  · intro other below
    have lower : ¬ key row ≤ key other := by
      simpa using (List.mem_filter.mp below).2
    exact (not_le.mp lower).le
  · intro earlier above later rest
    have higher : key row ≤ key earlier := by
      simpa using (List.mem_filter.mp above).2
    rcases List.mem_cons.mp rest with rfl | below
    · exact higher
    · have lower : ¬ key row ≤ key later := by
        simpa using (List.mem_filter.mp below).2
      exact (not_le.mp lower).le.trans higher

/-- A row of greater rank is left out by some listing. -/
theorem exists_listing_without (member : row ∈ rows) (once : rows.Nodup)
    (many : limit < rank key rows row) :
    ∃ listed, IsListing key limit rows listed ∧ row ∉ listed := by
  refine ⟨(lastOfTies key rows row).take limit, ⟨_, lastOfTies_perm member,
    lastOfTies_sorted key rows row, rfl⟩, ?_⟩
  have counted : rank key rows row = rank key (rows.erase row) row + 1 := by
    rw [rank, (List.perm_cons_erase member).countP_eq, List.countP_cons_of_pos]
    · rfl
    · simp
  have enough : limit ≤ ((sortedOthers key rows row).filter
      fun other => key row ≤ key other).length := by
    rw [← List.countP_eq_length_filter,
      (sortedOthers_perm key rows row).countP_eq]
    rw [counted] at many
    exact Nat.le_of_lt_succ many
  rw [lastOfTies, List.take_append_of_le_length enough]
  intro taken
  have inOthers := (List.mem_filter.mp (List.mem_of_mem_take taken)).1
  exact once.not_mem_erase ((sortedOthers_perm key rows row).mem_iff.mp inOthers)

end

end TrustLayer.Library
