import Mathlib.Data.List.DropRight
import Mathlib.Data.List.Infix
import Mathlib.Data.List.Rotate

/-!
# The last part of a history

The streak that a history ends in, a queue that forgets what is older than a
width, and a ring that forgets all but the last items.
-/

namespace TrustLayer.Library

/-! ## Streaks

A streak is a run of consecutive events with a property.  One event can only
lengthen the streak that the history ends in.
-/

section

variable {ε : Type} {property : ε → Bool} {least : Nat} {history : List ε}
  {event : ε}

/-- The length of the streak that the history ends in. -/
def trailing (property : ε → Bool) (history : List ε) : Nat :=
  (history.rtakeWhile property).length

/-- Some streak of the history has the least length. -/
def HasStreak (property : ε → Bool) (least : Nat) (history : List ε) : Prop :=
  ∃ streak, streak <:+: history ∧ (∀ event ∈ streak, property event = true) ∧
    least ≤ streak.length

theorem trailing_concat_of_pos (holds : property event = true) :
    trailing property (history ++ [event]) = trailing property history + 1 := by
  rw [trailing, List.rtakeWhile_concat_pos _ _ _ holds, List.length_append]
  rfl

theorem trailing_concat_of_neg (fails : ¬ property event = true) :
    trailing property (history ++ [event]) = 0 := by
  rw [trailing, List.rtakeWhile_concat_neg _ _ _ fails, List.length_nil]

theorem hasStreak_nil_iff : HasStreak property least [] ↔ least = 0 := by
  constructor
  · rintro ⟨streak, inside, -, long⟩
    rw [List.infix_nil.mp inside] at long
    exact Nat.le_zero.mp long
  · rintro rfl
    exact ⟨[], List.nil_infix, by simp, Nat.le_refl _⟩

theorem hasStreak_of_trailing (long : least ≤ trailing property history) :
    HasStreak property least history :=
  ⟨history.rtakeWhile property, (List.rtakeWhile_suffix _ _).isInfix,
    fun _ => List.mem_rtakeWhile_imp, long⟩

/-- A streak at the end is no longer than the trailing one. -/
theorem length_le_trailing {streak : List ε} (ends : streak <:+ history)
    (holds : ∀ event ∈ streak, property event = true) :
    streak.length ≤ trailing property history := by
  obtain ⟨front, rfl⟩ := ends
  induction streak using List.reverseRecOn with
  | nil => exact Nat.zero_le _
  | append_singleton streak event induction =>
      have last : property event = true := holds event (by simp)
      have earlier := induction fun other member =>
        holds other (List.mem_append_left _ member)
      rw [← List.append_assoc, trailing_concat_of_pos last, List.length_append]
      exact Nat.succ_le_succ earlier

/-- A new event makes a long streak when the history has one, or when the
trailing streak becomes one. -/
theorem hasStreak_concat_iff :
    HasStreak property least (history ++ [event]) ↔
      HasStreak property least history ∨
        least ≤ trailing property (history ++ [event]) := by
  constructor
  · rintro ⟨streak, inside, holds, long⟩
    rcases List.infix_concat_iff.mp inside with ends | earlier
    · right
      exact long.trans (length_le_trailing ends holds)
    · left
      exact ⟨streak, earlier, holds, long⟩
  · rintro (⟨streak, inside, holds, long⟩ | long)
    · exact ⟨streak, inside.trans (List.prefix_append _ _).isInfix, holds, long⟩
    · exact hasStreak_of_trailing long

end

/-! ## Sliding windows

A queue of instants forgets from its front what is older than a width.  While
the clock does not go back, it holds what a filter of the whole past would.
-/

/-- A queue whose front part alone is dropped loses everything that is. -/
theorem dropWhile_eq_filter {α : Type} {aged : α → Bool} {queue : List α}
    (fronts : queue.Pairwise fun earlier later =>
      aged later = true → aged earlier = true) :
    queue.dropWhile aged = queue.filter fun item => !aged item := by
  induction queue with
  | nil => rfl
  | cons front queue induction =>
      obtain ⟨first, rest⟩ := List.pairwise_cons.mp fronts
      cases old : aged front with
      | true => simp [old, induction rest]
      | false =>
          have young : ∀ item ∈ queue, aged item = false := by
            intro item member
            cases later : aged item with
            | false => rfl
            | true => exact absurd (first item member later) (by simp [old])
          rw [List.dropWhile_cons_of_neg (by simp [old]),
            List.filter_cons_of_pos (by simp [old])]
          congr 1
          symm
          apply List.filter_eq_self.mpr
          intro item member
          simp [young item member]

namespace SlidingWindow

variable {width earlier now : Nat} {queue past : List Nat}

/-- What is younger than the width. -/
def live (width now : Nat) (past : List Nat) : List Nat :=
  past.filter fun instant => decide (now - instant < width)

/-- The loop that pops the front. -/
def expire (width now : Nat) (queue : List Nat) : List Nat :=
  queue.dropWhile fun front => decide (width ≤ now - front)

theorem expire_eq_live (sorted : past.Pairwise (· ≤ ·)) :
    expire width now past = live width now past := by
  rw [expire, dropWhile_eq_filter]
  · apply List.filter_congr
    intro instant _
    rw [← decide_not, decide_eq_decide]
    exact Nat.not_le
  · apply sorted.imp
    intro first second before
    simp only [decide_eq_true_eq]
    omega

/-- What has aged out stays out. -/
theorem live_live (forward : earlier ≤ now) :
    live width now (live width earlier past) = live width now past := by
  rw [live, live, List.filter_filter]
  apply List.filter_congr
  intro instant _
  rw [← Bool.decide_and, decide_eq_decide]
  omega

theorem live_append (first second : List Nat) :
    live width now (first ++ second) =
      live width now first ++ live width now second :=
  List.filter_append _ _

/-- A queue that was last pruned or extended at an instant stands for the past:
nothing that is missing from it will be asked for again. -/
structure Follows (width now : Nat) (queue past : List Nat) : Prop where
  sorted : queue.Pairwise (· ≤ ·)
  latest : ∀ instant ∈ queue, instant ≤ now
  same : ∀ later, now ≤ later → live width later queue = live width later past

theorem Follows.nil : Follows width now [] [] :=
  ⟨List.Pairwise.nil, nofun, fun _ _ => rfl⟩

theorem Follows.expire_eq (follows : Follows width earlier queue past)
    (forward : earlier ≤ now) : expire width now queue = live width now past := by
  rw [expire_eq_live follows.sorted]
  exact follows.same now forward

theorem Follows.expire (follows : Follows width earlier queue past)
    (forward : earlier ≤ now) :
    Follows width now (expire width now queue) past := by
  rw [expire_eq_live follows.sorted]
  refine
    { sorted := follows.sorted.filter _
      latest := ?_
      same := ?_ }
  · intro instant member
    have kept := (List.mem_filter.mp member).1
    exact Nat.le_trans (follows.latest instant kept) forward
  · intro later behind
    rw [live_live behind]
    exact follows.same later (Nat.le_trans forward behind)

theorem Follows.push (follows : Follows width now queue past) :
    Follows width now (queue ++ [now]) (past ++ [now]) := by
  refine
    { sorted := ?_
      latest := ?_
      same := ?_ }
  · rw [List.pairwise_append]
    refine ⟨follows.sorted, List.pairwise_singleton _ _, ?_⟩
    intro instant member other same
    rw [List.mem_singleton.mp same]
    exact follows.latest instant member
  · intro instant member
    rcases List.mem_append.mp member with old | new
    · exact follows.latest instant old
    · exact Nat.le_of_eq (List.mem_singleton.mp new)
  · intro later behind
    rw [live_append, live_append, follows.same later behind]

end SlidingWindow

/-! ## Rings

A ring of slots is written round and round.
-/

/-- The next slot to write, and whether all of them were. -/
structure RingBuffer (α : Type) where
  slots : List α
  next : Nat
  filled : Bool
  next_lt : next < slots.length

namespace RingBuffer

variable {α : Type}

def new (cap : Nat) (some : 0 < cap) (blank : α) : RingBuffer α where
  slots := List.replicate cap blank
  next := 0
  filled := false
  next_lt := by rwa [List.length_replicate]

def push (ring : RingBuffer α) (item : α) : RingBuffer α where
  slots := ring.slots.set ring.next item
  next := (ring.next + 1) % ring.slots.length
  filled := ring.filled || (ring.next + 1) % ring.slots.length == 0
  next_lt := by
    rw [List.length_set]
    exact Nat.mod_lt _ (Nat.zero_lt_of_lt ring.next_lt)

/-- The slots that were written, in their order. -/
def held (ring : RingBuffer α) : List α :=
  if ring.filled then ring.slots else ring.slots.take ring.next

/-- The same, the oldest item first. -/
def recent (ring : RingBuffer α) : List α :=
  if ring.filled then ring.slots.drop ring.next ++ ring.slots.take ring.next
  else ring.slots.take ring.next

def pushes (ring : RingBuffer α) (items : List α) : RingBuffer α :=
  items.foldl push ring

theorem held_perm_recent (ring : RingBuffer α) : ring.held.Perm ring.recent := by
  rw [held, recent]
  split
  · have whole := List.take_append_drop ring.next ring.slots
    have swapped : (ring.slots.take ring.next ++ ring.slots.drop ring.next).Perm
        (ring.slots.drop ring.next ++ ring.slots.take ring.next) :=
      List.perm_append_comm
    rwa [whole] at swapped
  · exact List.Perm.refl _

@[simp] theorem length_push (ring : RingBuffer α) (item : α) :
    (ring.push item).slots.length = ring.slots.length :=
  List.length_set

theorem recent_mk {front rest : List α} {filled : Bool}
    {inside : front.length < (front ++ rest).length} :
    (RingBuffer.mk (front ++ rest) front.length filled inside).recent =
      if filled then rest ++ front else front := by
  simp [recent]

/-- Behind the last slot the ring starts over. -/
theorem push_last {front : List α} {old item : α} {filled : Bool}
    {inside : front.length < (front ++ [old]).length} :
    (push ⟨front ++ [old], front.length, filled, inside⟩ item).recent =
      front ++ [item] := by
  simp [push, recent]

theorem push_inside {front back : List α} {old second item : α} {filled : Bool}
    {inside : front.length < (front ++ old :: second :: back).length} :
    (push ⟨front ++ old :: second :: back, front.length, filled, inside⟩
      item).recent =
        if filled then second :: back ++ (front ++ [item])
        else front ++ [item] := by
  have size : (front ++ old :: second :: back).length =
      front.length + (back.length + 1) + 1 := by
    simp only [List.length_append, List.length_cons]
    rfl
  have next : (front.length + 1) % (front ++ old :: second :: back).length =
      front.length + 1 := by
    apply Nat.mod_eq_of_lt
    omega
  have behind : (front ++ [item]).length <
      (front ++ [item] ++ second :: back).length := by
    simp
  have pushed : push ⟨front ++ old :: second :: back, front.length, filled,
      inside⟩ item =
      ⟨front ++ [item] ++ second :: back, (front ++ [item]).length, filled,
        behind⟩ := by
    simp only [push, RingBuffer.mk.injEq, next]
    simp
  rw [pushed, recent_mk]

/-- The oldest item makes room for the new one. -/
theorem recent_push (ring : RingBuffer α) (item : α) :
    (ring.push item).recent =
      ring.recent.rtake (ring.slots.length - 1) ++ [item] := by
  obtain ⟨slots, next, filled, inside⟩ := ring
  obtain ⟨front, old, back, rfl, rfl⟩ :
      ∃ front old back, slots = front ++ old :: back ∧ front.length = next := by
    refine ⟨slots.take next, slots[next], slots.drop (next + 1), ?_, ?_⟩
    · rw [← List.drop_eq_getElem_cons inside, List.take_append_drop]
    · exact List.length_take_of_le (Nat.le_of_lt inside)
  have size : (front ++ old :: back).length - 1 =
      front.length + back.length := by
    simp only [List.length_append, List.length_cons]
    rfl
  have early : front.rtake (front.length + back.length) = front := by
    rw [List.rtake, Nat.sub_eq_zero_of_le (Nat.le_add_right _ _),
      List.drop_zero]
  have late : (old :: back ++ front).rtake (front.length + back.length) =
      back ++ front := by
    have one : (old :: back ++ front).length -
        (front.length + back.length) = 1 := by
      simp only [List.length_append, List.length_cons]
      omega
    rw [List.rtake, one]
    rfl
  rw [recent_mk, size]
  cases back with
  | nil =>
      rw [push_last]
      cases filled with
      | true => exact congrArg (· ++ [item]) late.symm
      | false => exact congrArg (· ++ [item]) early.symm
  | cons second back =>
      rw [push_inside]
      cases filled with
      | true =>
          rw [if_pos rfl, if_pos rfl, late, List.append_assoc]
      | false => exact congrArg (· ++ [item]) early.symm

/-- What is recent of the recent. -/
theorem rtake_rtake {least most : Nat} (le : least ≤ most) (items : List α) :
    (items.rtake most).rtake least = items.rtake least := by
  rw [List.rtake_eq_reverse_take_reverse, List.rtake_eq_reverse_take_reverse,
    List.rtake_eq_reverse_take_reverse, List.reverse_reverse, List.take_take,
    Nat.min_eq_left le]

theorem pushes_append (ring : RingBuffer α) (items : List α) (item : α) :
    ring.pushes (items ++ [item]) = (ring.pushes items).push item :=
  List.foldl_append

theorem length_pushes (ring : RingBuffer α) (items : List α) :
    (ring.pushes items).slots.length = ring.slots.length := by
  induction items using List.reverseRecOn with
  | nil => rfl
  | append_singleton items item induction =>
      rw [pushes_append, length_push, induction]

/-- A ring holds the last items, as many as it has slots. -/
theorem recent_pushes {cap : Nat} {some : 0 < cap} {blank : α}
    (items : List α) :
    ((new cap some blank).pushes items).recent = items.rtake cap := by
  induction items using List.reverseRecOn with
  | nil => simp [pushes, new, recent]
  | append_singleton items item induction =>
      have size : ((new cap some blank).pushes items).slots.length = cap := by
        rw [length_pushes, new, List.length_replicate]
      obtain ⟨rest, rfl⟩ := Nat.exists_eq_add_one.mpr some
      rw [pushes_append, recent_push, induction, size, Nat.add_sub_cancel,
        rtake_rtake (Nat.le_succ rest), List.rtake_concat_succ]

end RingBuffer

end TrustLayer.Library
