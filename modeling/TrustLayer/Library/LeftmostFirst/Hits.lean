import TrustLayer.Library.Delimited
import TrustLayer.Library.LeftmostFirst.Occurs
import TrustLayer.Library.LeftmostFirst.Pieces

/-!
# Matches with what stands behind them

Where the matches of a pattern never lie inside one another, and each begins and
ends in one way only, a scan from left to right finds all of them.
-/

namespace TrustLayer.Library

open WordClass (isWord)

namespace Regex

section

variable [WordClass]

/-- Each match with the text behind it. -/
def followed : List (Str × Str) → List (Str × Str)
  | [] => []
  | hit :: later =>
      (hit.1, hit.2 ++ later.flatMap fun hit => hit.1 ++ hit.2) :: followed later

/-- The matches of `find_iter`, each with the text behind it. -/
def hits (pattern : Regex) (spot : Spot Char) : List (Str × Str) :=
  followed (pattern.scan spot).found

/-- The spot in a text behind its front. -/
def spotBehind (behindWord : Bool) (front rest : Str) : Spot Char :=
  ⟨lastIsWord behindWord front, rest⟩

/-- The pattern matches a text somewhere, in front of another one. -/
def Occurrence (pattern : Regex) (spot : Spot Char) (matched behind : Str) : Prop :=
  ∃ front, spot.rest = front ++ (matched ++ behind) ∧
    ∃ next ∈ pattern.ends (spotBehind spot.behindWord front (matched ++ behind)),
      next.rest = behind

/-- A match consumes some text. -/
def Consuming (pattern : Regex) : Prop :=
  ∀ ⦃spot next : Spot Char⦄, next ∈ pattern.ends spot → next.size < spot.size

/-- All matches at a spot are the same. -/
def Unique (pattern : Regex) : Prop :=
  ∀ ⦃spot first second : Spot Char⦄, first ∈ pattern.ends spot →
    second ∈ pattern.ends spot → first = second

/-- No spot inside a match has such a property. -/
def InnerNot (property : Spot Char → Prop) (pattern : Regex) : Prop :=
  ∀ ⦃spot next : Spot Char⦄, next ∈ pattern.ends spot →
    ∀ front rest, spot.rest = front ++ rest → front ≠ [] →
      next.size < rest.length → ¬ property (spotBehind spot.behindWord front rest)

/-- A pattern whose matches a scan finds one by one. -/
structure Separate (pattern : Regex) : Prop where
  consuming : Consuming pattern
  unique : Unique pattern
  alone : InnerNot (fun spot => pattern.ends spot ≠ []) pattern

variable {pattern : Regex} {spot next : Spot Char} {front rest : Str}
  {behindWord : Bool}

theorem spotBehind_append (front later rest : Str) :
    spotBehind behindWord (front ++ later) rest =
      spotBehind (lastIsWord behindWord front) later rest := by
  rw [spotBehind, spotBehind, lastIsWord, List.foldl_append]
  rfl

/-- A spot remembers whether a word character stands in front of it. -/
theorem eq_spotBehind_of_mem_ends {pattern : Regex} {spot next : Spot Char}
    (member : next ∈ pattern.ends spot) :
    ∃ used, spot.rest = used ++ next.rest ∧
      next = spotBehind spot.behindWord used next.rest := by
  induction pattern generalizing spot next with
  | empty =>
      rw [List.mem_singleton.mp member]
      exact ⟨[], rfl, rfl⟩
  | single accepts =>
      obtain ⟨behindWord, rest⟩ := spot
      cases rest with
      | nil => cases member
      | cons item rest =>
          rw [ends] at member
          dsimp only at member
          split at member
          · rw [List.mem_singleton.mp member]
            exact ⟨[item], rfl, rfl⟩
          · cases member
  | seq first second firstUsed secondUsed =>
      obtain ⟨middle, atMiddle, atEnd⟩ := List.mem_flatMap.mp member
      obtain ⟨used, same, here⟩ := firstUsed atMiddle
      obtain ⟨more, same', there⟩ := secondUsed atEnd
      refine ⟨used ++ more, by rw [same, same', List.append_assoc], ?_⟩
      rw [spotBehind_append, there, here]
      rfl
  | alt left right leftUsed rightUsed =>
      rcases List.mem_append.mp member with onLeft | onRight
      · exact leftUsed onLeft
      · exact rightUsed onRight
  | star body bodyUsed =>
      induction spot using Spot.size_induction with
      | step spot induction =>
          rw [ends_star] at member
          rcases List.mem_append.mp member with repeated | done
          · obtain ⟨middle, atMiddle, atEnd⟩ := List.mem_flatMap.mp repeated
            obtain ⟨inBody, shorter⟩ := List.mem_filter.mp atMiddle
            obtain ⟨used, same, here⟩ := bodyUsed inBody
            obtain ⟨more, same', there⟩ :=
              induction middle (of_decide_eq_true shorter) atEnd
            refine ⟨used ++ more, by rw [same, same', List.append_assoc], ?_⟩
            rw [spotBehind_append, there, here]
            rfl
          · rw [List.mem_singleton.mp done]
            exact ⟨[], rfl, rfl⟩
  | wordBoundary =>
      rw [ends] at member
      split at member
      · rw [List.mem_singleton.mp member]
        exact ⟨[], rfl, rfl⟩
      · cases member
  | textEnd =>
      rw [ends] at member
      split at member
      · rw [List.mem_singleton.mp member]
        exact ⟨[], rfl, rfl⟩
      · cases member

theorem ends_single {accepts : Char → Bool} {item : Char} :
    ends (.single accepts) ⟨behindWord, item :: rest⟩ =
      if accepts item then [.behind item rest] else [] :=
  rfl

theorem mem_ends_single_iff {accepts : Char → Bool} {item : Char} :
    next ∈ ends (.single accepts) ⟨behindWord, item :: rest⟩ ↔
      accepts item = true ∧ next = .behind item rest := by
  rw [ends_single]
  cases accepts item <;> simp

/-- Parts of one character each. -/
theorem mem_ends_singles_iff {tests : List (Char → Bool)} :
    next ∈ (all (tests.map .single)).ends spot ↔
      ∃ used, List.Forall₂ (fun test char => test char = true) tests used ∧
        spot.rest = used ++ next.rest ∧
        next = spotBehind spot.behindWord used next.rest := by
  induction tests generalizing spot with
  | nil =>
      constructor
      · intro member
        rw [List.mem_singleton.mp member]
        exact ⟨[], .nil, rfl, rfl⟩
      · rintro ⟨_, accepted, split, here⟩
        cases accepted
        rw [here, ← List.nil_append next.rest, ← split]
        exact List.mem_singleton_self _
  | cons test tests induction =>
      obtain ⟨behindWord, rest⟩ := spot
      constructor
      · intro member
        obtain ⟨middle, atMiddle, atEnd⟩ := List.mem_flatMap.mp member
        cases rest with
        | nil => cases atMiddle
        | cons item rest =>
            obtain ⟨accepted, rfl⟩ := mem_ends_single_iff.mp atMiddle
            obtain ⟨used, each, split, here⟩ := induction.mp atEnd
            exact ⟨item :: used, .cons accepted each,
              congrArg (item :: ·) split, here⟩
      · rintro ⟨_, each, split, here⟩
        cases each with
        | @cons _ item _ used accepted each =>
            change rest = item :: (used ++ next.rest) at split
            subst split
            refine List.mem_flatMap.mpr
              ⟨_, mem_ends_single_iff.mpr ⟨accepted, rfl⟩, ?_⟩
            exact induction.mpr ⟨used, each, rfl, here⟩

/-! ## Steps of a scan -/

theorem hits_nil : pattern.hits ⟨behindWord, []⟩ = [] :=
  rfl

theorem hits_skip {item : Char}
    (none : pattern.find ⟨behindWord, item :: rest⟩ = none) :
    pattern.hits ⟨behindWord, item :: rest⟩ =
      pattern.hits (.behind item rest) := by
  rw [hits, scan_skip none]
  rfl

theorem hits_hit {matched : Str} (found : pattern.find spot = some next)
    (split : spot.rest = matched ++ next.rest) :
    pattern.hits spot = (matched, next.rest) :: pattern.hits next := by
  rw [hits, scan_hit found split, followed, ← scan_split]
  rfl

theorem Consuming.ends_eq_nil (consuming : Consuming pattern)
    (none : pattern.find spot = none) : pattern.ends spot = [] := by
  rw [find] at none
  cases first : (pattern.ends spot).head? with
  | none => exact List.head?_eq_none_iff.mp first
  | some next =>
      have shorter := consuming (List.mem_of_head? first)
      rw [first, Option.filter, if_pos (decide_eq_true shorter)] at none
      cases none

theorem Consuming.not_occurrence_nil (consuming : Consuming pattern)
    {matched behind : Str} :
    ¬ pattern.Occurrence ⟨behindWord, []⟩ matched behind := by
  intro ⟨front, split, next, member, _⟩
  have shorter := consuming member
  have none := (List.append_eq_nil_iff.mp split.symm).2
  rw [none] at shorter
  exact absurd shorter (Nat.not_lt_zero _)

/-- Where nothing matches, a match is further on. -/
theorem occurrence_skip {item : Char} {matched behind : Str}
    (none : pattern.ends (⟨behindWord, item :: rest⟩ : Spot Char) = []) :
    pattern.Occurrence ⟨behindWord, item :: rest⟩ matched behind ↔
      pattern.Occurrence (.behind item rest) matched behind := by
  constructor
  · intro ⟨front, split, next, member, ended⟩
    cases front with
    | nil =>
        have whole : item :: rest = matched ++ behind := split
        rw [← whole] at member
        have nothing := List.ne_nil_of_mem member
        exact absurd none nothing
    | cons first front =>
        obtain ⟨rfl, tail⟩ := List.cons.inj split
        exact ⟨front, tail, next, member, ended⟩
  · intro ⟨front, split, ended⟩
    exact ⟨item :: front, congrArg (item :: ·) split, ended⟩

/-- The occurrences behind a spot are those of the spot with something in front. -/
theorem occurrence_spotBehind {used matched behind : Str}
    (split : spot.rest = used ++ rest) :
    pattern.Occurrence (spotBehind spot.behindWord used rest) matched behind →
      pattern.Occurrence spot matched behind := by
  intro ⟨front, tail, next, member, ended⟩
  refine ⟨used ++ front, ?_, next, ?_, ended⟩
  · rw [split, List.append_assoc]
    exact congrArg (used ++ ·) tail
  · rw [spotBehind_append]
    exact member

/-- No match begins inside the first one. -/
theorem Separate.occurrence_hit (separate : Separate pattern) {used : Str}
    {matched behind : Str} (inEnds : next ∈ pattern.ends spot)
    (whole : spot.rest = used ++ next.rest) :
    pattern.Occurrence spot matched behind ↔
      matched = used ∧ behind = next.rest ∨
        pattern.Occurrence next matched behind := by
  obtain ⟨front, split, back⟩ := eq_spotBehind_of_mem_ends inEnds
  obtain rfl : front = used := List.append_cancel_right (split.symm.trans whole)
  constructor
  · intro ⟨others, rest, last, member, ended⟩
    have same := whole.symm.trans rest
    by_cases far : front.length ≤ others.length
    · right
      obtain ⟨more, rfl⟩ : front <+: others :=
        List.prefix_of_prefix_length_le ⟨_, same⟩ ⟨_, rfl⟩ far
      rw [List.append_assoc] at same
      rw [spotBehind_append] at member
      rw [back]
      exact ⟨more, List.append_cancel_left same, last, member, ended⟩
    · cases others with
      | nil =>
          left
          have whole' : spot.rest = matched ++ behind := rest
          rw [← whole'] at member
          obtain rfl := separate.unique member inEnds
          rw [ended, whole'] at whole
          exact ⟨List.append_cancel_right whole, ended.symm⟩
      | cons first others =>
          have lengths := congrArg List.length same
          rw [List.length_append, List.length_append] at lengths
          have shorter : next.size < (matched ++ behind).length := by
            rw [Spot.size]
            omega
          have alone := separate.alone inEnds _ _ rest (List.cons_ne_nil _ _)
            shorter
          exact absurd (List.ne_nil_of_mem member) alone
  · rintro (⟨rfl, rfl⟩ | further)
    · refine ⟨[], whole, next, ?_, rfl⟩
      rw [← whole]
      exact inEnds
    · rw [back] at further
      exact occurrence_spotBehind whole further

/-- A scan finds every match there is. -/
theorem Separate.mem_hits_iff (separate : Separate pattern) {matched behind : Str} :
    (matched, behind) ∈ pattern.hits spot ↔
      pattern.Occurrence spot matched behind := by
  induction spot using @scan_induction Char _ _ pattern with
  | nil behindWord =>
      rw [hits_nil]
      constructor
      · nofun
      · intro occurrence
        exact absurd occurrence separate.consuming.not_occurrence_nil
  | skip behindWord item rest none induction =>
      rw [hits_skip none, induction]
      apply Iff.symm
      apply occurrence_skip
      exact separate.consuming.ends_eq_nil none
  | hit spot next used found nonempty whole induction =>
      have inEnds := (find_eq_some found).1
      rw [hits_hit found whole, List.mem_cons, Prod.mk.injEq, induction,
        separate.occurrence_hit inEnds whole]

/-! ## Patterns that consume -/

/-- Whether a pattern may match no text at all. -/
def nullable : Regex → Bool
  | .empty | .star _ | .wordBoundary | .textEnd => true
  | .single _ => false
  | .seq first second => first.nullable && second.nullable
  | .alt left right => left.nullable || right.nullable

omit [WordClass] in
theorem consuming_of_nullable [WordClass] {pattern : Regex}
    (never : pattern.nullable = false) : Consuming pattern := by
  induction pattern with
  | empty | star | wordBoundary | textEnd => cases never
  | single accepts =>
      intro spot next member
      obtain ⟨item, same, -⟩ := mem_ends_single member
      rw [Spot.size, Spot.size, same]
      exact Nat.lt_succ_self _
  | seq first second firstUses secondUses =>
      intro spot next member
      obtain ⟨middle, atMiddle, atEnd⟩ := List.mem_flatMap.mp member
      rcases Bool.and_eq_false_iff.mp never with uses | uses
      · exact (size_le_of_mem_ends atEnd).trans_lt (firstUses uses atMiddle)
      · exact (secondUses uses atEnd).trans_le (size_le_of_mem_ends atMiddle)
  | alt left right leftUses rightUses =>
      intro spot next member
      obtain ⟨onLeft, onRight⟩ := Bool.or_eq_false_iff.mp never
      rcases List.mem_append.mp member with here | here
      · exact leftUses onLeft here
      · exact rightUses onRight here

/-! ## Runs -/

/-- A run of accepted characters that no other stands next to. -/
def MaximalRun (accepts : Char → Bool) (text run : Str) : Prop :=
  ∃ front behind, text = front ++ (run ++ behind) ∧ run ≠ [] ∧
    (∀ char ∈ run, accepts char = true) ∧
    (∀ char ∈ front.getLast?, accepts char = false) ∧
    ∀ char ∈ behind.head?, accepts char = false

variable {accepts : Char → Bool}

/-- The longest repetition comes first. -/
theorem head_ends_star (text : Str) :
    (ends (.star (.single accepts)) (⟨behindWord, text⟩ : Spot Char)).head? =
      some (spotBehind behindWord (text.takeWhile accepts)
        (text.dropWhile accepts)) := by
  induction text generalizing behindWord with
  | nil =>
      rw [ends_star]
      rfl
  | cons item rest induction =>
      rw [ends_star, ends_single]
      cases accepted : accepts item with
      | false =>
          rw [List.takeWhile_cons_of_neg (by simp [accepted]),
            List.dropWhile_cons_of_neg (by simp [accepted])]
          rfl
      | true =>
          have shorter : (Spot.behind item rest).size <
              (⟨behindWord, item :: rest⟩ : Spot Char).size :=
            Nat.lt_succ_self _
          have kept : ([Spot.behind item rest].filter fun next =>
              next.size < (⟨behindWord, item :: rest⟩ : Spot Char).size) =
                [Spot.behind item rest] := by
            exact List.filter_eq_self.mpr (by simpa using shorter)
          rw [List.takeWhile_cons_of_pos accepted,
            List.dropWhile_cons_of_pos accepted, if_pos rfl, kept,
            List.flatMap_cons, List.flatMap_nil, List.append_nil,
            List.head?_append, Spot.behind, induction]
          rfl

/-- A run is matched as a whole. -/
theorem find_plus {item : Char} :
    find (plus (.single accepts)) (⟨behindWord, item :: rest⟩ : Spot Char) =
      if accepts item then
        some (spotBehind behindWord (item :: rest.takeWhile accepts)
          (rest.dropWhile accepts))
      else none := by
  rw [find, plus, ends, ends_single]
  split
  · have shorter : (rest.dropWhile accepts).length < rest.length + 1 :=
      Nat.lt_succ_of_le (List.dropWhile_sublist accepts).length_le
    rw [List.flatMap_cons, List.flatMap_nil, List.append_nil, Spot.behind,
      head_ends_star, Option.filter]
    exact if_pos (decide_eq_true shorter)
  · rfl

section

omit [WordClass]

variable {text run : Str} {item : Char}

theorem not_maximalRun_nil : ¬ MaximalRun accepts [] run := by
  intro ⟨front, behind, split, nonempty, _⟩
  have none := (List.append_eq_nil_iff.mp split.symm).2
  exact nonempty (List.append_eq_nil_iff.mp none).1

/-- A run begins with an accepted character. -/
theorem ne_append_of_stops {behind : Str} (nonempty : run ≠ [])
    (inside : ∀ char ∈ run, accepts char = true)
    (stop : Stops (accepts · = false) text) : text ≠ run ++ behind := by
  rintro rfl
  obtain ⟨first, run, rfl⟩ := List.exists_cons_of_ne_nil nonempty
  have accepted := inside first List.mem_cons_self
  have refused : accepts first = false := stop first rfl
  rw [accepted] at refused
  cases refused

/-- The run at the front of a text, and those behind it. -/
theorem maximalRun_append_iff {used : Str} (nonempty : used ≠ [])
    (inside : ∀ char ∈ used, accepts char = true)
    (stop : Stops (accepts · = false) rest) :
    MaximalRun accepts (used ++ rest) run ↔
      run = used ∨ MaximalRun accepts rest run := by
  have notStop {text : Str} (all : ∀ char ∈ text, accepts char = true) :
      ∀ char ∈ text, ¬ accepts char = false := by
    intro char member
    rw [all char member]
    exact Bool.noConfusion
  constructor
  · intro ⟨front, behind, split, filled, all, before, after⟩
    rcases List.append_eq_append_iff.mp split with
      ⟨more, rfl, tail⟩ | ⟨more, rfl, tail⟩
    · cases more with
      | nil =>
          rw [List.nil_append] at tail
          exact absurd tail (ne_append_of_stops filled all stop)
      | cons first more =>
          refine .inr ⟨first :: more, behind, tail, filled, all, ?_, after⟩
          rw [List.getLast?_append_cons] at before
          exact before
    · rcases List.eq_nil_or_concat front with rfl | ⟨others, last, rfl⟩
      · left
        exact (append_inj_of_stops (notStop all) (notStop inside) after stop
          split.symm).1
      · have refused := before last (by simp)
        rw [inside last (by simp)] at refused
        cases refused
  · rintro (rfl | ⟨front, behind, split, filled, all, before, after⟩)
    · exact ⟨[], rest, rfl, nonempty, inside, nofun, stop⟩
    · refine ⟨used ++ front, behind, ?_, filled, all, ?_, after⟩
      · rw [split, List.append_assoc]
      · cases front with
        | nil =>
            rw [List.nil_append] at split
            exact absurd split (ne_append_of_stops filled all stop)
        | cons first front =>
            rw [List.getLast?_append_cons]
            exact before

theorem maximalRun_cons_iff (refused : accepts item = false) :
    MaximalRun accepts (item :: text) run ↔ MaximalRun accepts text run := by
  constructor
  · intro ⟨front, behind, split, nonempty, inside, before, after⟩
    cases front with
    | nil =>
        have stop : Stops (accepts · = false) (item :: text) :=
          stops_cons.mpr refused
        rw [List.nil_append] at split
        exact absurd split (ne_append_of_stops nonempty inside stop)
    | cons first front =>
        obtain ⟨-, tail⟩ := List.cons.inj split
        refine ⟨front, behind, tail, nonempty, inside, ?_, after⟩
        cases front with
        | nil => nofun
        | cons second front => exact before
  · intro ⟨front, behind, split, nonempty, inside, before, after⟩
    refine ⟨item :: front, behind, congrArg (item :: ·) split, nonempty,
      inside, ?_, after⟩
    cases front with
    | nil =>
        intro char last
        cases last
        exact refused
    | cons first front => exact before

end

/-- The matches are the runs. -/
theorem mem_matched_plus {spot : Spot Char} {run : Str} :
    run ∈ (scan (plus (.single accepts)) spot).matched ↔
      MaximalRun accepts spot.rest run := by
  induction spot using @scan_induction Char _ _ (plus (.single accepts)) with
  | nil behindWord =>
      constructor
      · nofun
      · intro maximal
        exact absurd maximal not_maximalRun_nil
  | skip behindWord item rest none induction =>
      have refused : accepts item = false := by
        rw [find_plus, ite_eq_right_iff] at none
        rw [← Bool.not_eq_true]
        exact fun accepted => nomatch none accepted
      rw [scan_skip none]
      exact induction.trans (maximalRun_cons_iff refused).symm
  | hit spot next used found nonempty whole induction =>
      obtain ⟨behindWord, text⟩ := spot
      cases text with
      | nil => exact absurd (find_eq_some found).2 (Nat.not_lt_zero _)
      | cons item rest =>
          have found' := found
          rw [find_plus, Option.ite_none_right_eq_some] at found'
          obtain ⟨accepted, same⟩ := found'
          have ended : next.rest = rest.dropWhile accepts := by
            cases same
            rfl
          have split : item :: rest =
              (item :: rest.takeWhile accepts) ++ next.rest := by
            rw [ended, List.cons_append, List.takeWhile_append_dropWhile]
          obtain rfl : used = item :: rest.takeWhile accepts :=
            List.append_cancel_right (whole.symm.trans split)
          have inside : ∀ char ∈ item :: rest.takeWhile accepts,
              accepts char = true := by
            rw [List.forall_mem_cons]
            exact ⟨accepted, fun _ => List.mem_takeWhile_imp⟩
          have stop : Stops (accepts · = false) next.rest := by
            intro char first
            rw [ended] at first
            have refused := List.head?_dropWhile_not accepts rest
            rw [Option.mem_def.mp first] at refused
            exact refused
          rw [scan_hit found whole, Matches.matched, List.map_cons, whole,
            maximalRun_append_iff nonempty inside stop, List.mem_cons]
          exact or_congr_right induction

/-! ## Looking ahead -/

/-- A part of a pattern, or `(?!…)`. -/
inductive Item where
  | part (pattern : Regex)
  | notAhead (pattern : Regex)

/-- Where a match of the items may end. -/
def itemEnds : List Item → Spot Char → List (Spot Char)
  | [], spot => [spot]
  | .part pattern :: items, spot => (pattern.ends spot).flatMap (itemEnds items)
  | .notAhead pattern :: items, spot =>
      if (pattern.ends spot).isEmpty then itemEnds items spot else []

/-- The items match somewhere in the text. -/
def Found (items : List Item) (text : Str) : Prop :=
  ∃ front rest, text = front ++ rest ∧
    itemEnds items (spotBehind false front rest) ≠ []

theorem itemEnds_part_ne_nil {items : List Item} :
    itemEnds (.part pattern :: items) spot ≠ [] ↔
      ∃ middle ∈ pattern.ends spot, itemEnds items middle ≠ [] := by
  rw [itemEnds, Ne, List.flatMap_eq_nil_iff]
  simp

theorem itemEnds_notAhead_ne_nil {items : List Item} :
    itemEnds (.notAhead pattern :: items) spot ≠ [] ↔
      pattern.ends spot = [] ∧ itemEnds items spot ≠ [] := by
  rw [itemEnds]
  cases pattern.ends spot <;> simp

end

end Regex

end TrustLayer.Library
