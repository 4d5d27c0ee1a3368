import TrustLayer.Library.LeftmostFirst

/-!
# The matches of a text from left to right
-/

namespace TrustLayer.Library

open Lettered (char)
open WordClass (isWord)

namespace Regex

section

variable {α : Type} [Lettered α] [WordClass]
variable {pattern : Regex} {limit other : Nat} {spot next : Spot α}
variable {behind : List α}

/-! ## The matches of a text -/

theorem scanFrom_atEnd {behindWord : Bool} :
    pattern.scanFrom limit (⟨behindWord, []⟩ : Spot α) = ⟨[], []⟩ := by
  cases limit <;> rfl

theorem scanFrom_limit (bound : spot.size ≤ limit)
    (otherBound : spot.size ≤ other) :
    pattern.scanFrom limit spot = pattern.scanFrom other spot := by
  induction limit generalizing other spot with
  | zero =>
      obtain ⟨behindWord, rest⟩ := spot
      obtain rfl : rest = [] := List.length_eq_zero_iff.mp (Nat.le_zero.mp bound)
      rw [scanFrom_atEnd, scanFrom_atEnd]
  | succ limit induction =>
      obtain ⟨behindWord, rest⟩ := spot
      cases rest with
      | nil => rw [scanFrom_atEnd, scanFrom_atEnd]
      | cons item rest =>
          cases other with
          | zero => exact absurd otherBound (Nat.not_succ_le_zero _)
          | succ other =>
              have behindBound := Nat.le_of_succ_le_succ bound
              have behindOther := Nat.le_of_succ_le_succ otherBound
              rw [scanFrom, scanFrom]
              cases found :
                  pattern.find (⟨behindWord, item :: rest⟩ : Spot α) with
              | none =>
                  have later := @induction other (.behind item rest)
                    behindBound behindOther
                  simp only
                  rw [later]
              | some next =>
                  have shorter : next.size ≤ rest.length :=
                    Nat.le_of_lt_succ (find_eq_some found).2
                  simp only
                  rw [induction (shorter.trans behindBound)
                    (shorter.trans behindOther)]

theorem scan_skip {behindWord : Bool} {item : α} {rest : List α}
    (none : pattern.find ⟨behindWord, item :: rest⟩ = none) :
    pattern.scan ⟨behindWord, item :: rest⟩ =
      ⟨item :: (pattern.scan (.behind item rest)).front,
        (pattern.scan (.behind item rest)).found⟩ := by
  rw [scan, Spot.size, List.length_cons, scanFrom]
  simp only [none]
  rfl

theorem scan_hit {matched : List α} (found : pattern.find spot = some next)
    (split : spot.rest = matched ++ next.rest) :
    pattern.scan spot =
      ⟨[], (matched, (pattern.scan next).front) ::
        (pattern.scan next).found⟩ := by
  obtain ⟨behindWord, rest⟩ := spot
  have shorter := (find_eq_some found).2
  cases rest with
  | nil => exact absurd shorter (Nat.not_lt_zero _)
  | cons item rest =>
      have taken : (item :: rest).take
          ((Spot.mk behindWord (item :: rest)).size - next.size) = matched := by
        change item :: rest = matched ++ next.rest at split
        rw [Spot.size, Spot.size, split, List.length_append,
          Nat.add_sub_cancel_right, List.take_left]
      rw [scan, Spot.size, List.length_cons, scanFrom]
      simp only [found]
      rw [taken, scanFrom_limit (Nat.le_of_lt_succ shorter) le_rfl]
      rfl

/-- Through a text from match to match. -/
theorem scan_induction (pattern : Regex) {motive : Spot α → Prop}
    (nil : ∀ behindWord, motive ⟨behindWord, []⟩)
    (skip : ∀ behindWord item rest,
      pattern.find ⟨behindWord, item :: rest⟩ = none →
        motive (.behind item rest) → motive ⟨behindWord, item :: rest⟩)
    (hit : ∀ spot next matched, pattern.find spot = some next →
      matched ≠ [] → spot.rest = matched ++ next.rest → motive next →
        motive spot)
    (spot : Spot α) : motive spot := by
  induction spot using Spot.size_induction with
  | step spot induction =>
      cases found : pattern.find spot with
      | some next =>
          obtain ⟨matched, nonempty, split⟩ := exists_of_find found
          exact hit spot next matched found nonempty split
            (induction next (find_eq_some found).2)
      | none =>
          obtain ⟨behindWord, rest⟩ := spot
          cases rest with
          | nil => exact nil behindWord
          | cons item rest =>
              exact skip behindWord item rest found
                (induction (.behind item rest) (Nat.lt_succ_self _))

/-- A text is what stands between the matches, with the matches. -/
theorem scan_split (pattern : Regex) (spot : Spot α) :
    spot.rest = (pattern.scan spot).front ++
      (pattern.scan spot).found.flatMap fun hit => hit.1 ++ hit.2 := by
  induction spot using @scan_induction α _ _ pattern with
  | nil behindWord => rfl
  | skip behindWord item rest none induction =>
      rw [scan_skip none, List.cons_append, ← induction]
      rfl
  | hit spot next matched found nonempty split induction =>
      rw [scan_hit found split, List.nil_append, List.flatMap_cons,
        List.append_assoc, ← induction, split]

theorem scan_perm (pattern : Regex) (spot : Spot α) :
    ((pattern.scan spot).pieces.flatten ++
      (pattern.scan spot).matched.flatten).Perm spot.rest := by
  induction spot using @scan_induction α _ _ pattern with
  | nil behindWord => exact .refl _
  | skip behindWord item rest none induction =>
      rw [scan_skip none]
      exact induction.cons item
  | hit spot next matched found nonempty split induction =>
      rw [scan_hit found split, split]
      exact (List.perm_append_comm_assoc _ _ _).trans
        (induction.append_left matched)

theorem exists_of_mem_matched {spot : Spot α} {hit : List α}
    (member : hit ∈ (pattern.scan spot).matched) :
    ∃ start next : Spot α, next ∈ pattern.ends start ∧ hit ≠ [] ∧
      start.rest = hit ++ next.rest := by
  induction spot using @scan_induction α _ _ pattern with
  | nil behindWord => cases member
  | skip behindWord item rest none induction =>
      rw [scan_skip none] at member
      exact induction member
  | hit spot next matched found nonempty split induction =>
      rw [scan_hit found split] at member
      rcases List.mem_cons.mp member with rfl | later
      · exact ⟨spot, next, (find_eq_some found).1, nonempty, split⟩
      · exact induction later

theorem matched_ne_nil {spot : Spot α} {hit : List α}
    (member : hit ∈ (pattern.scan spot).matched) : hit ≠ [] := by
  obtain ⟨-, -, -, nonempty, -⟩ := exists_of_mem_matched member
  exact nonempty

theorem mem_of_mem_matched {spot : Spot α} {hit : List α} {item : α}
    (member : hit ∈ (pattern.scan spot).matched) (inside : item ∈ hit) :
    item ∈ spot.rest :=
  (scan_perm pattern spot).subset
    (List.mem_append_right _ (List.mem_flatten_of_mem member inside))

theorem not_rejects_of_mem {spot : Spot α} {hit : List α} {item : α}
    (member : hit ∈ (pattern.scan spot).matched) (inside : item ∈ hit) :
    ¬ Rejects (char item) pattern := by
  obtain ⟨start, next, inEnds, -, same⟩ := exists_of_mem_matched member
  obtain ⟨used, same', accepted⟩ := mem_ends inEnds
  rw [same] at same'
  exact accepted item (List.append_cancel_right same' ▸ inside)

/-- Behind a match that reaches beyond the text no match is inside it. -/
theorem matched_of_reaches {hit : List α}
    (found : pattern.find (spot.extend behind) = some next)
    (short : next.size < behind.length)
    (member : hit ∈ (pattern.scan (spot.extend behind)).matched) :
    ∃ item ∈ hit, item ∈ behind := by
  obtain ⟨matched, -, split⟩ := exists_of_find found
  rw [scan_hit found split] at member
  obtain ⟨reached, nonempty, rfl, rest⟩ : ∃ reached, reached ≠ [] ∧
      matched = spot.rest ++ reached ∧ behind = reached ++ next.rest := by
    rcases List.append_eq_append_iff.mp split with
      ⟨reached, same, rest⟩ | ⟨left, -, rest⟩
    · refine ⟨reached, ?_, same, rest⟩
      rintro rfl
      exact absurd (congrArg List.length rest) (Nat.ne_of_gt short)
    · rw [Spot.size, rest, List.length_append] at short
      exact absurd short (Nat.not_lt_of_le (Nat.le_add_left _ _))
  rw [rest]
  rcases List.mem_cons.mp member with rfl | later
  · obtain ⟨item, inside⟩ := List.exists_mem_of_ne_nil _ nonempty
    exact ⟨item, List.mem_append_right _ inside, List.mem_append_left _ inside⟩
  · obtain ⟨item, inside⟩ := List.exists_mem_of_ne_nil _ (matched_ne_nil later)
    exact ⟨item, inside,
      List.mem_append_right _ (mem_of_mem_matched later inside)⟩

/-- In a longer text a match is one of the text alone, or it shares something
with what stands behind. -/
theorem matched_extend (unseen : Unseen behind pattern) (spot : Spot α)
    {hit : List α}
    (member : hit ∈ (pattern.scan (spot.extend behind)).matched) :
    hit ∈ (pattern.scan spot).matched ∨ ∃ item ∈ hit, item ∈ behind := by
  induction spot using @scan_induction α _ _ pattern with
  | nil behindWord =>
      obtain ⟨item, inside⟩ := List.exists_mem_of_ne_nil _ (matched_ne_nil member)
      exact Or.inr ⟨item, inside, mem_of_mem_matched member inside⟩
  | skip behindWord item rest none induction =>
      rcases find_extend unseen ⟨behindWord, item :: rest⟩ with
        same | ⟨next, found, short⟩
      · rw [none, Spot.extend_cons] at same
        rw [scan_skip none]
        rw [Spot.extend_cons, scan_skip same] at member
        exact induction member
      · exact Or.inr (matched_of_reaches found short member)
  | hit spot next matched found nonempty split induction =>
      rcases find_extend unseen spot with same | ⟨other, found', short⟩
      · rw [found] at same
        have split' : (spot.extend behind).rest =
            matched ++ (next.extend behind).rest := by
          rw [Spot.extend, Spot.extend, split, List.append_assoc]
        rw [scan_hit same split'] at member
        rw [scan_hit found split]
        rcases List.mem_cons.mp member with rfl | later
        · exact Or.inl List.mem_cons_self
        · exact (induction later).imp_left (List.mem_cons_of_mem _)
      · exact Or.inr (matched_of_reaches found' short member)

/-- A character that the pattern rejects parts a text in two. -/
theorem scan_extend_of_rejects {barred : α} {rest : List α}
    (unseen : Unseen (barred :: rest) pattern)
    (rejects : Rejects (char barred) pattern) (spot : Spot α) :
    (pattern.scan (spot.extend (barred :: rest))).matched =
        (pattern.scan spot).matched ++
          (pattern.scan (.behind barred rest)).matched ∧
      ∀ marker, (pattern.scan (spot.extend (barred :: rest))).replaced marker =
        (pattern.scan spot).replaced marker ++
          barred :: (pattern.scan (.behind barred rest)).replaced marker := by
  induction spot using @scan_induction α _ _ pattern with
  | nil behindWord =>
      rw [Spot.extend, List.nil_append, scan_skip (find_of_rejects rejects)]
      exact ⟨rfl, fun _ => rfl⟩
  | skip behindWord item others none induction =>
      have same := find_extend_of_rejects unseen rejects
        ⟨behindWord, item :: others⟩
      rw [none, Spot.extend_cons] at same
      obtain ⟨hits, texts⟩ := induction
      rw [scan_skip none, Spot.extend_cons, scan_skip same]
      exact ⟨hits, fun marker => congrArg (List.cons item) (texts marker)⟩
  | hit spot next matched found nonempty split induction =>
      have same := find_extend_of_rejects unseen rejects spot
      rw [found] at same
      have split' : (spot.extend (barred :: rest)).rest =
          matched ++ (next.extend (barred :: rest)).rest := by
        rw [Spot.extend, Spot.extend, split, List.append_assoc]
      obtain ⟨hits, texts⟩ := induction
      rw [scan_hit found split, scan_hit same split']
      refine ⟨congrArg (List.cons matched) hits, fun marker => ?_⟩
      have behind := congrArg (marker ++ ·) (texts marker)
      simpa [Matches.replaced] using behind

theorem find_extend_cons {barred : α} (rest : List α)
    (rejects : Rejects (char barred) pattern) (endless : Endless pattern)
    (spot : Spot α) :
    pattern.find (spot.extend (barred :: rest)) =
      (pattern.find (spot.extend [barred])).map (·.extend rest) := by
  rw [find, find, ends_extend_cons rest rejects endless, List.head?_map]
  cases (pattern.ends (spot.extend [barred])).head? with
  | none => rfl
  | some next =>
      have sizes : (spot.extend (barred :: rest)).size =
          (spot.extend [barred]).size + rest.length := by
        simp [Spot.size_extend]
        omega
      simp [Option.filter, Spot.size_extend, sizes, apply_ite]

/-- The matches in front of a rejected character, and those behind it. -/
theorem matched_extend_cons {barred : α} (rest : List α)
    (rejects : Rejects (char barred) pattern) (endless : Endless pattern)
    (spot : Spot α) :
    (pattern.scan (spot.extend (barred :: rest))).matched =
      (pattern.scan (spot.extend [barred])).matched ++
        (pattern.scan (.behind barred rest)).matched := by
  induction spot using Spot.size_induction with
  | step spot induction =>
      have same := find_extend_cons rest rejects endless spot
      have appended (spot : Spot α) :
          (spot.extend [barred]).extend rest = spot.extend (barred :: rest) := by
        simp [Spot.extend]
      cases found : pattern.find (spot.extend [barred]) with
      | some next =>
          obtain ⟨inEnds, shorter⟩ := find_eq_some found
          obtain ⟨matched, -, split⟩ := exists_of_find found
          obtain ⟨inside, rfl⟩ := exists_of_rejects rejects inEnds
          have small : inside.size < spot.size := by
            simpa [Spot.size_extend] using shorter
          have long : (spot.extend (barred :: rest)).rest =
              matched ++ (inside.extend (barred :: rest)).rest := by
            rw [← appended, ← appended, Spot.extend, split, List.append_assoc]
            rfl
          rw [found, Option.map_some, appended] at same
          rw [scan_hit found split, scan_hit same long]
          exact congrArg (List.cons matched) (induction inside small)
      | none =>
          rw [found] at same
          obtain ⟨behindWord, others⟩ := spot
          cases others with
          | nil =>
              have skips (behind : List α) : pattern.find
                  (⟨behindWord, barred :: behind⟩ : Spot α) = none :=
                find_of_rejects rejects
              change (pattern.scan ⟨behindWord, barred :: rest⟩).matched =
                (pattern.scan ⟨behindWord, [barred]⟩).matched ++ _
              rw [scan_skip (skips rest), scan_skip (skips [])]
              rfl
          | cons item others =>
              rw [Spot.extend_cons] at found same
              rw [Spot.extend_cons, Spot.extend_cons, scan_skip same,
                scan_skip found]
              exact induction (.behind item others) (Nat.lt_succ_self _)

/-! ## Patterns that look at nothing but what they consume -/

theorem flatMap_ends_flat {second : Regex} {starts others : List (Spot α)}
    (flat : ∀ left ∈ starts, ∀ right : Spot α, left.rest = right.rest →
      (second.ends left).map Spot.rest = (second.ends right).map Spot.rest)
    (same : starts.map Spot.rest = others.map Spot.rest) :
    (starts.flatMap second.ends).map Spot.rest =
      (others.flatMap second.ends).map Spot.rest := by
  induction starts generalizing others with
  | nil =>
      cases others with
      | nil => rfl
      | cons other others => cases same
  | cons start starts induction =>
      cases others with
      | nil => cases same
      | cons other others =>
          obtain ⟨first, later⟩ := List.cons.inj same
          rw [List.flatMap_cons, List.flatMap_cons, List.map_append,
            List.map_append, flat start List.mem_cons_self other first,
            induction (fun left member =>
              flat left (List.mem_cons_of_mem _ member)) later]

/-- Such a pattern does not see what stands in front of it. -/
theorem ends_flat {pattern : Regex} (flat : Flat pattern) {left right : Spot α}
    (same : left.rest = right.rest) :
    (pattern.ends left).map Spot.rest = (pattern.ends right).map Spot.rest := by
  induction pattern generalizing left right with
  | empty => simp [ends, same]
  | single accepts =>
      rw [ends, ends, same]
  | seq first second firstSame secondSame =>
      exact flatMap_ends_flat (fun _ _ _ => secondSame flat.2)
        (firstSame flat.1 same)
  | alt first second firstSame secondSame =>
      rw [ends, ends, List.map_append, List.map_append, firstSame flat.1 same,
        secondSame flat.2 same]
  | star body bodySame =>
      induction left using Spot.size_induction generalizing right with
      | step left induction =>
          have sizes : right.size = left.size := congrArg List.length same.symm
          rw [ends_star, ends_star, List.map_append, List.map_append, sizes]
          congr 1
          · refine flatMap_ends_flat ?_
              (filter_shorter_flat _ (bodySame flat same))
            intro next member other alike
            have less := of_decide_eq_true (List.mem_filter.mp member).2
            exact induction next less alike
          · simp [same]
  | wordBoundary => exact flat.elim
  | textEnd => exact flat.elim

theorem find_flat (flat : Flat pattern) {left right : Spot α}
    (same : left.rest = right.rest) :
    (pattern.find left).map Spot.rest = (pattern.find right).map Spot.rest := by
  have sizes : right.size = left.size := congrArg List.length same.symm
  have shorter : (fun next : Spot α => decide (next.size < left.size)) =
      (fun rest => decide (rest.length < left.size)) ∘ Spot.rest :=
    rfl
  rw [find, find, sizes, shorter, ← Option.filter_map, ← Option.filter_map,
    ← List.head?_map, ← List.head?_map, ends_flat flat same]

theorem scan_flat (flat : Flat pattern) {left right : Spot α}
    (same : left.rest = right.rest) :
    pattern.scan left = pattern.scan right := by
  induction left using @scan_induction α _ _ pattern generalizing right with
  | nil behindWord =>
      obtain ⟨otherBehind, rest⟩ := right
      obtain rfl : [] = rest := same
      rfl
  | skip behindWord item rest none induction =>
      have none' := find_flat flat same
      obtain ⟨otherBehind, otherRest⟩ := right
      obtain rfl : item :: rest = otherRest := same
      rw [none] at none'
      rw [scan_skip none, scan_skip (Option.map_eq_none_iff.mp none'.symm)]
  | hit spot next matched found nonempty split induction =>
      have found' := find_flat flat same
      rw [found] at found'
      obtain ⟨other, foundOther, alike⟩ := Option.map_eq_some_iff.mp found'.symm
      have splitOther : right.rest = matched ++ other.rest := by
        rw [← same, split, alike]
      rw [scan_hit found split, scan_hit foundOther splitOther,
        induction alike.symm]

end

/-! ## Texts that carry more than their characters -/

section

variable {α β : Type} {forget : α → β}

def Spot.map (forget : α → β) (spot : Spot α) : Spot β :=
  ⟨spot.behindWord, spot.rest.map forget⟩

def Matches.map (forget : α → β) (all : Matches α) : Matches β :=
  ⟨all.front.map forget,
    all.found.map fun hit => (hit.1.map forget, hit.2.map forget)⟩

theorem Spot.size_map (spot : Spot α) : (spot.map forget).size = spot.size :=
  List.length_map _

variable [Lettered α] [Lettered β] [WordClass]

/-- What the items carry does not take part. -/
theorem ends_map (keeps : ∀ item, char (forget item) = char item)
    (pattern : Regex) (spot : Spot α) :
    pattern.ends (spot.map forget) =
      (pattern.ends spot).map (Spot.map forget) := by
  have beforeWord (spot : Spot α) :
      (spot.map forget).beforeWord = spot.beforeWord := by
    obtain ⟨behindWord, rest⟩ := spot
    cases rest with
    | nil => rfl
    | cons item rest => exact congrArg isWord (keeps item)
  induction pattern generalizing spot with
  | empty => rfl
  | single accepts =>
      obtain ⟨behindWord, rest⟩ := spot
      cases rest with
      | nil => rfl
      | cons item rest =>
          simp only [ends, Spot.map, List.map_cons, keeps]
          split <;> simp [Spot.behind, Spot.map, keeps]
  | seq first second firstMap secondMap =>
      rw [ends, ends, firstMap, List.flatMap_map, List.map_flatMap]
      exact List.flatMap_congr fun middle _ => secondMap middle
  | alt left right leftMap rightMap =>
      rw [ends, ends, leftMap, rightMap, List.map_append]
  | star body bodyMap =>
      induction spot using Spot.size_induction with
      | step spot induction =>
          have shorter : ((fun next : Spot β => decide (next.size < spot.size)) ∘
              Spot.map forget) = fun next => decide (next.size < spot.size) := by
            funext next
            exact congrArg (fun size => decide (size < spot.size))
              (Spot.size_map next)
          rw [ends_star, ends_star, bodyMap, Spot.size_map, List.filter_map,
            shorter, List.flatMap_map, List.map_append, List.map_flatMap]
          congr 1
          apply List.flatMap_congr
          intro next member
          exact induction next
            (of_decide_eq_true (List.mem_filter.mp member).2)
  | wordBoundary =>
      rw [ends, ends, beforeWord]
      change (if spot.behindWord != spot.beforeWord then _ else _) = _
      split <;> rfl
  | textEnd =>
      obtain ⟨behindWord, rest⟩ := spot
      cases rest <;> rfl

theorem find_map (keeps : ∀ item, char (forget item) = char item)
    (pattern : Regex) (spot : Spot α) :
    pattern.find (spot.map forget) =
      (pattern.find spot).map (Spot.map forget) := by
  rw [find, find, ends_map keeps, List.head?_map, Spot.size_map]
  cases (pattern.ends spot).head? with
  | none => rfl
  | some next => simp [Option.filter, Spot.size_map, apply_ite]

theorem scan_map (keeps : ∀ item, char (forget item) = char item)
    (pattern : Regex) (spot : Spot α) :
    pattern.scan (spot.map forget) = (pattern.scan spot).map forget := by
  induction spot using @scan_induction α _ _ pattern with
  | nil behindWord => rfl
  | skip behindWord item rest none induction =>
      have same := find_map keeps pattern ⟨behindWord, item :: rest⟩
      rw [none] at same
      have behind : (Spot.behind item rest).map forget =
          .behind (forget item) (rest.map forget) := by
        rw [Spot.behind, Spot.behind, keeps, Spot.map]
      rw [behind] at induction
      rw [Spot.map, List.map_cons, scan_skip same, induction, scan_skip none]
      rfl
  | hit spot next matched found nonempty split induction =>
      have same := find_map keeps pattern spot
      rw [found] at same
      have split' : (spot.map forget).rest =
          matched.map forget ++ (next.map forget).rest := by
        rw [Spot.map, Spot.map, split, List.map_append]
      rw [scan_hit found split, scan_hit same split', induction]
      rfl

/-- Replacing commutes with forgetting. -/
theorem replaceAll_map (keeps : ∀ item, char (forget item) = char item)
    (pattern : Regex) (marker text : List α) :
    pattern.replaceAll (marker.map forget) (text.map forget) =
      (pattern.replaceAll marker text).map forget := by
  have same := scan_map keeps pattern ⟨false, text⟩
  rw [Spot.map] at same
  rw [replaceAll, same, replaceAll, Matches.replaced, Matches.replaced,
    Matches.map, List.map_append, List.map_flatMap, List.flatMap_map]
  simp

end

end Regex

end TrustLayer.Library
