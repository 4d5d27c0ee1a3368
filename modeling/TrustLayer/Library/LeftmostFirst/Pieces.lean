import Mathlib.Data.List.Nodup
import TrustLayer.Library.LeftmostFirst.Scan

/-!
# Texts that a pattern cuts into pieces
-/

namespace TrustLayer.Library

open Lettered (char)
open WordClass (isWord)

namespace Regex

/-! ## Texts in pieces -/

section

variable {α : Type}

theorem intercalate_append {marker : List α} {left right : List (List α)}
    (leftSome : left ≠ []) (rightSome : right ≠ []) :
    marker.intercalate (left ++ right) =
      marker.intercalate left ++ marker ++ marker.intercalate right := by
  induction left with
  | nil => exact absurd rfl leftSome
  | cons piece left induction =>
      cases left with
      | nil =>
          rw [List.singleton_append, List.intercalate_cons_of_ne_nil rightSome,
            List.intercalate_singleton]
      | cons second left =>
          rw [List.cons_append, List.intercalate_cons_of_ne_nil (by simp),
            induction (List.cons_ne_nil _ _), List.intercalate_cons_cons]
          simp only [List.append_assoc]

theorem Matches.replaced_eq_intercalate (all : Matches α) (marker : List α) :
    all.replaced marker = marker.intercalate all.pieces := by
  obtain ⟨front, found⟩ := all
  rw [replaced, pieces]
  induction found generalizing front with
  | nil => simp
  | cons hit found induction =>
      rw [List.flatMap_cons, List.map_cons, List.intercalate_cons_cons,
        ← induction hit.2]
      simp only [List.append_assoc]

theorem mem_intercalate_iff {marker : List α} {pieces : List (List α)}
    {item : α} (apart : item ∉ marker) :
    item ∈ marker.intercalate pieces ↔ item ∈ pieces.flatten := by
  induction pieces with
  | nil => exact Iff.rfl
  | cons piece pieces induction =>
      cases pieces with
      | nil => simp
      | cons second pieces =>
          rw [List.intercalate_cons_cons, List.mem_append, List.mem_append,
            induction, or_iff_left apart, ← List.mem_append, ← List.flatten_cons]

variable [Lettered α] [WordClass] {pattern : Regex} {marker : List α}

/-- Whether a word character stands in front of what follows. -/
def lastIsWord (behindWord : Bool) (text : List α) : Bool :=
  text.foldl (fun _ item => isWord (char item)) behindWord

/-- No match reaches over the marker. -/
structure Parts (pattern : Regex) (marker : List α) : Prop where
  rejects : ∀ item ∈ marker, Rejects (char item) pattern
  opens : Unseen marker pattern
  nonempty : marker ≠ []
  closes : lastIsWord false marker = false

theorem replaceAll_eq_intercalate (pattern : Regex) (marker text : List α) :
    pattern.replaceAll marker text = marker.intercalate (pattern.cut text) :=
  Matches.replaced_eq_intercalate _ _

theorem cut_perm (pattern : Regex) (text : List α) :
    ((pattern.cut text).flatten ++ (pattern.findIter text).flatten).Perm text :=
  scan_perm pattern ⟨false, text⟩

theorem cut_pieces_perm (pattern : Regex) (pieces : List (List α)) :
    ((pieces.flatMap pattern.cut).flatten ++
      (pieces.flatMap pattern.findIter).flatten).Perm pieces.flatten := by
  induction pieces with
  | nil => exact .refl _
  | cons piece pieces induction =>
      rw [List.flatMap_cons, List.flatMap_cons, List.flatten_append,
        List.flatten_append, List.flatten_cons]
      refine .trans ?_ ((cut_perm pattern piece).append induction)
      rw [List.append_assoc, List.append_assoc]
      exact (List.perm_append_comm_assoc _ _ _).append_left _

/-- Where the items differ, the matches and what is left have none in common. -/
theorem not_mem_cut {pieces : List (List α)} (nodup : pieces.flatten.Nodup)
    {piece hit : List α} (among : piece ∈ pieces)
    (found : hit ∈ pattern.findIter piece) {item : α} (inside : item ∈ hit) :
    item ∉ (pieces.flatMap pattern.cut).flatten := by
  intro left
  have apart := (cut_pieces_perm pattern pieces).nodup_iff.mpr nodup
  have inHits : item ∈ (pieces.flatMap pattern.findIter).flatten :=
    List.mem_flatten_of_mem (List.mem_flatMap_of_mem among found) inside
  exact (List.nodup_append'.mp apart).2.2 left inHits

theorem nodup_cut {pieces : List (List α)} (nodup : pieces.flatten.Nodup) :
    (pieces.flatMap pattern.cut).flatten.Nodup :=
  ((cut_pieces_perm pattern pieces).nodup_iff.mpr nodup).of_append_left

theorem mem_of_mem_cut {pieces : List (List α)} {item : α}
    (left : item ∈ (pieces.flatMap pattern.cut).flatten) :
    item ∈ pieces.flatten :=
  (cut_pieces_perm pattern pieces).subset (List.mem_append_left _ left)

/-- What a pattern does not leave it matches. -/
theorem exists_of_not_mem_cut {pieces : List (List α)} {piece : List α}
    {item : α} (among : piece ∈ pieces) (inside : item ∈ piece)
    (gone : item ∉ (pieces.flatMap pattern.cut).flatten) :
    ∃ hit ∈ pattern.findIter piece, item ∈ hit := by
  have placed := (cut_perm pattern piece).symm.subset inside
  rcases List.mem_append.mp placed with left | matched
  · obtain ⟨gap, inCut, inGap⟩ := List.mem_flatten.mp left
    exact absurd (List.mem_flatten_of_mem
      (List.mem_flatMap_of_mem among inCut) inGap) gone
  · exact List.mem_flatten.mp matched

/-- Through characters that the pattern rejects. -/
theorem scan_rejected {others : List α}
    (rejects : ∀ item ∈ others, Rejects (char item) pattern)
    (behindWord : Bool) (rest : List α) :
    (pattern.scan ⟨behindWord, others ++ rest⟩).replaced marker =
      others ++ (pattern.scan
        ⟨lastIsWord behindWord others, rest⟩).replaced marker := by
  induction others generalizing behindWord with
  | nil => rfl
  | cons item others induction =>
      have later := induction
        (fun other member => rejects other (List.mem_cons_of_mem _ member))
        (isWord (char item))
      rw [List.cons_append,
        scan_skip (find_of_rejects (rejects item List.mem_cons_self))]
      exact congrArg (List.cons item) later

theorem replaceAll_append (parts : Parts pattern marker)
    (piece rest : List α) :
    pattern.replaceAll marker (piece ++ marker ++ rest) =
      pattern.replaceAll marker piece ++ marker ++
        pattern.replaceAll marker rest := by
  obtain ⟨rejects, opens, nonempty, closes⟩ := parts
  cases marker with
  | nil => exact absurd rfl nonempty
  | cons first others =>
      have unseen : Unseen (first :: (others ++ rest)) pattern := opens
      have split := (scan_extend_of_rejects unseen
        (rejects first List.mem_cons_self) ⟨false, piece⟩).2 (first :: others)
      have through := @scan_rejected α _ _ pattern (first :: others) others
        (fun item member => rejects item (List.mem_cons_of_mem _ member))
        (isWord (char first)) rest
      have behind : lastIsWord (isWord (char first)) others = false := closes
      rw [behind] at through
      rw [replaceAll, List.append_assoc]
      refine split.trans ?_
      rw [Spot.behind, through]
      simp [replaceAll]

/-- The pieces between the markers are treated one by one. -/
theorem replaceAll_intercalate (parts : Parts pattern marker)
    (pieces : List (List α)) :
    pattern.replaceAll marker (marker.intercalate pieces) =
      marker.intercalate (pieces.flatMap pattern.cut) := by
  induction pieces with
  | nil => rfl
  | cons piece pieces induction =>
      cases pieces with
      | nil =>
          rw [List.intercalate_singleton, List.flatMap_singleton,
            replaceAll_eq_intercalate]
      | cons second pieces =>
          have first : pattern.cut piece ≠ [] := List.cons_ne_nil _ _
          have later : (second :: pieces).flatMap pattern.cut ≠ [] :=
            List.append_ne_nil_of_left_ne_nil (List.cons_ne_nil _ _) _
          rw [List.intercalate_cons_cons, replaceAll_append parts, induction,
            replaceAll_eq_intercalate]
          exact (intercalate_append first later).symm

/-- In a text with separators of another kind, each of which ends with a
character that the pattern rejects. -/
theorem matched_of_split (flat : Flat pattern)
    {found : List (List α × List α)}
    (closed : ∀ hit ∈ found, ∃ inner last, hit.1 = inner ++ [last] ∧
      Rejects (char last) pattern)
    (front : List α) (behindWord : Bool) {hit : List α}
    (member : hit ∈ (pattern.scan ⟨behindWord,
      front ++ found.flatMap fun hit => hit.1 ++ hit.2⟩).matched) :
    (∃ piece ∈ front :: found.map Prod.snd, hit ∈ pattern.findIter piece) ∨
      ∃ other ∈ found.map Prod.fst, ∃ item ∈ hit, item ∈ other := by
  have alone {hit : List α} {behindWord : Bool} {front : List α}
      (member : hit ∈ (pattern.scan ⟨behindWord, front⟩).matched) :
      hit ∈ pattern.findIter front := by
    have same : pattern.scan ⟨behindWord, front⟩ = pattern.scan ⟨false, front⟩ :=
      scan_flat flat rfl
    rwa [same] at member
  have unseen (behind : List α) : Unseen behind pattern :=
    flat.mono (fun _ _ => trivial) False.elim id
  induction found generalizing front behindWord with
  | nil =>
      rw [List.flatMap_nil, List.append_nil] at member
      exact Or.inl ⟨front, List.mem_cons_self, alone member⟩
  | cons first found induction =>
      obtain ⟨outer, gap⟩ := first
      obtain ⟨inner, last, rfl, rejects⟩ := closed (outer, gap) List.mem_cons_self
      have text : front ++ ((inner ++ [last], gap) :: found).flatMap
            (fun hit => hit.1 ++ hit.2) =
          (front ++ inner) ++
            last :: (gap ++ found.flatMap fun hit => hit.1 ++ hit.2) := by
        simp
      rw [text] at member
      have split := (scan_extend_of_rejects
        (unseen (last :: (gap ++ found.flatMap fun hit => hit.1 ++ hit.2)))
        rejects ⟨behindWord, front ++ inner⟩).1
      rw [Spot.extend] at split
      rw [split] at member
      rcases List.mem_append.mp member with before | later
      · rcases matched_extend (unseen inner) ⟨behindWord, front⟩ before with
          inFront | ⟨item, inHit, inInner⟩
        · exact Or.inl ⟨front, List.mem_cons_self, alone inFront⟩
        · exact Or.inr ⟨_, List.mem_cons_self, item, inHit,
            List.mem_append_left _ inInner⟩
      · rcases induction (fun hit inFound =>
            closed hit (List.mem_cons_of_mem _ inFound)) gap _ later with
          ⟨piece, inPieces, inPiece⟩ | ⟨other, inFound, shared⟩
        · exact Or.inl ⟨piece, List.mem_cons_of_mem _ inPieces, inPiece⟩
        · exact Or.inr ⟨other, List.mem_cons_of_mem _ inFound, shared⟩

/-- A match is one of a piece that another pattern leaves, or it shares
something with a match of that pattern. -/
theorem findIter_of_cut {outer : Regex} (flat : Flat pattern)
    (closed : EndsWith (fun last : α => Rejects (char last) pattern) outer)
    {text hit : List α} (member : hit ∈ pattern.findIter text) :
    (∃ piece ∈ outer.cut text, hit ∈ pattern.findIter piece) ∨
      ∃ other ∈ outer.findIter text, ∃ item ∈ hit, item ∈ other := by
  have split := scan_split outer (⟨false, text⟩ : Spot α)
  rw [findIter, show text = _ from split] at member
  refine matched_of_split flat ?_ _ _ member
  intro other inFound
  obtain ⟨start, next, ending, -, same⟩ := exists_of_mem_matched
    (List.mem_map_of_mem (f := Prod.fst) inFound)
  obtain ⟨inner, last, same', rejects⟩ := closed ending
  refine ⟨inner, last, ?_, rejects⟩
  rw [same, List.append_cons] at same'
  exact List.append_cancel_right same'

/-! ## A run of a text -/

variable {front run back : List α}

/-- The run stands between characters that the pattern rejects, which are part
of it, or at an end of the text. -/
structure Delimited (pattern : Regex) (front run back : List α) : Prop where
  opens : front = [] ∨
    ∃ first rest, run = first :: rest ∧ Rejects (char first) pattern
  closes : back = [] ∨
    ∃ rest last, run = rest ++ [last] ∧ Rejects (char last) pattern

/-- The matches of a run are its own. -/
theorem findIter_delimited (endless : Endless pattern)
    (delimited : Delimited pattern front run back) :
    ∃ before later, pattern.findIter (front ++ (run ++ back)) =
        before ++ (pattern.findIter run ++ later) ∧
      (∀ hit ∈ before, hit ⊆ front) ∧ ∀ hit ∈ later, hit ⊆ back := by
  obtain ⟨before, opened, inFront⟩ : ∃ before,
      pattern.findIter (front ++ (run ++ back)) =
        before ++ pattern.findIter (run ++ back) ∧
      ∀ hit ∈ before, hit ⊆ front := by
    rcases delimited.opens with rfl | ⟨first, rest, rfl, rejects⟩
    · exact ⟨[], rfl, by simp⟩
    · have split := matched_extend_cons (rest ++ back) rejects endless
        ⟨false, front⟩
      refine ⟨(pattern.scan (Spot.extend ⟨false, front⟩ [first])).matched,
        ?_, ?_⟩
      · rw [findIter, findIter, List.cons_append,
          scan_skip (find_of_rejects rejects)]
        exact split
      · intro hit member item inside
        have placed := mem_of_mem_matched member inside
        rcases List.mem_append.mp placed with inFront | atFirst
        · exact inFront
        · obtain rfl := List.mem_singleton.mp atFirst
          exact absurd rejects (not_rejects_of_mem member inside)
  obtain ⟨later, closed, inBack⟩ : ∃ later,
      pattern.findIter (run ++ back) = pattern.findIter run ++ later ∧
      ∀ hit ∈ later, hit ⊆ back := by
    rcases delimited.closes with rfl | ⟨rest, last, rfl, rejects⟩
    · exact ⟨[], by simp, by simp⟩
    · have split := matched_extend_cons back rejects endless ⟨false, rest⟩
      refine ⟨(pattern.scan (.behind last back)).matched, ?_,
        fun hit member item inside => mem_of_mem_matched member inside⟩
      rw [findIter, findIter, List.append_assoc]
      exact split
  exact ⟨before, later, by rw [opened, closed], inFront, inBack⟩

/-- A match of the text that lies in the run is one of any piece around it. -/
theorem findIter_around {before behind hit : List α}
    (endless : Endless pattern) (delimited : Delimited pattern front run back)
    (isSuffix : before <:+ front) (isPrefix : behind <+: back)
    (nodup : (front ++ (run ++ back)).Nodup)
    (found : hit ∈ pattern.findIter (front ++ (run ++ back)))
    (inside : hit ⊆ run) :
    hit ∈ pattern.findIter (before ++ (run ++ behind)) := by
  have around : Delimited pattern before run behind := by
    obtain ⟨opens, closes⟩ := delimited
    constructor
    · refine opens.imp_left ?_
      rintro rfl
      exact List.suffix_nil.mp isSuffix
    · refine closes.imp_left ?_
      rintro rfl
      exact List.prefix_nil.mp isPrefix
  obtain ⟨item, first⟩ := List.exists_mem_of_ne_nil _ (matched_ne_nil found)
  have frontApart := (List.nodup_append'.mp nodup).2.2
  have backApart := (List.nodup_append'.mp nodup.of_append_right).2.2
  have own : hit ∈ pattern.findIter run := by
    obtain ⟨earlier, later, same, inFront, inBack⟩ :=
      findIter_delimited endless delimited
    rw [same] at found
    rcases List.mem_append.mp found with isEarlier | found
    · exact absurd (List.mem_append_left _ (inside first))
        (frontApart (inFront hit isEarlier first))
    · rcases List.mem_append.mp found with inRun | isLater
      · exact inRun
      · exact absurd (inBack hit isLater first) (backApart (inside first))
  obtain ⟨earlier, later, same, -, -⟩ := findIter_delimited endless around
  rw [same]
  exact List.mem_append_right _ (List.mem_append_left _ own)

theorem scan_front (pattern : Regex) (spot : Spot α)
    (split : spot.rest = run ++ back)
    (apart : ∀ hit ∈ (pattern.scan spot).matched, hit.Disjoint run) :
    ∃ behind, behind <+: back ∧
      (pattern.scan spot).front = run ++ behind := by
  have whole (spot : Spot α) (split : spot.rest = [] ++ back) :
      ∃ behind, behind <+: back ∧ (pattern.scan spot).front = [] ++ behind :=
    ⟨_, ⟨_, (scan_split pattern spot).symm.trans split⟩, rfl⟩
  induction spot using @scan_induction α _ _ pattern generalizing run with
  | nil behindWord =>
      obtain ⟨rfl, rfl⟩ := List.append_eq_nil_iff.mp split.symm
      exact ⟨[], List.nil_prefix, rfl⟩
  | skip behindWord item rest none induction =>
      cases run with
      | nil => exact whole _ split
      | cons first run =>
          obtain ⟨rfl, laterSplit⟩ := List.cons.inj split
          rw [scan_skip none] at apart
          obtain ⟨behind, isPrefix, same⟩ := induction laterSplit fun hit member =>
            List.disjoint_of_disjoint_cons_right (apart hit member)
          refine ⟨behind, isPrefix, ?_⟩
          rw [scan_skip none]
          exact congrArg (List.cons item) same
  | hit spot next matched found nonempty split' induction =>
      cases run with
      | nil => exact whole _ split
      | cons first run =>
          rw [scan_hit found split'] at apart
          cases matched with
          | nil => exact absurd rfl nonempty
          | cons item matched =>
              rw [split'] at split
              obtain ⟨rfl, -⟩ := List.cons.inj split
              exact absurd List.mem_cons_self
                (apart _ List.mem_cons_self List.mem_cons_self)

theorem scan_infix (pattern : Regex) (spot : Spot α)
    (split : spot.rest = front ++ (run ++ back)) (nonempty : run ≠ [])
    (apart : ∀ hit ∈ (pattern.scan spot).matched, hit.Disjoint run) :
    (∃ behind, behind <+: back ∧
      (pattern.scan spot).front = front ++ (run ++ behind)) ∨
    ∃ before behind, before <:+ front ∧ behind <+: back ∧
      before ++ (run ++ behind) ∈ (pattern.scan spot).found.map Prod.snd := by
  induction spot using @scan_induction α _ _ pattern generalizing front with
  | nil behindWord =>
      have empty := (List.append_eq_nil_iff.mp split.symm).2
      exact absurd (List.append_eq_nil_iff.mp empty).1 nonempty
  | skip behindWord item rest none induction =>
      cases front with
      | nil => exact Or.inl (scan_front pattern _ split apart)
      | cons first front =>
          obtain ⟨rfl, laterSplit⟩ := List.cons.inj split
          rw [scan_skip none] at apart ⊢
          rcases induction laterSplit apart with
            ⟨behind, isPrefix, same⟩ | ⟨before, behind, isSuffix, later⟩
          · exact Or.inl ⟨behind, isPrefix, congrArg (List.cons item) same⟩
          · exact Or.inr ⟨before, behind,
              isSuffix.trans (List.suffix_cons _ _), later⟩
  | hit spot next matched found matchedSome split' induction =>
      rw [scan_hit found split'] at apart ⊢
      rw [split'] at split
      have laterApart := fun hit member =>
        apart hit (List.mem_cons_of_mem _ member)
      obtain ⟨gap, rfl, laterSplit⟩ : ∃ gap, front = matched ++ gap ∧
          next.rest = gap ++ (run ++ back) := by
        rcases List.append_eq_append_iff.mp split with
          ⟨gap, inFront, rest⟩ | ⟨beyond, rfl, rest⟩
        · exact ⟨gap, inFront, rest⟩
        · cases beyond with
          | nil => exact ⟨[], by simp, rest.symm⟩
          | cons item beyond =>
              obtain ⟨first, run, rfl⟩ := List.exists_cons_of_ne_nil nonempty
              obtain ⟨rfl, -⟩ := List.cons.inj rest
              exact absurd List.mem_cons_self
                (apart _ List.mem_cons_self
                  (List.mem_append_right _ List.mem_cons_self))
      right
      rcases induction laterSplit laterApart with
        ⟨behind, isPrefix, same⟩ | ⟨before, behind, isSuffix, isPrefix, later⟩
      · refine ⟨gap, behind, List.suffix_append _ _, isPrefix, ?_⟩
        rw [← same]
        exact List.mem_cons_self
      · exact ⟨before, behind, isSuffix.trans (List.suffix_append _ _),
          isPrefix, List.mem_cons_of_mem _ later⟩

/-- A run that no match takes anything of stands in one piece. -/
theorem cut_infix {text : List α} (split : text = front ++ (run ++ back))
    (nonempty : run ≠ [])
    (apart : ∀ hit ∈ pattern.findIter text, hit.Disjoint run) :
    ∃ before behind, before <:+ front ∧ behind <+: back ∧
      before ++ (run ++ behind) ∈ pattern.cut text := by
  rcases scan_infix pattern ⟨false, text⟩ split nonempty apart with
    ⟨behind, isPrefix, same⟩ | ⟨before, behind, isSuffix, isPrefix, later⟩
  · refine ⟨front, behind, List.suffix_rfl, isPrefix, ?_⟩
    rw [← same]
    exact List.mem_cons_self
  · exact ⟨before, behind, isSuffix, isPrefix, List.mem_cons_of_mem _ later⟩

end

end Regex

end TrustLayer.Library
