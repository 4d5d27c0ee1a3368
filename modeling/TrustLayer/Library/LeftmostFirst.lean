import Mathlib.Data.List.Basic
import TrustLayer.Library.Regex

/-!
# Matching with priorities

`Regex.isMatch` asks whether a pattern matches.  Where the match itself is
observed, the ways to match come in the order in which a leftmost-first engine
prefers them, and the first one is taken.  A match of no text counts as none:
the patterns that this is used for have none.
-/

namespace TrustLayer.Library

/-- `\w`, a table of Unicode. -/
class WordClass where
  isWord : Char → Bool

/-- The letters of a text may carry more than their character. -/
class Lettered (α : Type) where
  char : α → Char

instance : Lettered Char := ⟨id⟩

open Lettered (char)
open WordClass (isWord)

namespace Regex

/-- What is left of a text, behind a word character or not. -/
structure Spot (α : Type) where
  behindWord : Bool
  rest : List α

/-- The text in front of the first match, and each match with the text between
it and the next one. -/
structure Matches (α : Type) where
  front : List α
  found : List (List α × List α)

section

variable {α : Type}

def Spot.size (spot : Spot α) : Nat :=
  spot.rest.length

/-- The same spot in a text that goes on. -/
def Spot.extend (spot : Spot α) (behind : List α) : Spot α :=
  ⟨spot.behindWord, spot.rest ++ behind⟩

/-- All of a text that stands behind is left. -/
def Spot.keeps (behind : List α) (spot : Spot α) : Bool :=
  behind.length ≤ spot.size

/-- The texts between the matches. -/
def Matches.pieces (all : Matches α) : List (List α) :=
  all.front :: all.found.map Prod.snd

def Matches.matched (all : Matches α) : List (List α) :=
  all.found.map Prod.fst

/-- The text with each match replaced. -/
def Matches.replaced (all : Matches α) (marker : List α) : List α :=
  all.front ++ all.found.flatMap fun hit => marker ++ hit.2

/-- Repeat the body as long as it consumes something, longest first. -/
def repeatEnds (body : Spot α → List (Spot α)) : Nat → Spot α → List (Spot α)
  | 0, spot => [spot]
  | limit + 1, spot =>
      ((body spot).filter fun next => next.size < spot.size).flatMap
        (repeatEnds body limit) ++ [spot]

variable [Lettered α] [WordClass]

/-- The spot behind an item. -/
def Spot.behind (item : α) (rest : List α) : Spot α :=
  ⟨isWord (char item), rest⟩

def Spot.beforeWord (spot : Spot α) : Bool :=
  spot.rest.head?.any fun item => isWord (char item)

/-- Where a match may end, in the order of preference. -/
def ends : Regex → Spot α → List (Spot α)
  | .empty, spot => [spot]
  | .single accepts, spot =>
      match spot.rest with
      | [] => []
      | item :: rest => if accepts (char item) then [.behind item rest] else []
  | .seq first second, spot => (first.ends spot).flatMap second.ends
  | .alt left right, spot => left.ends spot ++ right.ends spot
  | .star body, spot => repeatEnds body.ends spot.size spot
  | .wordBoundary, spot =>
      if spot.behindWord != spot.beforeWord then [spot] else []
  | .textEnd, spot => if spot.rest.isEmpty then [spot] else []

/-- The end of the match at a spot. -/
def find (pattern : Regex) (spot : Spot α) : Option (Spot α) :=
  (pattern.ends spot).head?.filter fun next => next.size < spot.size

def scanFrom (pattern : Regex) : Nat → Spot α → Matches α
  | 0, spot => ⟨spot.rest, []⟩
  | limit + 1, spot =>
      match spot.rest with
      | [] => ⟨[], []⟩
      | item :: rest =>
          match pattern.find spot with
          | none =>
              let later := pattern.scanFrom limit (.behind item rest)
              ⟨item :: later.front, later.found⟩
          | some next =>
              let later := pattern.scanFrom limit next
              let matched := spot.rest.take (spot.size - next.size)
              ⟨[], (matched, later.front) :: later.found⟩

/-- The matches from left to right, none of them inside another. -/
def scan (pattern : Regex) (spot : Spot α) : Matches α :=
  pattern.scanFrom spot.size spot

/-- `Regex::find_iter`. -/
def findIter (pattern : Regex) (text : List α) : List (List α) :=
  (pattern.scan ⟨false, text⟩).matched

/-- What stands between the matches. -/
def cut (pattern : Regex) (text : List α) : List (List α) :=
  (pattern.scan ⟨false, text⟩).pieces

/-- `Regex::replace_all`, by a text that names no group. -/
def replaceAll (pattern : Regex) (marker text : List α) : List α :=
  (pattern.scan ⟨false, text⟩).replaced marker

end

/-- What holds of each part of a pattern. -/
def Each (single : (Char → Bool) → Prop) (boundary atEnd : Prop) : Regex → Prop
  | .empty => True
  | .single accepts => single accepts
  | .seq first second =>
      first.Each single boundary atEnd ∧ second.Each single boundary atEnd
  | .alt left right =>
      left.Each single boundary atEnd ∧ right.Each single boundary atEnd
  | .star body => body.Each single boundary atEnd
  | .wordBoundary => boundary
  | .textEnd => atEnd

/-- `{low,high}` of a part, with `more` for the difference. -/
def upTo (body : Regex) : (more : Nat) → Regex
  | 0 => .empty
  | more + 1 => optional (.seq body (upTo body more))

def between (body : Regex) (low high : Nat) : Regex :=
  .seq (all (List.replicate low body)) (upTo body (high - low))

/-- No part of the pattern accepts the character. -/
abbrev Rejects (barred : Char) : Regex → Prop :=
  Each (fun accepts => accepts barred = false) True True

/-- The pattern looks at nothing but the characters it consumes. -/
abbrev Flat : Regex → Prop :=
  Each (fun _ => True) False False

section

variable {single : (Char → Bool) → Prop} {boundary atEnd : Prop}

theorem each_all {parts : List Regex} :
    (all parts).Each single boundary atEnd ↔
      ∀ part ∈ parts, part.Each single boundary atEnd := by
  induction parts with
  | nil => simp [all, Each]
  | cons part parts induction =>
      rw [all, List.foldr_cons, List.forall_mem_cons]
      exact and_congr_right' induction

theorem each_upTo {body : Regex} (inBody : body.Each single boundary atEnd) :
    (more : Nat) → (upTo body more).Each single boundary atEnd
  | 0 => trivial
  | more + 1 => ⟨⟨inBody, each_upTo inBody more⟩, trivial⟩

theorem each_between {body : Regex} (inBody : body.Each single boundary atEnd)
    (low high : Nat) :
    (between body low high).Each single boundary atEnd :=
  ⟨each_all.mpr fun _ member => List.eq_of_mem_replicate member ▸ inBody,
    each_upTo inBody _⟩

end

/-! ## The ways to match -/

section

variable {α : Type} {limit other : Nat} {spot next : Spot α}

theorem Each.mono {single single' : (Char → Bool) → Prop}
    {boundary boundary' atEnd atEnd' : Prop}
    (singles : ∀ accepts, single accepts → single' accepts)
    (boundaries : boundary → boundary') (atEnds : atEnd → atEnd') :
    {pattern : Regex} → Each single boundary atEnd pattern →
      Each single' boundary' atEnd' pattern
  | .empty, _ => trivial
  | .single accepts, holds => singles accepts holds
  | .seq _ _, holds | .alt _ _, holds =>
      ⟨holds.1.mono singles boundaries atEnds,
        holds.2.mono singles boundaries atEnds⟩
  | .star body, holds =>
      have inBody : body.Each single boundary atEnd := holds
      inBody.mono singles boundaries atEnds
  | .wordBoundary, holds => boundaries holds
  | .textEnd, holds => atEnds holds

theorem repeatEnds_atEnd {body : Spot α → List (Spot α)}
    (ended : spot.size = 0) : repeatEnds body limit spot = [spot] := by
  cases limit with
  | zero => rfl
  | succ limit => simp [repeatEnds, ended]

/-- From what is behind a spot to the spot. -/
theorem Spot.size_induction {motive : Spot α → Prop}
    (step : ∀ spot : Spot α,
      (∀ next : Spot α, next.size < spot.size → motive next) → motive spot)
    (spot : Spot α) : motive spot := by
  generalize bound : spot.size = size
  induction size using Nat.strong_induction_on generalizing spot with
  | _ size induction =>
      subst bound
      exact step spot fun next shorter => induction _ shorter next rfl

theorem Spot.size_extend (spot : Spot α) (behind : List α) :
    (spot.extend behind).size = spot.size + behind.length :=
  List.length_append

theorem Spot.extend_cons {behindWord : Bool} {item : α} {rest behind : List α} :
    (⟨behindWord, item :: rest⟩ : Spot α).extend behind =
      ⟨behindWord, item :: (rest ++ behind)⟩ :=
  rfl

theorem Spot.keeps_extend (spot : Spot α) (behind : List α) :
    (spot.extend behind).keeps behind = true := by
  rw [Spot.keeps, Spot.size_extend]
  exact decide_eq_true (Nat.le_add_left _ _)

theorem filter_shorter_flat {starts others : List (Spot α)} (size : Nat)
    (same : starts.map Spot.rest = others.map Spot.rest) :
    (starts.filter fun next => next.size < size).map Spot.rest =
      (others.filter fun next => next.size < size).map Spot.rest := by
  have shorter : (fun next : Spot α => decide (next.size < size)) =
      (fun rest => decide (rest.length < size)) ∘ Spot.rest :=
    rfl
  rw [shorter, ← List.filter_map, ← List.filter_map, same]

/-- More repetitions than the text is long are not tried. -/
theorem repeatEnds_limit {body : Spot α → List (Spot α)}
    (bound : spot.size ≤ limit) (otherBound : spot.size ≤ other) :
    repeatEnds body limit spot = repeatEnds body other spot := by
  induction limit generalizing other spot with
  | zero =>
      have ended := Nat.le_zero.mp bound
      rw [repeatEnds_atEnd ended, repeatEnds_atEnd ended]
  | succ limit induction =>
      cases other with
      | zero =>
          have ended := Nat.le_zero.mp otherBound
          rw [repeatEnds_atEnd ended, repeatEnds_atEnd ended]
      | succ other =>
          rw [repeatEnds, repeatEnds]
          congr 1
          apply List.flatMap_congr
          intro next member
          have shorter := of_decide_eq_true (List.mem_filter.mp member).2
          exact induction (by omega) (by omega)

variable [Lettered α] [WordClass] {pattern : Regex}

theorem ends_star {body : Regex} :
    ends (.star body) spot =
      ((body.ends spot).filter fun next => next.size < spot.size).flatMap
        (ends (.star body)) ++ [spot] := by
  rw [ends]
  cases size : spot.size with
  | zero => simp [repeatEnds]
  | succ limit =>
      rw [repeatEnds, size]
      congr 1
      apply List.flatMap_congr
      intro next member
      have shorter := of_decide_eq_true (List.mem_filter.mp member).2
      exact repeatEnds_limit (by omega) le_rfl

theorem mem_ends_single {accepts : Char → Bool}
    (member : next ∈ (Regex.single accepts).ends spot) :
    ∃ item, spot.rest = item :: next.rest ∧ accepts (char item) = true := by
  rw [ends] at member
  split at member
  · cases member
  · case h_2 item rest same =>
      split at member
      · case isTrue accepted =>
          rw [List.mem_singleton.mp member]
          exact ⟨item, same, accepted⟩
      · cases member

/-- A match consumes characters that the pattern accepts. -/
theorem mem_ends {pattern : Regex} {spot next : Spot α}
    (member : next ∈ pattern.ends spot) :
    ∃ used, spot.rest = used ++ next.rest ∧
      ∀ item ∈ used, ¬ Rejects (char item) pattern := by
  induction pattern generalizing spot next with
  | empty =>
      rw [List.mem_singleton.mp member]
      exact ⟨[], rfl, by simp⟩
  | single accepts =>
      obtain ⟨item, same, accepted⟩ := mem_ends_single member
      refine ⟨[item], same, ?_⟩
      simp [Each, accepted]
  | seq first second firstUsed secondUsed =>
      obtain ⟨middle, atMiddle, atEnd⟩ := List.mem_flatMap.mp member
      obtain ⟨used, same, accepted⟩ := firstUsed atMiddle
      obtain ⟨more, same', accepted'⟩ := secondUsed atEnd
      refine ⟨used ++ more, by rw [same, same', List.append_assoc], ?_⟩
      intro item inside rejects
      rcases List.mem_append.mp inside with inFirst | inSecond
      · exact accepted item inFirst rejects.1
      · exact accepted' item inSecond rejects.2
  | alt left right leftUsed rightUsed =>
      rcases List.mem_append.mp member with onLeft | onRight
      · obtain ⟨used, same, accepted⟩ := leftUsed onLeft
        exact ⟨used, same, fun item inside rejects =>
          accepted item inside rejects.1⟩
      · obtain ⟨used, same, accepted⟩ := rightUsed onRight
        exact ⟨used, same, fun item inside rejects =>
          accepted item inside rejects.2⟩
  | star body bodyUsed =>
      induction spot using Spot.size_induction with
      | step spot induction =>
          rw [ends_star] at member
          rcases List.mem_append.mp member with repeated | done
          · obtain ⟨middle, atMiddle, atEnd⟩ := List.mem_flatMap.mp repeated
            obtain ⟨inBody, shorter⟩ := List.mem_filter.mp atMiddle
            obtain ⟨used, same, accepted⟩ := bodyUsed inBody
            obtain ⟨more, same', accepted'⟩ :=
              induction middle (of_decide_eq_true shorter) atEnd
            refine ⟨used ++ more, by rw [same, same', List.append_assoc], ?_⟩
            intro item inside
            rcases List.mem_append.mp inside with inFirst | inSecond
            · exact accepted item inFirst
            · exact accepted' item inSecond
          · rw [List.mem_singleton.mp done]
            exact ⟨[], rfl, by simp⟩
  | wordBoundary =>
      rw [ends] at member
      split at member
      · rw [List.mem_singleton.mp member]
        exact ⟨[], rfl, by simp⟩
      · cases member
  | textEnd =>
      rw [ends] at member
      split at member
      · rw [List.mem_singleton.mp member]
        exact ⟨[], rfl, by simp⟩
      · cases member

theorem size_le_of_mem_ends (member : next ∈ pattern.ends spot) :
    next.size ≤ spot.size := by
  obtain ⟨used, same, -⟩ := mem_ends member
  rw [Spot.size, Spot.size, same, List.length_append]
  exact Nat.le_add_left _ _

/-- The match ends with such an item. -/
def EndsWith (last : α → Prop) (pattern : Regex) : Prop :=
  ∀ ⦃spot next : Spot α⦄, next ∈ pattern.ends spot →
    ∃ inner item, spot.rest = inner ++ item :: next.rest ∧ last item

theorem EndsWith.seq {last : α → Prop} {first second : Regex}
    (closed : EndsWith last second) : EndsWith last (.seq first second) := by
  intro spot next member
  obtain ⟨middle, atMiddle, atEnd⟩ := List.mem_flatMap.mp member
  obtain ⟨used, same, -⟩ := mem_ends atMiddle
  obtain ⟨inner, item, same', isLast⟩ := closed atEnd
  exact ⟨used ++ inner, item, by rw [same, same', List.append_assoc], isLast⟩

theorem EndsWith.seq_empty {last : α → Prop}
    (closed : EndsWith last pattern) : EndsWith last (.seq pattern .empty) := by
  intro spot next member
  obtain ⟨middle, atMiddle, atEnd⟩ := List.mem_flatMap.mp member
  obtain rfl := List.mem_singleton.mp atEnd
  exact closed atMiddle

theorem EndsWith.mono {last other : α → Prop}
    (weaker : ∀ item, last item → other item)
    (closed : EndsWith last pattern) : EndsWith other pattern := by
  intro spot next member
  obtain ⟨inner, item, same, isLast⟩ := closed member
  exact ⟨inner, item, same, weaker item isLast⟩

theorem endsWith_plus (accepts : Char → Bool) :
    EndsWith (fun item : α => accepts (char item) = true)
      (plus (.single accepts)) := by
  intro spot next member
  obtain ⟨middle, atMiddle, atEnd⟩ := List.mem_flatMap.mp member
  obtain ⟨first, same, accepted⟩ := mem_ends_single atMiddle
  obtain ⟨more, same', accepted'⟩ := mem_ends atEnd
  rcases List.eq_nil_or_concat more with rfl | ⟨inner, item, rfl⟩
  · exact ⟨[], first, by rw [same, same']; rfl, accepted⟩
  · refine ⟨first :: inner, item, by rw [same, same']; simp, ?_⟩
    by_contra other
    exact accepted' item (by simp) (Bool.eq_false_iff.mpr other)

/-! ## What stands behind a text -/

variable {behind : List α}

/-- What stands behind a text is not seen from inside. -/
abbrev Unseen (behind : List α) : Regex → Prop :=
  Each (fun _ => True) ((⟨false, behind⟩ : Spot α).beforeWord = false) False

theorem Spot.beforeWord_extend
    (unseen : (⟨false, behind⟩ : Spot α).beforeWord = false) :
    (spot.extend behind).beforeWord = spot.beforeWord := by
  obtain ⟨behindWord, rest⟩ := spot
  cases rest with
  | nil => exact unseen
  | cons item rest => rfl

/-- A match that goes on inside a text has begun inside it. -/
theorem filter_flatMap_ends (starts : List (Spot α)) :
    (starts.flatMap pattern.ends).filter (·.keeps behind) =
      (starts.filter (·.keeps behind)).flatMap fun start =>
        (pattern.ends start).filter (·.keeps behind) := by
  induction starts with
  | nil => rfl
  | cons start starts induction =>
      rw [List.flatMap_cons, List.filter_append, induction, List.filter_cons]
      split
      · rw [List.flatMap_cons]
      · case isFalse outside =>
          have none : (pattern.ends start).filter (·.keeps behind) = [] := by
            rw [List.filter_eq_nil_iff]
            intro next member kept
            have shorter := size_le_of_mem_ends member
            have long := of_decide_eq_true kept
            exact outside (decide_eq_true (long.trans shorter))
          rw [none, List.nil_append]

/-- The matches inside a text are those of the text alone. -/
theorem filter_ends_extend {pattern : Regex}
    (unseen : Unseen behind pattern) (spot : Spot α) :
    (pattern.ends (spot.extend behind)).filter (·.keeps behind) =
      (pattern.ends spot).map (·.extend behind) := by
  induction pattern generalizing spot with
  | empty => simp [ends, Spot.keeps_extend]
  | single accepts =>
      obtain ⟨behindWord, rest⟩ := spot
      cases rest with
      | nil =>
          cases behind with
          | nil => rfl
          | cons item behind =>
              have outside : (Spot.behind item behind).keeps (item :: behind) =
                  false :=
                decide_eq_false (Nat.not_succ_le_self _)
              simp only [Spot.extend, List.nil_append, ends]
              split <;> simp [outside]
      | cons item rest =>
          have inside := Spot.keeps_extend (.behind item rest) behind
          simp only [Spot.extend, List.cons_append, ends]
          split
          · rw [List.map_singleton]
            exact List.filter_cons_of_pos inside
          · rfl
  | seq first second firstInside secondInside =>
      rw [ends, filter_flatMap_ends, firstInside unseen.1, ends,
        List.map_flatMap, List.flatMap_map]
      apply List.flatMap_congr
      intro middle _
      exact secondInside unseen.2 middle
  | alt left right leftInside rightInside =>
      rw [ends, List.filter_append, leftInside unseen.1, rightInside unseen.2,
        ends, List.map_append]
  | star body bodyInside =>
      induction spot using Spot.size_induction with
      | step spot induction =>
          rw [ends_star, List.filter_append, filter_flatMap_ends,
            List.filter_comm, bodyInside unseen, List.filter_map,
            List.flatMap_map, ends_star, List.map_append, List.map_flatMap]
          congr 1
          · have shorter : ((fun next => decide (next.size <
                (spot.extend behind).size)) ∘ fun next : Spot α =>
                  next.extend behind) =
                fun next => decide (next.size < spot.size) := by
              funext next
              simp [Spot.size_extend]
            rw [shorter]
            apply List.flatMap_congr
            intro next member
            exact induction next
              (of_decide_eq_true (List.mem_filter.mp member).2)
          · exact List.filter_cons_of_pos (Spot.keeps_extend spot behind)
  | wordBoundary =>
      rw [ends, ends, Spot.beforeWord_extend unseen]
      change List.filter _
        (if spot.behindWord != spot.beforeWord then _ else _) = _
      split
      · exact List.filter_cons_of_pos (Spot.keeps_extend spot behind)
      · rfl
  | textEnd => exact unseen.elim

/-- No match goes over a character that the pattern rejects. -/
theorem exists_of_rejects {barred : α} {rest : List α}
    (rejects : Rejects (char barred) pattern)
    (member : next ∈ pattern.ends (spot.extend (barred :: rest))) :
    ∃ inside : Spot α, next = inside.extend (barred :: rest) := by
  obtain ⟨behindWord, left⟩ := next
  obtain ⟨used, same, accepted⟩ := mem_ends member
  rcases List.append_eq_append_iff.mp same with
    ⟨more, rfl, behindUsed⟩ | ⟨inside, -, rfl⟩
  · cases more with
    | nil => exact ⟨⟨behindWord, []⟩, congrArg (Spot.mk behindWord) behindUsed.symm⟩
    | cons item more =>
        obtain ⟨rfl, -⟩ := List.cons.inj behindUsed
        exact absurd rejects (accepted barred (by simp))
  · exact ⟨⟨behindWord, inside⟩, rfl⟩

theorem keeps_of_rejects {barred : α} {rest : List α}
    (rejects : Rejects (char barred) pattern)
    (member : next ∈ pattern.ends (spot.extend (barred :: rest))) :
    next.keeps (barred :: rest) = true := by
  obtain ⟨inside, rfl⟩ := exists_of_rejects rejects member
  exact Spot.keeps_extend inside _

/-- The pattern does not look at the end of the text. -/
abbrev Endless : Regex → Prop :=
  Each (fun _ => True) True False

/-- What stands behind a rejected character is not seen in front of it. -/
theorem ends_extend_cons {pattern : Regex} {barred : α} (rest : List α)
    (rejects : Rejects (char barred) pattern) (endless : Endless pattern)
    (spot : Spot α) :
    pattern.ends (spot.extend (barred :: rest)) =
      (pattern.ends (spot.extend [barred])).map (·.extend rest) := by
  have same (spot : Spot α) :
      (spot.extend [barred]).extend rest = spot.extend (barred :: rest) := by
    simp [Spot.extend]
  induction pattern generalizing spot with
  | empty => exact congrArg List.singleton (same spot).symm
  | single accepts =>
      have rejected : accepts (char barred) = false := rejects
      obtain ⟨behindWord, others⟩ := spot
      cases others with
      | nil => simp [ends, Spot.extend, rejected]
      | cons item others =>
          simp only [Spot.extend, List.cons_append, ends]
          split <;> simp [Spot.behind]
  | seq first second firstSame secondSame =>
      rw [ends, ends, firstSame rejects.1 endless.1, List.flatMap_map,
        List.map_flatMap]
      apply List.flatMap_congr
      intro middle member
      obtain ⟨inside, rfl⟩ := exists_of_rejects rejects.1 member
      rw [same]
      exact secondSame rejects.2 endless.2 inside
  | alt left right leftSame rightSame =>
      rw [ends, ends, leftSame rejects.1 endless.1,
        rightSame rejects.2 endless.2, List.map_append]
  | star body bodySame =>
      have inBodyRejects : Rejects (char barred) body := rejects
      induction spot using Spot.size_induction with
      | step spot induction =>
          have shorter : ((fun next : Spot α => decide (next.size <
                (spot.extend (barred :: rest)).size)) ∘
                  fun next : Spot α => next.extend rest) =
              fun next : Spot α =>
                decide (next.size < (spot.extend [barred]).size) := by
            funext next
            rw [← same]
            simp [Spot.size_extend]
          rw [ends_star, ends_star, bodySame rejects endless, List.filter_map,
            shorter, List.flatMap_map, List.map_append, List.map_flatMap]
          congr 1
          · apply List.flatMap_congr
            intro next member
            obtain ⟨inBody, less⟩ := List.mem_filter.mp member
            obtain ⟨inside, rfl⟩ := exists_of_rejects inBodyRejects inBody
            have small : inside.size < spot.size := by
              simpa [Spot.size_extend] using less
            rw [same]
            exact induction inside small
          · exact congrArg List.singleton (same spot).symm
  | wordBoundary =>
      have beforeWord : (spot.extend (barred :: rest)).beforeWord =
          (spot.extend [barred]).beforeWord := by
        obtain ⟨behindWord, others⟩ := spot
        cases others <;> rfl
      rw [ends, ends, beforeWord]
      generalize (spot.extend [barred]).beforeWord = word
      change (if spot.behindWord != word then _ else _) =
        List.map _ (if spot.behindWord != word then _ else _)
      split
      · exact congrArg List.singleton (same spot).symm
      · rfl
  | textEnd => exact endless.elim

/-! ## The match at a spot -/

theorem find_eq_some (found : pattern.find spot = some next) :
    next ∈ pattern.ends spot ∧ next.size < spot.size := by
  obtain ⟨first, shorter⟩ := Option.filter_eq_some_iff.mp found
  exact ⟨List.mem_of_head? first, of_decide_eq_true shorter⟩

/-- What a match consumes is some text that the pattern accepts. -/
theorem exists_of_find (found : pattern.find spot = some next) :
    ∃ matched, matched ≠ [] ∧ spot.rest = matched ++ next.rest := by
  obtain ⟨member, shorter⟩ := find_eq_some found
  obtain ⟨used, same, -⟩ := mem_ends member
  refine ⟨used, ?_, same⟩
  rintro rfl
  rw [Spot.size, Spot.size, same] at shorter
  exact absurd shorter (Nat.lt_irrefl _)

theorem find_of_rejects {item : α} {rest : List α} {behindWord : Bool}
    (rejects : Rejects (char item) pattern) :
    pattern.find ⟨behindWord, item :: rest⟩ = none := by
  rw [Option.eq_none_iff_forall_ne_some]
  intro next found
  obtain ⟨member, shorter⟩ := find_eq_some found
  obtain ⟨used, same, accepted⟩ := mem_ends member
  cases used with
  | nil =>
      rw [Spot.size, Spot.size, same] at shorter
      exact Nat.lt_irrefl _ shorter
  | cons first used =>
      obtain ⟨rfl, -⟩ := List.cons.inj same
      exact accepted _ List.mem_cons_self rejects

/-- In a longer text a match is the same, or it reaches beyond. -/
theorem find_extend (unseen : Unseen behind pattern) (spot : Spot α) :
    pattern.find (spot.extend behind) =
        (pattern.find spot).map (·.extend behind) ∨
      ∃ next, pattern.find (spot.extend behind) = some next ∧
        next.size < behind.length := by
  have inside := filter_ends_extend unseen spot
  rw [find, find]
  cases endings : pattern.ends (spot.extend behind) with
  | nil =>
      rw [endings, List.filter_nil] at inside
      rw [List.map_eq_nil_iff.mp inside.symm]
      exact Or.inl rfl
  | cons first others =>
      rw [endings, List.filter_cons] at inside
      split at inside
      · obtain ⟨alone, rest, same, rfl, -⟩ := List.map_eq_cons_iff.mp inside.symm
        left
        simp [same, Option.filter, Spot.size_extend]
      · case isFalse outside =>
          right
          have short : first.size < behind.length := by
            simpa [Spot.keeps] using outside
          refine ⟨first, ?_, short⟩
          have shorter : first.size < (spot.extend behind).size := by
            rw [Spot.size_extend]
            omega
          simp [Option.filter, shorter]

/-- Nothing reaches beyond a character that the pattern rejects. -/
theorem find_extend_of_rejects {barred : α} {rest : List α}
    (unseen : Unseen (barred :: rest) pattern)
    (rejects : Rejects (char barred) pattern) (spot : Spot α) :
    pattern.find (spot.extend (barred :: rest)) =
      (pattern.find spot).map (·.extend (barred :: rest)) := by
  rcases find_extend unseen spot with same | ⟨next, found, short⟩
  · exact same
  · have kept := keeps_of_rejects rejects (find_eq_some found).1
    exact absurd (of_decide_eq_true kept) (Nat.not_le_of_lt short)

end

end Regex

end TrustLayer.Library
