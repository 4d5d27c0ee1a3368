import TrustLayer.Library.Delimited
import TrustLayer.Library.Text

/-!
# Texts cut at a mark

Pieces between occurrences of a mark are found again where none of them has the
mark and each ends with a character that the mark has not.
-/

namespace TrustLayer.Library

/-- The pieces of a text, at most as many as the fuel allows. -/
def cutWithin (mark : Str) : (fuel : Nat) → Str → List Str
  | 0, text => [text]
  | fuel + 1, text =>
      match splitFirst mark text with
      | none => [text]
      | some (before, rest) => before :: cutWithin mark fuel rest

/-- The pieces of a text between the occurrences of the mark. -/
def cut (mark text : Str) : List Str :=
  cutWithin mark text.length text

def Avoids (mark text : Str) : Prop :=
  ¬ mark <:+: text

/-- Nothing of the mark begins in the piece. -/
def Closed (mark piece : Str) : Prop :=
  ∃ front char, piece = front ++ [char] ∧ char ∉ mark ∧ Avoids mark front

section

variable {mark left right text : Str} {char : Char}

theorem avoids_append_cons (some : mark ≠ []) (outer : char ∉ mark) :
    Avoids mark (left ++ char :: right) ↔ Avoids mark left ∧ Avoids mark right := by
  rw [Avoids, Avoids, Avoids, ← not_or, not_iff_not]
  constructor
  · intro occurs
    induction left with
    | nil =>
        rcases List.infix_cons_iff.mp occurs with starts | inRight
        · have nothing : mark <+: [] := prefix_of_prefix_append_cons outer starts
          exact absurd (List.prefix_nil.mp nothing) some
        · exact .inr inRight
    | cons first left induction =>
        rcases List.infix_cons_iff.mp occurs with starts | later
        · exact .inl (prefix_of_prefix_append_cons outer starts).isInfix
        · exact (induction later).imp_left fun inLeft =>
            List.infix_cons inLeft
  · rintro (inLeft | inRight)
    · exact inLeft.trans (List.prefix_append _ _).isInfix
    · exact inRight.trans (List.suffix_append_of_suffix
        (List.suffix_cons char right)).isInfix

theorem avoids_of_not_mem (member : char ∈ mark) (absent : char ∉ text) :
    Avoids mark text := by
  intro occurs
  exact absent (occurs.subset member)

theorem Avoids.sublist {shorter : Str} (avoids : Avoids mark text)
    (within : shorter <:+: text) : Avoids mark shorter := by
  intro occurs
  exact avoids (occurs.trans within)

theorem splitFirst_eq_none (avoids : Avoids mark text) :
    splitFirst mark text = none := by
  rw [Option.eq_none_iff_forall_ne_some]
  rintro ⟨before, after⟩ found
  apply avoids
  rw [splitFirst_sound found]
  exact List.infix_append before mark after

theorem splitFirst_mark (some : mark ≠ []) (rest : Str) :
    splitFirst mark (mark ++ rest) = Option.some ([], rest) := by
  have starts : mark.isPrefixOf (mark ++ rest) = true :=
    List.isPrefixOf_iff_prefix.mpr (List.prefix_append mark rest)
  cases mark with
  | nil => exact absurd rfl some
  | cons char mark =>
      rw [List.cons_append] at starts ⊢
      rw [splitFirst, if_pos starts, List.length_cons, List.drop_succ_cons,
        List.drop_left]

/-- The leftmost mark is the one behind the piece. -/
theorem splitFirst_closed {piece : Str} (some : mark ≠ [])
    (closed : Closed mark piece) (rest : Str) :
    splitFirst mark (piece ++ (mark ++ rest)) = Option.some (piece, rest) := by
  obtain ⟨front, char, rfl, outer, avoids⟩ := closed
  rw [List.append_assoc]
  induction front with
  | nil =>
      have starts : ¬ mark.isPrefixOf (char :: (mark ++ rest)) = true := by
        rw [List.isPrefixOf_iff_prefix]
        intro starts
        cases mark with
        | nil => exact some rfl
        | cons first mark =>
            obtain ⟨rfl, -⟩ := List.cons_prefix_cons.mp starts
            exact outer List.mem_cons_self
      change splitFirst mark (char :: (mark ++ rest)) = _
      rw [splitFirst, if_neg starts, splitFirst_mark some]
      rfl
  | cons first front induction =>
      have later : Avoids mark front :=
        avoids.sublist (List.suffix_cons first front).isInfix
      have starts : ¬ mark.isPrefixOf
          (first :: (front ++ ([char] ++ (mark ++ rest)))) = true := by
        rw [List.isPrefixOf_iff_prefix]
        intro starts
        exact avoids (prefix_of_prefix_append_cons outer starts).isInfix
      rw [List.cons_append, splitFirst, if_neg starts, induction later]
      rfl

theorem cutWithin_append {piece : Str} {fuel : Nat} (some : mark ≠ [])
    (closed : Closed mark piece) (rest : Str) :
    cutWithin mark (fuel + 1) (piece ++ (mark ++ rest)) =
      piece :: cutWithin mark fuel rest := by
  rw [cutWithin, splitFirst_closed some closed]

theorem cutWithin_pieces {pieces : List Str} {last : Str} {fuel : Nat}
    (some : mark ≠ []) (closed : ∀ piece ∈ pieces, Closed mark piece)
    (avoids : Avoids mark last) (enough : pieces.length ≤ fuel) :
    cutWithin mark fuel (pieces.flatMap (fun piece => piece ++ mark) ++ last) =
      pieces ++ [last] := by
  induction pieces generalizing fuel with
  | nil =>
      cases fuel with
      | zero => rfl
      | succ fuel =>
          rw [List.flatMap_nil, List.nil_append, cutWithin,
            splitFirst_eq_none avoids]
          rfl
  | cons piece pieces induction =>
      rw [List.length_cons] at enough
      rw [List.forall_mem_cons] at closed
      obtain ⟨less, rfl⟩ := Nat.exists_eq_add_of_le' enough
      rw [List.flatMap_cons, List.append_assoc, List.append_assoc,
        ← Nat.add_assoc, cutWithin_append some closed.1,
        induction closed.2 (Nat.le_add_left _ _)]
      rfl

/-- The pieces of a text are found again. -/
theorem cut_pieces {pieces : List Str} {last : Str} (some : mark ≠ [])
    (closed : ∀ piece ∈ pieces, Closed mark piece) (avoids : Avoids mark last) :
    cut mark (pieces.flatMap (fun piece => piece ++ mark) ++ last) =
      pieces ++ [last] := by
  apply cutWithin_pieces some closed avoids
  have marks : ∀ piece : Str, 1 ≤ (piece ++ mark).length := by
    intro piece
    have positive := List.length_pos_of_ne_nil some
    rw [List.length_append]
    omega
  have lengths := length_le_flatMap marks pieces
  rw [List.length_append]
  omega

end

end TrustLayer.Library
