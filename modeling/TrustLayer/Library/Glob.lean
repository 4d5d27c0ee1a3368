import TrustLayer.Library.Text

/-!
# Glob patterns

In a pattern one symbol, the star, stands for any text.  The pieces between
the stars are looked up one after another, each at its leftmost place.
-/

namespace TrustLayer.Library

section

variable {α : Type} {star : α} {pattern other text rest : List α}

/-- A text is the pattern with some text in place of each star. -/
inductive Expands (star : α) : List α → List α → Prop where
  | nil : Expands star [] []
  | literal {char : α} {pattern text : List α} :
      char ≠ star →
      Expands star pattern text →
      Expands star (char :: pattern) (char :: text)
  | star {inserted pattern text : List α} :
      Expands star pattern text →
      Expands star (star :: pattern) (inserted ++ text)

theorem expands_nil_iff : Expands star [] text ↔ text = [] := by
  constructor
  · intro expands
    cases expands
    rfl
  · rintro rfl
    exact .nil

theorem expands_literal_iff {char : α} (literal : char ≠ star) :
    Expands star (char :: pattern) text ↔
      ∃ later, text = char :: later ∧ Expands star pattern later := by
  constructor
  · intro expands
    cases expands with
    | literal _ later => exact ⟨_, rfl, later⟩
    | star later => exact absurd rfl literal
  · rintro ⟨later, rfl, expands⟩
    exact .literal literal expands

theorem expands_star_iff :
    Expands star (star :: pattern) text ↔
      ∃ inserted later, text = inserted ++ later ∧
        Expands star pattern later := by
  constructor
  · intro expands
    cases expands with
    | literal literal later => exact absurd rfl literal
    | star later => exact ⟨_, _, rfl, later⟩
  · rintro ⟨inserted, later, rfl, expands⟩
    exact .star expands

theorem expands_append_iff :
    Expands star (pattern ++ other) text ↔
      ∃ front behind, text = front ++ behind ∧ Expands star pattern front ∧
        Expands star other behind := by
  induction pattern generalizing text with
  | nil =>
      simp only [List.nil_append, expands_nil_iff]
      constructor
      · intro expands
        exact ⟨[], text, rfl, rfl, expands⟩
      · rintro ⟨front, behind, rfl, rfl, expands⟩
        exact expands
  | cons char pattern induction =>
      rw [List.cons_append]
      by_cases isStar : char = star
      · subst isStar
        simp only [expands_star_iff, induction]
        constructor
        · rintro ⟨inserted, _, rfl, front, behind, rfl, first, second⟩
          exact ⟨inserted ++ front, behind, by simp,
            ⟨inserted, front, rfl, first⟩, second⟩
        · rintro ⟨_, behind, rfl, ⟨inserted, front, rfl, first⟩, second⟩
          exact ⟨inserted, front ++ behind, by simp, front, behind, rfl, first,
            second⟩
      · simp only [expands_literal_iff isStar, induction]
        constructor
        · rintro ⟨_, rfl, front, behind, rfl, first, second⟩
          exact ⟨char :: front, behind, rfl, ⟨front, rfl, first⟩, second⟩
        · rintro ⟨_, behind, rfl, ⟨front, rfl, first⟩, second⟩
          exact ⟨front ++ behind, rfl, front, behind, rfl, first, second⟩

/-- Without a star only the pattern itself is one of its texts. -/
theorem expands_of_star_free (free : star ∉ pattern) :
    Expands star pattern text ↔ text = pattern := by
  induction pattern generalizing text with
  | nil => exact expands_nil_iff
  | cons char pattern induction =>
      obtain ⟨different, later⟩ := not_or.mp (mt List.mem_cons.mpr free)
      rw [expands_literal_iff (Ne.symm different)]
      simp only [induction later, exists_eq_right]

/-- A star at the end takes whatever follows. -/
theorem expands_concat_star_iff :
    Expands star (pattern ++ [star]) text ↔
      ∃ front behind, text = front ++ behind ∧
        Expands star pattern front := by
  rw [expands_append_iff]
  refine exists_congr fun front => exists_congr fun behind => ?_
  have any : Expands star [star] behind :=
    expands_star_iff.mpr ⟨behind, [], by simp, .nil⟩
  simp only [any, and_true]

/-- A text starts with a text of the pattern. -/
def Leads (star : α) (pattern text rest : List α) : Prop :=
  ∃ front, text = front ++ rest ∧ Expands star pattern front

/-! ## Pieces -/

/-- The pieces stand one after another. -/
def InOrder : List (List α) → List α → List α → Prop
  | [], text, rest => text = rest
  | piece :: pieces, text, rest =>
      ∃ before behind, text = before ++ piece ++ behind ∧
        InOrder pieces behind rest

/-- The first piece stands at the front. -/
def FrontInOrder : List (List α) → List α → List α → Prop
  | [], text, rest => text = rest
  | piece :: pieces, text, rest =>
      ∃ behind, text = piece ++ behind ∧ InOrder pieces behind rest

theorem inOrder_iff_front {pieces : List (List α)} (some : pieces ≠ []) :
    InOrder pieces text rest ↔
      ∃ before behind, text = before ++ behind ∧
        FrontInOrder pieces behind rest := by
  cases pieces with
  | nil => exact absurd rfl some
  | cons piece pieces =>
      constructor
      · rintro ⟨before, behind, rfl, later⟩
        exact ⟨before, piece ++ behind, by simp, behind, rfl, later⟩
      · rintro ⟨before, _, rfl, behind, rfl, later⟩
        exact ⟨before, behind, by simp, later⟩

theorem frontInOrder_nil_cons {pieces : List (List α)} :
    FrontInOrder ([] :: pieces) text rest ↔ InOrder pieces text rest := by
  simp [FrontInOrder]

theorem leads_iff_front [BEq α] [LawfulBEq α] :
    Leads star pattern text rest ↔
      FrontInOrder (pattern.splitOn star) text rest := by
  induction pattern generalizing text with
  | nil =>
      simp only [Leads, expands_nil_iff, List.splitOn_nil, FrontInOrder, InOrder]
      simp
  | cons char pattern induction =>
      rw [List.splitOn_cons_eq_if_modifyHead]
      by_cases isStar : char = star
      · subst isStar
        rw [if_pos (beq_self_eq_true char)]
        rw [frontInOrder_nil_cons,
          inOrder_iff_front (List.splitOn_ne_nil char pattern)]
        simp only [← induction, Leads, expands_star_iff]
        constructor
        · rintro ⟨_, rfl, inserted, front, rfl, expands⟩
          exact ⟨inserted, front ++ rest, by simp, front, rfl, expands⟩
        · rintro ⟨inserted, _, rfl, front, rfl, expands⟩
          exact ⟨inserted ++ front, by simp, inserted, front, rfl, expands⟩
      · rw [if_neg (by simpa using isStar)]
        simp only [Leads, expands_literal_iff isStar]
        cases pieces : pattern.splitOn star with
        | nil => exact absurd pieces (List.splitOn_ne_nil star pattern)
        | cons piece pieces' =>
            rw [pieces] at induction
            simp only [List.modifyHead_cons, FrontInOrder]
            constructor
            · rintro ⟨_, rfl, front, rfl, expands⟩
              obtain ⟨behind, same, later⟩ :=
                (@induction (front ++ rest)).mp ⟨front, rfl, expands⟩
              refine ⟨behind, ?_, later⟩
              rw [List.cons_append, same, List.cons_append]
            · rintro ⟨behind, rfl, later⟩
              obtain ⟨front, same, expands⟩ :=
                (@induction (piece ++ behind)).mpr ⟨behind, rfl, later⟩
              refine ⟨char :: front, ?_, front, rfl, expands⟩
              rw [List.cons_append, same, List.cons_append]

end

/-! ## The leftmost search -/

/-- Each piece at the leftmost place behind the piece before it. -/
def search : List Str → Str → Option Str
  | [], text => some text
  | piece :: pieces, text =>
      match splitFirst piece text with
      | none => none
      | some (_, behind) => search pieces behind

section

variable {pieces : List Str} {text rest behind : Str}

theorem inOrder_of_search (found : search pieces text = some rest) :
    InOrder pieces text rest := by
  induction pieces generalizing text with
  | nil => exact Option.some.inj found
  | cons piece pieces induction =>
      rw [search] at found
      cases here : splitFirst piece text with
      | none => simp [here] at found
      | some pair =>
          obtain ⟨before, behind⟩ := pair
          simp only [here] at found
          exact ⟨before, behind, splitFirst_sound here, induction found⟩

/-- The exchange: whatever the pieces leave elsewhere, the search finds them
too and leaves no less. -/
theorem exists_search (ordered : InOrder pieces behind rest)
    (within : behind <:+ text) :
    ∃ left, search pieces text = some left ∧ rest <:+ left := by
  induction pieces generalizing text behind with
  | nil =>
      obtain rfl : behind = rest := ordered
      exact ⟨text, rfl, within⟩
  | cons piece pieces induction =>
      obtain ⟨before, later, rfl, laterOrdered⟩ := ordered
      obtain ⟨more, rfl⟩ := within
      obtain ⟨front, leftmost, found, laterWithin⟩ :=
        exists_splitFirst piece (more ++ before) later
      have same : more ++ (before ++ piece ++ later) =
          more ++ before ++ piece ++ later := by
        simp
      obtain ⟨left, searched, restWithin⟩ :=
        induction laterOrdered laterWithin
      refine ⟨left, ?_, restWithin⟩
      rw [search, same, found]
      exact searched

/-- Empty pieces are found where the search stands. -/
theorem search_filter (pieces : List Str) (text : Str) :
    search (pieces.filter fun piece => !piece.isEmpty) text =
      search pieces text := by
  induction pieces generalizing text with
  | nil => rfl
  | cons piece pieces induction =>
      cases piece with
      | nil =>
          have here : splitFirst [] text = some ([], text) := by
            cases text <;> rfl
          rw [search, here]
          exact induction text
      | cons char piece =>
          rw [List.filter_cons_of_pos (by simp), search, search]
          cases splitFirst (char :: piece) text with
          | none => rfl
          | some pair => exact induction pair.2

/-- The rest that the search leaves is the longest of all. -/
theorem search_eq_some_iff :
    search pieces text = some rest ↔
      InOrder pieces text rest ∧
        ∀ other, InOrder pieces text other → other <:+ rest := by
  constructor
  · intro found
    refine ⟨inOrder_of_search found, fun other ordered => ?_⟩
    obtain ⟨left, searched, within⟩ :=
      exists_search ordered (List.suffix_refl text)
    rw [found] at searched
    obtain rfl := Option.some.inj searched
    exact within
  · rintro ⟨ordered, longest⟩
    obtain ⟨left, searched, within⟩ :=
      exists_search ordered (List.suffix_refl text)
    have back := longest left (inOrder_of_search searched)
    rw [searched, List.IsSuffix.eq_of_length_le back within.length_le]

/-- The first piece at the front, the others at their leftmost places. -/
def searchFront : List Str → Str → Option Str
  | [], text => some text
  | piece :: pieces, text =>
      match stripPrefix piece text with
      | none => none
      | some behind => search pieces behind

theorem searchFront_eq_some_iff :
    searchFront pieces text = some rest ↔
      FrontInOrder pieces text rest ∧
        ∀ other, FrontInOrder pieces text other → other <:+ rest := by
  cases pieces with
  | nil =>
      rw [searchFront, Option.some.injEq]
      constructor
      · rintro rfl
        refine ⟨rfl, fun other same => ?_⟩
        obtain rfl : text = other := same
        exact List.suffix_refl text
      · rintro ⟨same, -⟩
        exact same
  | cons piece pieces =>
      rw [searchFront]
      cases stripped : stripPrefix piece text with
      | none =>
          simp only [reduceCtorEq, false_iff, not_and]
          rintro ⟨behind, same, -⟩
          rw [stripPrefix_eq_some_iff.mpr same] at stripped
          cases stripped
      | some behind =>
          have front : ∀ other, FrontInOrder (piece :: pieces) text other ↔
              InOrder pieces behind other := by
            obtain rfl := stripPrefix_eq_some_iff.mp stripped
            intro other
            simp [FrontInOrder]
          simp only [front]
          exact search_eq_some_iff

section

variable {star : Char} {pattern : Str}

/-- The front search over the pieces of a pattern finds its shortest text. -/
theorem searchFront_splitOn_eq_some_iff :
    searchFront (pattern.splitOn star) text = some rest ↔
      Leads star pattern text rest ∧
        ∀ other, Leads star pattern text other → other <:+ rest := by
  rw [searchFront_eq_some_iff]
  simp only [leads_iff_front]

theorem isSome_searchFront_iff :
    (searchFront (pattern.splitOn star) text).isSome = true ↔
      ∃ rest, Leads star pattern text rest := by
  constructor
  · intro found
    obtain ⟨rest, searched⟩ := Option.isSome_iff_exists.mp found
    exact ⟨rest, (searchFront_splitOn_eq_some_iff.mp searched).1⟩
  · rintro ⟨rest, leads⟩
    have ordered := leads_iff_front.mp leads
    cases pieces : pattern.splitOn star with
    | nil => exact absurd pieces (List.splitOn_ne_nil star pattern)
    | cons piece pieces =>
        rw [pieces] at ordered
        obtain ⟨behind, same, later⟩ := ordered
        obtain ⟨left, searched, -⟩ :=
          exists_search later (List.suffix_refl behind)
        rw [searchFront, stripPrefix_eq_some_iff.mpr same]
        exact Option.isSome_iff_exists.mpr ⟨left, searched⟩

/-- The search over the pieces finds a text of the pattern wherever one
stands. -/
theorem isSome_search_iff :
    (search (pattern.splitOn star) text).isSome = true ↔
      ∃ inner, inner <:+: text ∧ Expands star pattern inner := by
  constructor
  · intro found
    obtain ⟨rest, searched⟩ := Option.isSome_iff_exists.mp found
    have ordered := inOrder_of_search searched
    rw [inOrder_iff_front (List.splitOn_ne_nil star pattern)] at ordered
    obtain ⟨before, behind, rfl, front⟩ := ordered
    obtain ⟨inner, rfl, expands⟩ := leads_iff_front.mpr front
    exact ⟨inner, ⟨before, rest, by simp⟩, expands⟩
  · rintro ⟨inner, ⟨before, rest, same⟩, expands⟩
    have front : FrontInOrder (pattern.splitOn star) (inner ++ rest) rest :=
      leads_iff_front.mp ⟨inner, rfl, expands⟩
    have ordered : InOrder (pattern.splitOn star) text rest := by
      rw [inOrder_iff_front (List.splitOn_ne_nil star pattern)]
      exact ⟨before, inner ++ rest, by simp [← same], front⟩
    obtain ⟨left, searched, -⟩ :=
      exists_search ordered (List.suffix_refl text)
    exact Option.isSome_iff_exists.mpr ⟨left, searched⟩

/-- Only the pieces of stars are all empty. -/
theorem forall_splitOn_eq_nil_iff :
    (∀ piece ∈ pattern.splitOn star, piece = []) ↔
      ∀ char ∈ pattern, char = star := by
  induction pattern with
  | nil => simp
  | cons char pattern induction =>
      rw [List.splitOn_cons_eq_if_modifyHead, List.forall_mem_cons]
      by_cases isStar : char = star
      · simp [isStar, induction]
      · rw [if_neg (by simpa using isStar)]
        cases pieces : pattern.splitOn star with
        | nil => exact absurd pieces (List.splitOn_ne_nil star pattern)
        | cons piece pieces => simp [isStar]

/-- A pattern that ends in a star takes in what follows. -/
theorem expands_iff_exists_leads {front : Str} :
    Expands star (front ++ [star]) text ↔
      ∃ rest, Leads star (front ++ [star]) text rest := by
  constructor
  · intro expands
    exact ⟨[], text, (List.append_nil text).symm, expands⟩
  · rintro ⟨rest, inner, rfl, expands⟩
    obtain ⟨first, behind, rfl, expandsFront⟩ :=
      expands_concat_star_iff.mp expands
    apply expands_concat_star_iff.mpr
    exact ⟨first, behind ++ rest, List.append_assoc _ _ _, expandsFront⟩

/-- Behind a star, the last piece may stand at any later place. -/
theorem expands_of_leads {front last : Str} (free : star ∉ last)
    (leads : Leads star (front ++ star :: last) text rest)
    (ends : last <:+ text) : Expands star (front ++ star :: last) text := by
  obtain ⟨inner, same, expands⟩ := leads
  have split : front ++ star :: last = front ++ [star] ++ last := by simp
  rw [split, expands_append_iff] at expands ⊢
  obtain ⟨earlier, piece, rfl, starred, isLast⟩ := expands
  obtain rfl := (expands_of_star_free free).mp isLast
  obtain ⟨whole, rfl⟩ := ends
  have reaches : earlier.length ≤ whole.length := by
    have lengths := congrArg List.length same
    simp only [List.length_append] at lengths
    omega
  obtain ⟨gap, rfl⟩ : earlier <+: whole := by
    apply List.prefix_of_prefix_length_le _ (List.prefix_append whole piece)
      reaches
    exact ⟨piece ++ rest, by rw [same, List.append_assoc]⟩
  refine ⟨earlier ++ gap, piece, rfl, ?_, isLast⟩
  exact expands_iff_exists_leads.mpr ⟨gap, earlier, rfl, starred⟩

theorem suffix_of_expands {front last : Str} (free : star ∉ last)
    (expands : Expands star (front ++ star :: last) text) : last <:+ text := by
  have split : front ++ star :: last = front ++ [star] ++ last := by simp
  rw [split, expands_append_iff] at expands
  obtain ⟨earlier, piece, rfl, -, isLast⟩ := expands
  obtain rfl := (expands_of_star_free free).mp isLast
  exact List.suffix_append earlier piece

end

end

end TrustLayer.Library
