import TrustLayer.Library.Text

/-!
# The lines of a text
-/

namespace TrustLayer.Library

/-- `str::lines`: a line ends in front of `\n` or of `\r\n`, and nothing stands
behind the last end. -/
def lines : Str → List Str
  | [] => []
  | '\n' :: rest => [] :: lines rest
  | '\r' :: '\n' :: rest => [] :: lines rest
  | char :: rest =>
      match lines rest with
      | [] => [[char]]
      | first :: others => (char :: first) :: others

example : lines "a\r\n\n\rb\r".toList =
    ["a".toList, [], "\rb\r".toList] := by
  decide

/-- Nothing of it ends a line. -/
def Inline (lead : Str) : Prop :=
  ∀ char ∈ lead, char ≠ '\n' ∧ char ≠ '\r'

instance (lead : Str) : Decidable (Inline lead) :=
  inferInstanceAs (Decidable (∀ char ∈ lead, char ≠ '\n' ∧ char ≠ '\r'))

/-- Some line begins with the lead. -/
def BeginsLine (lead text : Str) : Prop :=
  ∃ front back, text = front ++ lead ++ back ∧
    (front = [] ∨ ∃ earlier, front = earlier ++ ['\n'])

/-- The lead stands behind a line feed. -/
def BehindFeed (lead text : Str) : Prop :=
  ∃ front back, text = front ++ '\n' :: (lead ++ back)

section

variable {lead text rest : Str} {char : Char}

attribute [local simp] lines

theorem beginsLine_iff :
    BeginsLine lead text ↔ lead <+: text ∨ BehindFeed lead text := by
  constructor
  · rintro ⟨front, back, rfl, rfl | ⟨earlier, rfl⟩⟩
    · left
      exact ⟨back, rfl⟩
    · right
      exact ⟨earlier, back, by simp⟩
  · rintro (⟨back, rfl⟩ | ⟨front, back, rfl⟩)
    · exact ⟨[], back, rfl, Or.inl rfl⟩
    · exact ⟨front ++ ['\n'], back, by simp, Or.inr ⟨front, rfl⟩⟩

theorem behindFeed_cons_iff :
    BehindFeed lead (char :: rest) ↔
      (char = '\n' ∧ lead <+: rest) ∨ BehindFeed lead rest := by
  constructor
  · rintro ⟨front, back, same⟩
    cases front with
    | nil =>
        obtain ⟨rfl, rfl⟩ := List.cons.inj same
        exact Or.inl ⟨rfl, back, rfl⟩
    | cons first front =>
        obtain ⟨-, rfl⟩ := List.cons.inj same
        exact Or.inr ⟨front, back, rfl⟩
  · rintro (⟨rfl, back, rfl⟩ | ⟨front, back, rfl⟩)
    · exact ⟨[], back, rfl⟩
    · exact ⟨char :: front, back, rfl⟩

theorem not_behindFeed_nil : ¬ BehindFeed lead [] := by
  rintro ⟨front, back, same⟩
  cases front <;> cases same

theorem Inline.prefix_cons_iff (inline : Inline lead)
    (ends : char = '\n' ∨ char = '\r') :
    lead <+: char :: rest ↔ lead = [] := by
  cases lead with
  | nil => simp
  | cons first lead =>
      have notEnd := inline first List.mem_cons_self
      refine iff_of_false ?_ (List.cons_ne_nil _ _)
      rw [List.cons_prefix_cons]
      rintro ⟨rfl, -⟩
      exact ends.elim notEnd.1 notEnd.2

theorem lines_eq_nil_iff : lines text = [] ↔ text = [] := by
  fun_cases lines text <;> simp_all

theorem lines_cons (none : lines rest = []) (notFeed : char = '\n' → False)
    (notReturn : ∀ others, char = '\r' → rest = '\n' :: others → False) :
    lines (char :: rest) = [[char]] := by
  rw [lines, none]
  · exact notFeed
  · exact notReturn

theorem lines_cons_cons {first : Str} {others : List Str}
    (split : lines rest = first :: others) (notFeed : char = '\n' → False)
    (notReturn : ∀ others, char = '\r' → rest = '\n' :: others → False) :
    lines (char :: rest) = (char :: first) :: others := by
  rw [lines, split]
  · exact notFeed
  · exact notReturn

/-- What stands behind a line feed has lines of its own. -/
theorem lines_append_feed (text rest : Str) :
    lines (text ++ '\n' :: rest) = lines (text ++ ['\n']) ++ lines rest := by
  induction text using lines.induct with
  | case1 => rfl
  | case2 text induction => simp [induction]
  | case3 text induction => simp [induction]
  | case4 char text notFeed notReturn empty induction =>
      rw [lines_eq_nil_iff] at empty
      subst empty
      by_cases isReturn : char = '\r'
      · subst isReturn
        rfl
      · simp [isReturn]
  | case5 char text notFeed notReturn first others split induction =>
      have later : ∀ behind others, char = '\r' →
          text ++ '\n' :: behind = '\n' :: others → False := by
        intro behind others isReturn same
        cases text with
        | nil => cases split
        | cons second text =>
            obtain ⟨rfl, -⟩ := List.cons.inj same
            exact notReturn text isReturn rfl
      cases cut : lines (text ++ ['\n']) with
      | nil => simp [lines_eq_nil_iff] at cut
      | cons front behind =>
          have longer := induction
          rw [cut, List.cons_append] at longer
          rw [List.cons_append, lines_cons_cons longer notFeed (later rest),
            List.cons_append, lines_cons_cons cut notFeed (later [])]
          rfl

theorem Inline.lines_eq (inline : Inline text) :
    lines (text ++ ['\n']) = [text] := by
  induction text with
  | nil => rfl
  | cons char text induction =>
      have notEnd := inline char List.mem_cons_self
      have later := induction fun other member =>
        inline other (List.mem_cons_of_mem _ member)
      apply lines_cons_cons later notEnd.1
      intro others isReturn
      exact absurd isReturn notEnd.2

/-- Lines that are written one after the other are read back. -/
theorem lines_flatMap {texts : List Str}
    (inline : ∀ text ∈ texts, Inline text) :
    lines (texts.flatMap fun text => text ++ ['\n']) = texts := by
  induction texts with
  | nil => rfl
  | cons text texts induction =>
      obtain ⟨first, rest⟩ := List.forall_mem_cons.mp inline
      rw [List.flatMap_cons, List.append_assoc, List.singleton_append,
        lines_append_feed, first.lines_eq, induction rest]
      rfl

/-- The first line begins as the text does. -/
theorem prefix_first_line_iff {first : Str} {others : List Str}
    (inline : Inline lead) (split : lines text = first :: others) :
    lead <+: first ↔ lead <+: text := by
  induction text using lines.induct generalizing lead first others with
  | case1 => cases split
  | case2 rest =>
      rw [lines] at split
      obtain ⟨rfl, -⟩ := List.cons.inj split
      rw [inline.prefix_cons_iff (Or.inl rfl), List.prefix_nil]
  | case3 rest =>
      rw [lines] at split
      obtain ⟨rfl, -⟩ := List.cons.inj split
      rw [inline.prefix_cons_iff (Or.inr rfl), List.prefix_nil]
  | case4 char rest notFeed notReturn none =>
      rw [lines_cons none notFeed notReturn] at split
      obtain ⟨rfl, -⟩ := List.cons.inj split
      rw [lines_eq_nil_iff.mp none]
  | case5 char rest notFeed notReturn start more some induction =>
      rw [lines_cons_cons some notFeed notReturn] at split
      obtain ⟨rfl, -⟩ := List.cons.inj split
      cases lead with
      | nil => simp
      | cons head lead =>
          have tail : Inline lead :=
            fun char at_ => inline char (List.mem_cons_of_mem _ at_)
          rw [List.cons_prefix_cons, List.cons_prefix_cons, induction tail some]

theorem prefix_line_split (inline : Inline lead) (some : lead ≠ []) :
    (∃ line ∈ lines text, lead <+: line) ↔
      lead <+: text ∨ ∃ line ∈ (lines text).tail, lead <+: line := by
  cases split : lines text with
  | nil =>
      rw [lines_eq_nil_iff.mp split]
      simp [some]
  | cons first others =>
      rw [List.exists_mem_cons_iff, prefix_first_line_iff inline split,
        List.tail_cons]

/-- Behind a line feed, a line begins. -/
theorem prefix_later_line_iff (inline : Inline lead) (some : lead ≠ []) :
    (∃ line ∈ (lines text).tail, lead <+: line) ↔ BehindFeed lead text := by
  induction text using lines.induct with
  | case1 => simp [not_behindFeed_nil]
  | case2 rest induction =>
      rw [lines, List.tail_cons, prefix_line_split inline some, induction,
        behindFeed_cons_iff]
      simp
  | case3 rest induction =>
      rw [lines, List.tail_cons, prefix_line_split inline some, induction,
        behindFeed_cons_iff, behindFeed_cons_iff]
      simp
  | case4 char rest notFeed notReturn none =>
      rw [lines_cons none notFeed notReturn, behindFeed_cons_iff,
        lines_eq_nil_iff.mp none]
      simp [not_behindFeed_nil, some]
  | case5 char rest notFeed notReturn start more split induction =>
      rw [split, List.tail_cons] at induction
      rw [lines_cons_cons split notFeed notReturn, List.tail_cons, induction,
        behindFeed_cons_iff, or_iff_right fun same => notFeed same.1]

/-- What begins a line of the text. -/
theorem prefix_line_iff (inline : Inline lead) (some : lead ≠ []) :
    (∃ line ∈ lines text, lead <+: line) ↔ BeginsLine lead text := by
  rw [prefix_line_split inline some, prefix_later_line_iff inline some,
    beginsLine_iff]

end

end TrustLayer.Library
