import TrustLayer.Library.PathResolution
import TrustLayer.Library.Unicode

/-!
# Spellings of a path

Empty parts, `.` and a name with the `..` behind it can be left out of an
absolute path; what is left are the names of its lexical normal form.  Lower
case is taken part by part.
-/

namespace TrustLayer.Library.Pathname

/-! ## Normal forms -/

/-- A `..` takes the last name back. -/
def cancel (names : List Str) : Segment → List Str
  | .current => names
  | .parent => names.dropLast
  | .name name => names ++ [name]

def lexical (path : Str) : List Str :=
  (Segment.inside path).foldl cancel []

variable {segments : List Segment} {names : List Str} {name : Str}

theorem name_mem_of_mem_cancelled
    (member : name ∈ segments.foldl cancel []) : .name name ∈ segments := by
  induction segments using List.reverseRecOn with
  | nil => cases member
  | append_singleton front last induction =>
      rw [List.foldl_concat] at member
      apply List.mem_append.mpr
      cases last with
      | current => exact .inl (induction member)
      | parent => exact .inl (induction (List.dropLast_subset _ member))
      | name other =>
          rcases List.mem_append.mp member with before | same
          · exact .inl (induction before)
          · rw [List.mem_singleton.mp same]
            exact .inr List.mem_cons_self

theorem exists_mem_dropLast {α β : Type} {f : α → Option β} {items : List α}
    {image : β} (member : image ∈ (items.filterMap f).dropLast) :
    ∃ item ∈ items.dropLast, f item = some image := by
  rcases List.eq_nil_or_concat' items with rfl | ⟨front, last, rfl⟩
  · cases member
  · rw [List.dropLast_concat]
    apply List.mem_filterMap.mp
    rw [List.filterMap_append] at member
    cases kept : f last with
    | none =>
        rw [List.filterMap_cons_none kept, List.filterMap_nil,
          List.append_nil] at member
        exact List.dropLast_subset _ member
    | some other =>
        rw [List.filterMap_cons_some kept, List.filterMap_nil,
          List.dropLast_concat] at member
        exact member

/-- A name that is left before another one has a segment behind it. -/
theorem name_mem_dropLast
    (member : name ∈ (segments.foldl cancel []).dropLast) :
    .name name ∈ segments.dropLast := by
  rcases List.eq_nil_or_concat' segments with rfl | ⟨front, last, rfl⟩
  · cases member
  · rw [List.foldl_concat] at member
    rw [List.dropLast_concat]
    apply name_mem_of_mem_cancelled
    cases last with
    | current => exact List.dropLast_subset _ member
    | parent =>
        exact List.dropLast_subset _ (List.dropLast_subset _ member)
    | name other =>
        rw [cancel, List.dropLast_concat] at member
        exact member

/-- The last segment that is no dot. -/
def lastStep (segments : List Segment) : Option Segment :=
  (segments.filter (· ≠ .current)).getLast?

theorem lastStep_concat (front : List Segment) (last : Segment) :
    lastStep (front ++ [last]) =
      if last = .current then lastStep front else some last := by
  rw [lastStep, List.filter_append]
  by_cases dot : last = .current
  · simp [dot, lastStep]
  · simp [dot]

/-- A path that ends in a name has it at the end of the normal form. -/
theorem getLast?_of_lastStep (step : lastStep segments = some (.name name)) :
    (segments.foldl cancel []).getLast? = some name := by
  induction segments using List.reverseRecOn with
  | nil => cases step
  | append_singleton front last induction =>
      rw [lastStep_concat] at step
      rw [List.foldl_concat]
      by_cases dot : last = .current
      · rw [if_pos dot] at step
        rw [dot]
        exact induction step
      · rw [if_neg dot] at step
        cases step
        rw [cancel, List.getLast?_concat]

theorem foldl_cancel_names (names front : List Str) :
    (names.map .name).foldl cancel front = front ++ names := by
  induction names generalizing front with
  | nil => simp
  | cons name names induction =>
      rw [List.map_cons, List.foldl_cons, induction, cancel, List.append_assoc]
      rfl

/-! ## Words between slashes -/

variable {word text : Str}

theorem mem_splitOn_of_infix (noSlash : '/' ∉ word)
    (inside : '/' :: (word ++ ['/']) <:+: text) :
    word ∈ (text.splitOn '/').dropLast := by
  obtain ⟨front, back, rfl⟩ := inside
  have split : front ++ '/' :: (word ++ ['/']) ++ back =
      front ++ '/' :: (word ++ '/' :: back) := by simp
  rw [split, List.splitOn_append_cons_self,
    List.splitOn_append_cons_self_of_not_mem noSlash, List.dropLast_append_cons]
  apply List.mem_append_right
  rw [List.dropLast_cons_of_ne_nil (List.splitOn_ne_nil _ _)]
  exact List.mem_cons_self

/-- A part that is neither the first nor the last one stands between
slashes. -/
theorem infix_of_parts {first back : List Str} (nonempty : first ≠ [])
    (followed : back ≠ []) (split : text.splitOn '/' = first ++ word :: back) :
    '/' :: (word ++ ['/']) <:+: text := by
  obtain ⟨front, last, rfl⟩ := List.exists_cons_of_ne_nil nonempty
  obtain ⟨next, later, rfl⟩ := List.exists_cons_of_ne_nil followed
  have joined : ['/'].intercalate (text.splitOn '/') = text :=
    List.intercalate_splitOn '/'
  rw [split, List.cons_append, intercalate_cons, List.flatMap_append,
    List.flatMap_cons, List.flatMap_cons] at joined
  refine ⟨front ++ last.flatMap fun part => '/' :: part,
    next ++ later.flatMap fun part => '/' :: part, ?_⟩
  rw [← joined]
  simp

theorem infix_of_append_slash {front back : Str} (noSlash : '/' ∉ word)
    (inside : word <:+: front ++ '/' :: back) :
    word <:+: front ∨ word <:+: back := by
  obtain ⟨before, after, same⟩ := inside
  rcases List.append_eq_append_iff.mp same with
    ⟨rest, rfl, rest_eq⟩ | ⟨rest, word_eq, rest_eq⟩
  · exact .inl ⟨before, rest, rfl⟩
  · rcases List.append_eq_append_iff.mp word_eq with
      ⟨left, rfl, whole⟩ | ⟨left, before_eq, left_eq⟩
    · -- the slash would stand in the word, or right behind it
      cases rest with
      | nil =>
          rw [List.append_nil] at whole
          subst whole
          exact .inl (List.suffix_append _ _).isInfix
      | cons char rest =>
          cases rest_eq
          rw [whole] at noSlash
          exact absurd (List.mem_append_right _ List.mem_cons_self) noSlash
    · cases left with
      | nil =>
          rw [List.nil_append] at left_eq
          subst left_eq
          cases rest with
          | nil => exact .inl List.nil_infix
          | cons char rest =>
              cases rest_eq
              exact absurd List.mem_cons_self noSlash
      | cons char left =>
          subst left_eq
          cases rest_eq
          right
          exact ⟨left, after, by simp⟩

/-- A word without a slash stands in one part. -/
theorem exists_part_of_infix (noSlash : '/' ∉ word) (inside : word <:+: text) :
    ∃ part ∈ text.splitOn '/', word <:+: part := by
  have joined : ['/'].intercalate (text.splitOn '/') = text :=
    List.intercalate_splitOn '/'
  cases parts : text.splitOn '/' with
  | nil => exact absurd parts (List.splitOn_ne_nil '/' text)
  | cons first later =>
      rw [parts, intercalate_cons] at joined
      rw [← joined] at inside
      clear joined parts
      induction later generalizing first with
      | nil =>
          rw [List.flatMap_nil, List.append_nil] at inside
          exact ⟨first, List.mem_cons_self, inside⟩
      | cons next later induction =>
          rw [List.flatMap_cons, List.cons_append] at inside
          rcases infix_of_append_slash noSlash inside with here | behind
          · exact ⟨first, List.mem_cons_self, here⟩
          · obtain ⟨part, member, found⟩ := induction next behind
            exact ⟨part, List.mem_cons_of_mem _ member, found⟩

theorem infix_of_part {part : Str} (member : part ∈ text.splitOn '/') :
    part <:+: text := by
  obtain ⟨first, back, split⟩ := List.append_of_mem member
  have joined : ['/'].intercalate (text.splitOn '/') = text :=
    List.intercalate_splitOn '/'
  rw [split] at joined
  cases first with
  | nil =>
      rw [List.nil_append, intercalate_cons] at joined
      rw [← joined]
      exact (List.prefix_append _ _).isInfix
  | cons front first =>
      rw [List.cons_append, intercalate_cons, List.flatMap_append,
        List.flatMap_cons] at joined
      rw [← joined]
      refine ⟨front ++ (first.flatMap fun part => '/' :: part) ++ ['/'],
        back.flatMap fun part => '/' :: part, ?_⟩
      simp

/-! ## Lower case -/

section

variable [UnicodeTables]

/-- What lower case does to slashes and dots: a slash is neither cased nor
ignored, and no other character becomes one of the two, or nothing. -/
structure LowerLaws : Prop where
  ignorable : UnicodeTables.caseIgnorable '/' = false
  cased : UnicodeTables.cased '/' = false
  lower : ∀ char, 128 ≤ char.toNat → UnicodeTables.lower char ≠ [] ∧
    '/' ∉ UnicodeTables.lower char ∧ '.' ∉ UnicodeTables.lower char

variable {before behind rest part : Str} {char : Char}

theorem LowerLaws.thenCased_append (laws : LowerLaws) :
    caseIgnorableThenCased (text ++ '/' :: rest) =
      caseIgnorableThenCased text := by
  induction text with
  | nil => simp [caseIgnorableThenCased, laws.ignorable, laws.cased]
  | cons char text induction =>
      rw [caseIgnorableThenCased, caseIgnorableThenCased] at induction ⊢
      cases ignored : UnicodeTables.caseIgnorable char with
      | true => simpa [ignored] using induction
      | false => simp [ignored]

theorem LowerLaws.lowerFrom_before (laws : LowerLaws) :
    lowerFrom (before ++ '/' :: rest) text = lowerFrom before text := by
  induction text generalizing before with
  | nil => rfl
  | cons char text induction =>
      rw [lowerFrom, lowerFrom, lowerChar, laws.thenCased_append,
        ← List.cons_append, induction, ← lowerChar]

theorem LowerLaws.lowerFrom_append (laws : LowerLaws) :
    lowerFrom before (text ++ '/' :: rest) =
      lowerFrom before text ++ '/' :: toLowercase rest := by
  induction text generalizing before with
  | nil =>
      have slash : lowerChar before '/' rest = ['/'] := rfl
      have later : lowerFrom ([] ++ '/' :: before) rest = lowerFrom [] rest :=
        laws.lowerFrom_before
      rw [List.nil_append] at later
      simp only [List.nil_append, lowerFrom, slash, later, toLowercase,
        List.singleton_append]
  | cons char text induction =>
      rw [List.cons_append, lowerFrom, lowerFrom, lowerChar,
        laws.thenCased_append, induction, ← lowerChar, List.append_assoc]

/-- Lower case is taken part by part. -/
theorem LowerLaws.toLowercase_intercalate (laws : LowerLaws) (first : Str)
    (later : List Str) :
    toLowercase (['/'].intercalate (first :: later)) =
      ['/'].intercalate ((first :: later).map toLowercase) := by
  induction later generalizing first with
  | nil => simp
  | cons next later induction =>
      rw [List.intercalate_cons_cons, List.append_assoc, List.singleton_append,
        toLowercase, laws.lowerFrom_append, induction]
      simp [toLowercase]

omit [UnicodeTables] in
/-- A letter has a letter for its lower case. -/
theorem toAsciiLower_eq_iff {mark : Char} (isMark : mark = '/' ∨ mark = '.') :
    toAsciiLower char = mark ↔ char = mark := by
  unfold toAsciiLower
  split_ifs with upper
  · have low : 65 ≤ char.toNat := upper.1
    have high : char.toNat ≤ 90 := upper.2
    have letters : ∀ offset : Fin 26, Char.ofNat (65 + offset + 32) ≠ '/' ∧
        Char.ofNat (65 + offset + 32) ≠ '.' := by
      decide
    have letter := letters ⟨char.toNat - 65, by omega⟩
    simp only [Nat.add_sub_of_le low] at letter
    rcases isMark with rfl | rfl
    · apply iff_of_false letter.1
      rintro rfl
      exact absurd low (by decide)
    · apply iff_of_false letter.2
      rintro rfl
      exact absurd low (by decide)
  · rfl

/-- No other character has a mark in its lower case, and none has nothing. -/
theorem LowerLaws.lowerChar_cases (laws : LowerLaws) (before : Str)
    (char : Char) (behind : Str) :
    (char = '/' ∨ char = '.') ∧ lowerChar before char behind = [char] ∨
      char ≠ '/' ∧ char ≠ '.' ∧
        '/' ∉ lowerChar before char behind ∧
        '.' ∉ lowerChar before char behind ∧
        lowerChar before char behind ≠ [] := by
  by_cases mark : char = '/' ∨ char = '.'
  · left
    refine ⟨mark, ?_⟩
    rcases mark with rfl | rfl <;> rfl
  · right
    obtain ⟨noSlash, noDot⟩ := not_or.mp mark
    refine ⟨noSlash, noDot, ?_⟩
    rw [lowerChar]
    split_ifs with ascii sigma
    · have slash := mt (toAsciiLower_eq_iff (.inl rfl)).mp noSlash
      have dot := mt (toAsciiLower_eq_iff (.inr rfl)).mp noDot
      simp [Ne.symm slash, Ne.symm dot]
    · decide
    · decide
    · obtain ⟨some, slash, dot⟩ := laws.lower char (Nat.not_lt.mp ascii)
      exact ⟨slash, dot, some⟩

theorem LowerLaws.slash_notMem (laws : LowerLaws) (noSlash : '/' ∉ text) :
    '/' ∉ lowerFrom before text := by
  induction text generalizing before with
  | nil => exact List.not_mem_nil
  | cons char text induction =>
      obtain ⟨different, later⟩ := not_or.mp (mt List.mem_cons.mpr noSlash)
      rw [lowerFrom, List.mem_append, not_or]
      refine ⟨?_, induction later⟩
      rcases laws.lowerChar_cases before char text with
        ⟨-, same⟩ | ⟨-, -, free, -⟩
      · rw [same]
        simpa using different
      · exact free

/-- Only dots have dots for their lower case. -/
theorem LowerLaws.lowerFrom_eq_dots_iff (laws : LowerLaws) (count : Nat) :
    lowerFrom before text = List.replicate count '.' ↔
      text = List.replicate count '.' := by
  induction text generalizing before count with
  | nil => rfl
  | cons char text induction =>
      rw [lowerFrom]
      rcases laws.lowerChar_cases before char text with
        ⟨-, same⟩ | ⟨-, noDot, -, free, some⟩
      · rw [same, List.singleton_append]
        cases count with
        | zero => simp
        | succ count =>
            rw [List.replicate_succ, List.cons.injEq, List.cons.injEq,
              induction]
      · apply iff_of_false
        · intro dots
          obtain ⟨first, more, lowered⟩ := List.exists_cons_of_ne_nil some
          rw [lowered] at dots free
          have inside : first ∈ List.replicate count '.' := by
            rw [← dots]
            exact List.mem_cons_self
          apply free
          rw [← List.eq_of_mem_replicate inside]
          exact List.mem_cons_self
        · intro dots
          have inside : char ∈ List.replicate count '.' := by
            rw [← dots]
            exact List.mem_cons_self
          exact noDot (List.eq_of_mem_replicate inside)

theorem LowerLaws.splitOn_toLowercase (laws : LowerLaws) (text : Str) :
    (toLowercase text).splitOn '/' = (text.splitOn '/').map toLowercase := by
  have joined : ['/'].intercalate (text.splitOn '/') = text :=
    List.intercalate_splitOn '/'
  cases parts : text.splitOn '/' with
  | nil => exact absurd parts (List.splitOn_ne_nil '/' text)
  | cons first later =>
      rw [parts] at joined
      rw [← joined, laws.toLowercase_intercalate]
      apply List.splitOn_intercalate
      · intro part member
        obtain ⟨original, inside, rfl⟩ := List.mem_map.mp member
        apply laws.slash_notMem
        rw [← parts] at inside
        exact notMem_of_mem_splitOn inside
      · simp

def Segment.lower : Segment → Segment
  | .current => .current
  | .parent => .parent
  | .name name => .name (toLowercase name)

theorem LowerLaws.ofPart_toLowercase (laws : LowerLaws) (part : Str) :
    Segment.ofPart (toLowercase part) =
      (Segment.ofPart part).map Segment.lower := by
  have empty : toLowercase part = [] ↔ part = [] :=
    laws.lowerFrom_eq_dots_iff 0
  have dot : toLowercase part = ['.'] ↔ part = ['.'] :=
    laws.lowerFrom_eq_dots_iff 1
  have dots : toLowercase part = ['.', '.'] ↔ part = ['.', '.'] :=
    laws.lowerFrom_eq_dots_iff 2
  simp only [Segment.ofPart, empty, dot, dots]
  split_ifs <;> rfl

theorem LowerLaws.inside_toLowercase (laws : LowerLaws) (text : Str) :
    Segment.inside (toLowercase text) =
      (Segment.inside text).map Segment.lower := by
  rw [Segment.inside, Segment.inside, laws.splitOn_toLowercase,
    List.filterMap_map, List.map_filterMap]
  apply List.filterMap_congr
  intro part _
  exact laws.ofPart_toLowercase part

theorem lastStep_lower (segments : List Segment) :
    lastStep (segments.map Segment.lower) =
      (lastStep segments).map Segment.lower := by
  have kept : ∀ segment : Segment,
      decide (segment.lower ≠ .current) = decide (segment ≠ .current) := by
    intro segment
    cases segment <;> simp [Segment.lower]
  rw [lastStep, lastStep, List.filter_map, List.getLast?_map]
  congr 2
  apply List.filter_congr
  intro segment _
  exact kept segment

end

end TrustLayer.Library.Pathname
