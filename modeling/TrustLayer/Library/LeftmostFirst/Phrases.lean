import TrustLayer.Library.LeftmostFirst.Hits

/-!
# Phrases

A phrase is made of words and of gaps between them.  What a part of a phrase
begins with tells it from the other parts at its place, so that there is one way
to match; and no word inside a phrase begins another one.
-/

namespace TrustLayer.Library

open WordClass (isWord)

namespace Regex

/-! ## What a text begins with -/

/-- White space or a hyphen. -/
def isGap (char : Char) : Bool :=
  isWhitespace char || char == '-'

def isLower (char : Char) : Bool :=
  'a' ≤ char && char ≤ 'z'

/-- A kind of character: a letter of either case, or a gap. -/
inductive Kind where
  | letter (char : Char)
  | gap
deriving DecidableEq

namespace Kind

def accepts : Kind → Char → Bool
  | .letter base, char => foldCase char == base
  | .gap, char => isGap char

/-- No character is of both kinds. -/
def clash : Kind → Kind → Bool
  | .letter first, .letter second => first != second
  | .letter base, .gap | .gap, .letter base => isLower base
  | .gap, .gap => false

end Kind

/-- The text begins with characters of the kinds. -/
def opens : List Kind → Str → Bool
  | [], _ => true
  | _ :: _, [] => false
  | kind :: kinds, char :: text => kind.accepts char && opens kinds text

/-- No text begins with both. -/
def apart : List Kind → List Kind → Bool
  | first :: others, second :: others' => first.clash second || apart others others'
  | _, _ => false

def letters (word : Str) : List Kind :=
  word.map .letter

/-- Lower-case letters, at least one of them. -/
def isPlain (word : Str) : Bool :=
  !word.isEmpty && word.all isLower

/-! ## Characters -/

theorem isLower_iff {char : Char} :
    isLower char = true ↔ 97 ≤ char.toNat ∧ char.toNat ≤ 122 := by
  rw [isLower, Bool.and_eq_true, decide_eq_true_eq, decide_eq_true_eq]
  rfl

theorem gap_code {char : Char} (gap : isGap char = true) :
    char.toNat ≤ 64 ∨ 133 ≤ char.toNat ∧ char.toNat ≠ 383 ∧
      char.toNat ≠ 8490 := by
  rw [isGap, Bool.or_eq_true] at gap
  rcases gap with space | hyphen
  · simp only [isWhitespace, Bool.or_eq_true, Bool.and_eq_true,
      decide_eq_true_eq, beq_iff_eq] at space
    omega
  · rw [beq_iff_eq] at hyphen
    subst hyphen
    decide

/-- A gap is no letter. -/
theorem isLower_foldCase_of_isGap {char : Char} (gap : isGap char = true) :
    isLower (foldCase char) = false := by
  have code := gap_code gap
  rw [← Bool.not_eq_true, isLower_iff]
  have notLong : char ≠ 'ſ' := by
    rintro rfl
    revert code
    decide
  have notKelvin : char ≠ '\u212A' := by
    rintro rfl
    revert code
    decide
  rw [foldCase, if_neg notLong, if_neg notKelvin]
  rcases toAsciiLower_cases char with same | ⟨low, high, -⟩
  · rw [same]
    omega
  · omega

/-- A letter is part of a word. -/
theorem isWord_of_isLower [CharTables] {char : Char}
    (lower : isLower (foldCase char) = true) : isWord char = true := by
  rw [foldCase] at lower
  split_ifs at lower with long kelvin
  · rw [long]
    exact CharTables.isWord_folded.1
  · rw [kelvin]
    exact CharTables.isWord_folded.2
  · rw [isLower_iff] at lower
    have ascii : char.toNat < 128 := by
      rcases toAsciiLower_cases char with same | ⟨-, high, -⟩
      · rw [same] at lower
        omega
      · omega
    have letter : isAsciiAlphabetic char = true := by
      rw [isAsciiAlphabetic, Bool.or_eq_true, Bool.and_eq_true,
        Bool.and_eq_true]
      simp only [decide_eq_true_eq]
      rcases toAsciiLower_cases char with same | ⟨low, high, -⟩
      · rw [same] at lower
        exact .inl lower
      · exact .inr ⟨low, high⟩
    rw [CharTables.isWord_ascii char ascii, isAsciiAlphanumeric, letter]
    rfl

theorem clash_sound {first second : Kind} {char : Char}
    (here : first.accepts char = true) (there : second.accepts char = true) :
    first.clash second = false := by
  cases first with
  | letter first =>
      have same : foldCase char = first := beq_iff_eq.mp here
      cases second with
      | letter second =>
          have same' : foldCase char = second := beq_iff_eq.mp there
          rw [Kind.clash, ← same, ← same', bne_self_eq_false]
      | gap =>
          rw [Kind.clash, ← same]
          exact isLower_foldCase_of_isGap there
  | gap =>
      cases second with
      | letter second =>
          have same : foldCase char = second := beq_iff_eq.mp there
          rw [Kind.clash, ← same]
          exact isLower_foldCase_of_isGap here
      | gap => rfl

theorem apart_sound {first second : List Kind} {text : Str}
    (here : opens first text = true) (there : opens second text = true) :
    apart first second = false := by
  induction first generalizing second text with
  | nil => rfl
  | cons kind kinds induction =>
      cases second with
      | nil => rfl
      | cons other others =>
          cases text with
          | nil => cases here
          | cons char text =>
              rw [opens, Bool.and_eq_true] at here there
              rw [apart, clash_sound here.1 there.1, induction here.2 there.2]
              rfl

theorem opens_append {first second : List Kind} {used rest : Str}
    (here : List.Forall₂ (fun kind char => kind.accepts char = true) first used)
    (there : opens second rest = true) :
    opens (first ++ second) (used ++ rest) = true := by
  induction here with
  | nil => exact there
  | cons accepted _ induction =>
      rw [List.cons_append, List.cons_append, opens, accepted, induction]
      rfl

/-- What begins with more also begins with less. -/
theorem opens_prefix {first second : List Kind} {text : Str}
    (less : first <+: second) (here : opens second text = true) :
    opens first text = true := by
  obtain ⟨more, rfl⟩ := less
  induction first generalizing text with
  | nil => cases text <;> rfl
  | cons kind kinds induction =>
      cases text with
      | nil => cases here
      | cons char text =>
          rw [List.cons_append, opens, Bool.and_eq_true] at here
          rw [opens, here.1, induction here.2]
          rfl

/-! ## Parts of a phrase -/

section

variable [WordClass]

/-- A spot where one of the words may begin. -/
def Begins (heads : List Str) (spot : Spot Char) : Prop :=
  spot.behindWord = false ∧
    ∃ head ∈ heads, opens (letters head) spot.rest = true

/-- No text with such an opening begins with one of the words. -/
def clear (heads : List Str) (openings : List (List Kind)) : Bool :=
  heads.all fun head => openings.all fun opening => apart (letters head) opening

/-- A rest of a phrase, with what it may begin with. -/
structure Tidy (heads : List Str) (openings : List (List Kind))
    (pattern : Regex) : Prop where
  opened : ∀ ⦃spot next : Spot Char⦄, next ∈ pattern.ends spot →
    ∃ opening ∈ openings, opens opening spot.rest = true
  unique : Unique pattern
  inner : InnerNot (Begins heads) pattern

variable {heads : List Str} {openings others : List (List Kind)}
  {first second pattern : Regex} {spot next : Spot Char}

omit [WordClass] in
theorem not_begins_of_clear (isClear : clear heads openings = true)
    (opened : ∃ opening ∈ openings, opens opening spot.rest = true) :
    ¬ Begins heads spot := by
  rintro ⟨-, head, inHeads, begins⟩
  obtain ⟨opening, inOpenings, opens⟩ := opened
  have clashes := List.all_eq_true.mp isClear head inHeads
  have clash := List.all_eq_true.mp clashes opening inOpenings
  rw [apart_sound begins opens] at clash
  cases clash

theorem Tidy.of_ends (same : ∀ spot : Spot Char,
    first.ends spot = second.ends spot) (tidy : Tidy heads openings second) :
    Tidy heads openings first := by
  constructor
  · intro spot next member
    rw [same] at member
    exact tidy.opened member
  · intro spot next other member member'
    rw [same] at member member'
    exact tidy.unique member member'
  · intro spot next member
    rw [same] at member
    exact tidy.inner member

theorem Tidy.empty : Tidy heads [[]] .empty := by
  constructor
  · intro spot next _
    exact ⟨[], List.mem_singleton_self _, by cases spot.rest <;> rfl⟩
  · intro spot next other member member'
    rw [List.mem_singleton.mp member, List.mem_singleton.mp member']
  · intro spot next member front rest split nonempty shorter
    rw [List.mem_singleton.mp member, Spot.size, split,
      List.length_append] at shorter
    omega

theorem Tidy.skip (tidy : Tidy heads openings pattern) :
    Tidy heads openings (.seq .empty pattern) := by
  apply tidy.of_ends
  intro spot
  rw [ends, ends, List.flatMap_cons, List.flatMap_nil, List.append_nil]

theorem Tidy.assoc (tidy : Tidy heads openings (.seq first (.seq second pattern))) :
    Tidy heads openings (.seq (.seq first second) pattern) := by
  apply tidy.of_ends
  intro spot
  rw [ends, ends, ends, List.flatMap_assoc]
  rfl

theorem Tidy.alt (onLeft : Tidy heads openings (.seq first pattern))
    (onRight : Tidy heads others (.seq second pattern))
    (apart : openings.all (fun opening => others.all (apart opening)) = true) :
    Tidy heads (openings ++ others) (.seq (.alt first second) pattern) := by
  have same (spot : Spot Char) : ends (.seq (.alt first second) pattern) spot =
      ends (.seq first pattern) spot ++ ends (.seq second pattern) spot :=
    List.flatMap_append
  have never {spot next other : Spot Char}
      (here : next ∈ ends (.seq first pattern) spot)
      (there : other ∈ ends (.seq second pattern) spot) : False := by
    obtain ⟨opening, inOpenings, opens⟩ := onLeft.opened here
    obtain ⟨opening', inOthers, opens'⟩ := onRight.opened there
    have clash := List.all_eq_true.mp (List.all_eq_true.mp apart _ inOpenings) _
      inOthers
    rw [apart_sound opens opens'] at clash
    cases clash
  constructor
  · intro spot next member
    rw [same, List.mem_append] at member
    rcases member with here | there
    · obtain ⟨opening, inOpenings, opens⟩ := onLeft.opened here
      exact ⟨opening, List.mem_append_left _ inOpenings, opens⟩
    · obtain ⟨opening, inOthers, opens⟩ := onRight.opened there
      exact ⟨opening, List.mem_append_right _ inOthers, opens⟩
  · intro spot next other member member'
    rw [same, List.mem_append] at member member'
    rcases member with here | there
    · rcases member' with here' | there'
      · exact onLeft.unique here here'
      · exact (never here there').elim
    · rcases member' with here' | there'
      · exact (never here' there).elim
      · exact onRight.unique there there'
  · intro spot next member
    rw [same, List.mem_append] at member
    rcases member with here | there
    · exact onLeft.inner here
    · exact onRight.inner there

/-! ## One part behind another -/

/-- A part that is matched in one way. -/
theorem Unique.seq (unique : Unique pattern)
    (same : ∀ ⦃spot middle other next last : Spot Char⦄,
      middle ∈ first.ends spot → next ∈ pattern.ends middle →
      other ∈ first.ends spot → last ∈ pattern.ends other → middle = other) :
    Unique (.seq first pattern) := by
  intro spot next last member member'
  obtain ⟨middle, atMiddle, atEnd⟩ := List.mem_flatMap.mp member
  obtain ⟨other, atOther, atEnd'⟩ := List.mem_flatMap.mp member'
  rw [← same atMiddle atEnd atOther atEnd'] at atEnd'
  exact unique atEnd atEnd'

/-- The spots inside the first part and at its end. -/
theorem InnerNot.seq {property : Spot Char → Prop}
    (inner : InnerNot property pattern)
    (within : ∀ ⦃spot middle next : Spot Char⦄, middle ∈ first.ends spot →
      next ∈ pattern.ends middle → ∀ front more, spot.rest =
        front ++ (more ++ middle.rest) → front ≠ [] →
        ¬ property (spotBehind spot.behindWord front (more ++ middle.rest))) :
    InnerNot property (.seq first pattern) := by
  intro spot next member front rest split nonempty shorter
  obtain ⟨middle, atMiddle, atEnd⟩ := List.mem_flatMap.mp member
  obtain ⟨used, whole, here⟩ := eq_spotBehind_of_mem_ends atMiddle
  rcases List.append_eq_append_iff.mp (split.symm.trans whole) with
    ⟨more, -, rfl⟩ | ⟨more, same, tail⟩
  · exact within atMiddle atEnd front more split nonempty
  · cases more with
    | nil =>
        obtain rfl : middle.rest = rest := tail
        exact within atMiddle atEnd front [] split nonempty
    | cons item more =>
        subst same
        have later := inner atEnd _ _ tail (List.cons_ne_nil _ _) shorter
        rw [here] at later
        rw [spotBehind_append]
        exact later

/-! ## Words and gaps -/

/-- A literal consumes characters that fold into it. -/
theorem mem_ends_caseless {text : String}
    (member : next ∈ (caseless text).ends spot) :
    ∃ used, used.map foldCase = text.toList ∧ spot.rest = used ++ next.rest ∧
      next = spotBehind spot.behindWord used next.rest := by
  have tests : caseless text = all ((text.toList.map fun char other =>
      foldCase other == char).map .single) := by
    rw [List.map_map]
    rfl
  rw [tests, mem_ends_singles_iff] at member
  obtain ⟨used, each, split, here⟩ := member
  refine ⟨used, ?_, split, here⟩
  rw [List.forall₂_map_left_iff] at each
  clear split here tests
  generalize text.toList = word at each
  induction each with
  | nil => rfl
  | cons folds _ induction =>
      rw [List.map_cons, induction, beq_iff_eq.mp folds]

/-- A repeated part of one character consumes such characters. -/
theorem mem_ends_plus {accepts : Char → Bool}
    (member : next ∈ (plus (.single accepts)).ends spot) :
    ∃ used, used ≠ [] ∧ (∀ char ∈ used, accepts char = true) ∧
      spot.rest = used ++ next.rest ∧
      next = spotBehind spot.behindWord used next.rest := by
  obtain ⟨used, split, here⟩ := eq_spotBehind_of_mem_ends member
  obtain ⟨used', split', accepted⟩ := mem_ends member
  obtain rfl : used' = used := List.append_cancel_right (split'.symm.trans split)
  refine ⟨used', ?_, ?_, split, here⟩
  · rintro rfl
    have consuming : Consuming (plus (.single accepts)) :=
      consuming_of_nullable rfl
    have shorter := consuming member
    rw [Spot.size, Spot.size, split] at shorter
    exact absurd shorter (Nat.lt_irrefl _)
  · intro char inside
    by_contra refused
    have rejects : accepts char = false := Bool.eq_false_iff.mpr refused
    exact accepted char inside ⟨rejects, rejects⟩

omit [WordClass] in
theorem forall₂_letters {used : Str} :
    List.Forall₂ (fun kind char => kind.accepts char = true)
      (letters (used.map foldCase)) used := by
  rw [letters, List.map_map, List.forall₂_map_left_iff, List.forall₂_same]
  intro char _
  exact beq_self_eq_true _

end

section

variable [CharTables]

variable {heads : List Str} {openings others : List (List Kind)}
  {first second pattern : Regex} {spot next : Spot Char}

/-- Behind a letter no word begins. -/
theorem not_begins_behind_letter {front rest : Str} {behindWord : Bool}
    (nonempty : front ≠ []) (lower : ∀ char ∈ front, isLower (foldCase char) = true) :
    ¬ Begins heads (spotBehind behindWord front rest) := by
  rcases List.eq_nil_or_concat front with rfl | ⟨others, last, rfl⟩
  · exact absurd rfl nonempty
  · rintro ⟨notWord, -⟩
    rw [List.concat_eq_append, spotBehind_append] at notWord
    have isWord := isWord_of_isLower (lower last (by simp))
    exact absurd (notWord.symm.trans isWord) Bool.false_ne_true

theorem Tidy.word {text : String} (plain : text.toList.all isLower = true)
    (tidy : Tidy heads openings pattern) :
    Tidy heads (openings.map (letters text.toList ++ ·))
      (.seq (caseless text) pattern) := by
  constructor
  · intro spot next member
    obtain ⟨middle, atMiddle, atEnd⟩ := List.mem_flatMap.mp member
    obtain ⟨used, same, split, -⟩ := mem_ends_caseless atMiddle
    obtain ⟨opening, inOpenings, opened⟩ := tidy.opened atEnd
    refine ⟨_, List.mem_map_of_mem inOpenings, ?_⟩
    rw [split, ← same]
    exact opens_append forall₂_letters opened
  · apply tidy.unique.seq
    intro spot middle other next last atMiddle _ atOther _
    obtain ⟨used, same, split, here⟩ := mem_ends_caseless atMiddle
    obtain ⟨used', same', split', here'⟩ := mem_ends_caseless atOther
    have lengths : used.length = used'.length := by
      rw [← List.length_map foldCase, same, ← same', List.length_map]
    obtain ⟨rfl, rests⟩ := List.append_inj (split.symm.trans split') lengths
    rw [here, here', rests]
  · apply tidy.inner.seq
    intro spot middle next atMiddle _ front more split nonempty
    obtain ⟨used, same, split', -⟩ := mem_ends_caseless atMiddle
    rw [← List.append_assoc] at split
    obtain rfl : front ++ more = used :=
      List.append_cancel_right (split.symm.trans split')
    apply not_begins_behind_letter nonempty
    intro char inside
    have inText : foldCase char ∈ text.toList := by
      rw [← same]
      exact List.mem_map_of_mem (List.mem_append_left _ inside)
    exact List.all_eq_true.mp plain _ inText

omit [CharTables] in
/-- White space begins a gap. -/
theorem opens_gap {used rest : Str} (nonempty : used ≠ [])
    (white : ∀ char ∈ used, isWhitespace char = true) :
    opens [.gap] (used ++ rest) = true := by
  obtain ⟨char, used, rfl⟩ := List.exists_cons_of_ne_nil nonempty
  have gap : isGap char = true :=
    Bool.or_eq_true_iff.mpr (.inl (white char List.mem_cons_self))
  rw [List.cons_append, opens, Kind.accepts, gap]
  cases used ++ rest <;> rfl

/-- What can be told from a gap does not begin with white space. -/
theorem Tidy.stops (tidy : Tidy heads openings pattern)
    (visible : openings.all (apart [.gap]) = true)
    (member : next ∈ pattern.ends spot) :
    Stops (¬ isWhitespace · = true) spot.rest := by
  intro char first white
  obtain ⟨rest, same⟩ := List.head?_eq_some_iff.mp first
  have gap : opens [.gap] spot.rest = true := by
    rw [same]
    exact opens_gap (List.cons_ne_nil char []) (by simpa using white)
  obtain ⟨opening, inOpenings, opened⟩ := tidy.opened member
  have clash := List.all_eq_true.mp visible opening inOpenings
  rw [apart_sound gap opened] at clash
  cases clash

/-- Where white space ends is told by the word behind it. -/
theorem Tidy.space (tidy : Tidy heads openings pattern)
    (visible : openings.all (apart [.gap]) = true)
    (isClear : clear heads openings = true)
    (gapClear : clear heads [[.gap]] = true) :
    Tidy heads [[.gap]] (.seq (plus space) pattern) := by
  constructor
  · intro spot next member
    obtain ⟨middle, atMiddle, -⟩ := List.mem_flatMap.mp member
    obtain ⟨used, nonempty, white, split, -⟩ := mem_ends_plus atMiddle
    refine ⟨_, List.mem_singleton_self _, ?_⟩
    rw [split]
    exact opens_gap nonempty white
  · apply tidy.unique.seq
    intro spot middle other next last atMiddle atEnd atOther atEnd'
    obtain ⟨used, -, white, split, here⟩ := mem_ends_plus atMiddle
    obtain ⟨used', -, white', split', here'⟩ := mem_ends_plus atOther
    obtain ⟨same, rests⟩ := append_inj_of_stops
      (fun char inside => not_not_intro (white char inside))
      (fun char inside => not_not_intro (white' char inside))
      (tidy.stops visible atEnd) (tidy.stops visible atEnd')
      (split.symm.trans split')
    rw [here, here', same, rests]
  · apply tidy.inner.seq
    intro spot middle next atMiddle atEnd front more split nonempty
    obtain ⟨used, -, white, split', -⟩ := mem_ends_plus atMiddle
    rw [← List.append_assoc] at split
    obtain rfl : front ++ more = used :=
      List.append_cancel_right (split.symm.trans split')
    cases more with
    | nil =>
        have opened := tidy.opened atEnd
        exact not_begins_of_clear isClear opened
    | cons char more =>
        apply not_begins_of_clear gapClear
        refine ⟨_, List.mem_singleton_self _, ?_⟩
        exact opens_gap (List.cons_ne_nil _ _) fun char inside =>
          white char (List.mem_append_right _ inside)

/-- One character of a gap. -/
theorem Tidy.gap {accepts : Char → Bool}
    (gaps : ∀ char, accepts char = true → isGap char = true)
    (tidy : Tidy heads openings pattern) (isClear : clear heads openings = true) :
    Tidy heads (openings.map (.gap :: ·)) (.seq (.single accepts) pattern) := by
  constructor
  · intro spot next member
    obtain ⟨middle, atMiddle, atEnd⟩ := List.mem_flatMap.mp member
    obtain ⟨item, split, accepted⟩ := mem_ends_single atMiddle
    obtain ⟨opening, inOpenings, opened⟩ := tidy.opened atEnd
    refine ⟨_, List.mem_map_of_mem inOpenings, ?_⟩
    rw [split, opens, opened]
    exact Bool.and_eq_true_iff.mpr ⟨gaps item accepted, rfl⟩
  · apply tidy.unique.seq
    intro spot middle other next last atMiddle _ atOther _
    obtain ⟨behindWord, rest⟩ := spot
    cases rest with
    | nil => cases atMiddle
    | cons item rest =>
        rw [(mem_ends_single_iff.mp atMiddle).2, (mem_ends_single_iff.mp atOther).2]
  · apply tidy.inner.seq
    intro spot middle next atMiddle atEnd front more split nonempty
    obtain ⟨item, split', -⟩ := mem_ends_single atMiddle
    rw [← List.append_assoc] at split
    have single : front ++ more = [item] :=
      List.append_cancel_right (split.symm.trans split')
    obtain ⟨first, front, rfl⟩ := List.exists_cons_of_ne_nil nonempty
    obtain ⟨-, rests⟩ := List.cons.inj single
    obtain ⟨rfl, rfl⟩ := List.append_eq_nil_iff.mp rests
    have opened := tidy.opened atEnd
    exact not_begins_of_clear isClear opened

end

/-! ## Whole phrases -/

/-- A phrase under `(?i)`: words, `\s+`, `[\s\-]`, and what is made of them. -/
inductive Phrase where
  | word (text : String)
  | space
  | gap
  | empty
  | seq (first second : Phrase)
  | alt (left right : Phrase)

namespace Phrase

def toRegex : Phrase → Regex
  | .word text => caseless text
  | .space => plus Regex.space
  | .gap => .single isGap
  | .empty => .empty
  | .seq first second => .seq first.toRegex second.toRegex
  | .alt left right => .alt left.toRegex right.toRegex

def all (parts : List Phrase) : Phrase :=
  parts.foldr .seq .empty

def oneOf (part : Phrase) (parts : List Phrase) : Phrase :=
  parts.foldl .alt part

def optional (body : Phrase) : Phrase :=
  .alt body .empty

/-- What the phrase begins with in front of what begins so. -/
def openings : Phrase → List (List Kind) → List (List Kind)
  | .word text, behind => behind.map (letters text.toList ++ ·)
  | .space, _ => [[.gap]]
  | .gap, behind => behind.map (.gap :: ·)
  | .empty, behind => behind
  | .seq first second, behind => first.openings (second.openings behind)
  | .alt left right, behind => left.openings behind ++ right.openings behind

/-- The parts can be told from each other, and none begins one of the words. -/
def fits (heads : List Str) : Phrase → List (List Kind) → Bool
  | .word text, _ => text.toList.all isLower
  | .space, behind =>
      behind.all (apart [.gap]) && clear heads behind && clear heads [[.gap]]
  | .gap, behind => clear heads behind
  | .empty, _ => true
  | .seq first second, behind =>
      second.fits heads behind && first.fits heads (second.openings behind)
  | .alt left right, behind =>
      left.fits heads behind && right.fits heads behind &&
        (left.openings behind).all fun opening =>
          (right.openings behind).all (apart opening)

end Phrase

section

variable [CharTables]

variable {heads : List Str} {openings : List (List Kind)}
  {pattern : Regex} {spot next : Spot Char}

theorem Phrase.tidy {phrase : Phrase} (fits : phrase.fits heads openings = true)
    (tidy : Tidy heads openings pattern) :
    Tidy heads (phrase.openings openings) (.seq phrase.toRegex pattern) := by
  induction phrase generalizing openings pattern with
  | word text => exact tidy.word fits
  | space =>
      rw [Phrase.fits, Bool.and_eq_true, Bool.and_eq_true] at fits
      exact tidy.space fits.1.1 fits.1.2 fits.2
  | gap => exact tidy.gap (fun _ => id) fits
  | empty => exact tidy.skip
  | seq first second firstTidy secondTidy =>
      rw [Phrase.fits, Bool.and_eq_true] at fits
      exact (firstTidy fits.2 (secondTidy fits.1 tidy)).assoc
  | alt left right leftTidy rightTidy =>
      rw [Phrase.fits, Bool.and_eq_true, Bool.and_eq_true] at fits
      exact (leftTidy fits.1.1 tidy).alt (rightTidy fits.1.2 tidy) fits.2

omit [CharTables] in
theorem mem_ends_bounded [WordClass]
    (member : next ∈ ends (.seq .wordBoundary pattern) spot) :
    spot.behindWord ≠ spot.beforeWord ∧ next ∈ pattern.ends spot := by
  obtain ⟨middle, atMiddle, atEnd⟩ := List.mem_flatMap.mp member
  rw [ends] at atMiddle
  split at atMiddle
  · case isTrue boundary =>
      rw [List.mem_singleton.mp atMiddle] at atEnd
      exact ⟨bne_iff_ne.mp boundary, atEnd⟩
  · cases atMiddle

/-- Every phrase begins with one of the words. -/
def headed (heads : List Str) (openings : List (List Kind)) : Bool :=
  openings.all fun opening => heads.any fun head =>
    isPlain head && (letters head).isPrefixOf opening

theorem begins_of_headed (isHeaded : headed heads openings = true)
    (boundary : spot.behindWord ≠ spot.beforeWord)
    (opened : ∃ opening ∈ openings, opens opening spot.rest = true) :
    Begins heads spot := by
  obtain ⟨opening, inOpenings, opens⟩ := opened
  obtain ⟨head, inHeads, here⟩ := List.any_eq_true.mp
    (List.all_eq_true.mp isHeaded opening inOpenings)
  obtain ⟨plain, less⟩ := Bool.and_eq_true_iff.mp here
  have begins := opens_prefix (List.isPrefixOf_iff_prefix.mp less) opens
  refine ⟨?_, head, inHeads, begins⟩
  obtain ⟨behindWord, rest⟩ := spot
  cases head with
  | nil => cases plain
  | cons char word =>
      cases rest with
      | nil => cases begins
      | cons item rest =>
          have folds : foldCase item = char :=
            beq_iff_eq.mp (Bool.and_eq_true_iff.mp begins).1
          have lower : isLower char = true :=
            (Bool.and_eq_true_iff.mp (Bool.and_eq_true_iff.mp plain).2).1
          rw [← folds] at lower
          have before : (⟨behindWord, item :: rest⟩ : Spot Char).beforeWord =
              true := isWord_of_isLower lower
          rw [before] at boundary
          exact Bool.not_eq_true _ ▸ boundary

/-- No phrase lies inside another. -/
theorem Tidy.separate (tidy : Tidy heads openings pattern)
    (isHeaded : headed heads openings = true)
    (never : pattern.nullable = false) :
    Separate (.seq .wordBoundary pattern) := by
  constructor
  · apply consuming_of_nullable
    rw [nullable, never]
    rfl
  · intro spot next other member member'
    exact tidy.unique (mem_ends_bounded member).2 (mem_ends_bounded member').2
  · intro spot next member front rest split nonempty shorter found
    obtain ⟨last, again⟩ := List.exists_mem_of_ne_nil _ found
    obtain ⟨boundary, atEnd⟩ := mem_ends_bounded again
    have begins := begins_of_headed isHeaded boundary (tidy.opened atEnd)
    exact tidy.inner (mem_ends_bounded member).2 front rest split nonempty
      shorter begins

/-- All of it is checked on the phrase alone. -/
theorem Phrase.separate {phrase : Phrase} (fits : phrase.fits heads [[]] = true)
    (isHeaded : headed heads (phrase.openings [[]]) = true)
    (never : phrase.toRegex.nullable = false) :
    Separate (.seq .wordBoundary phrase.toRegex) := by
  have tidy : Tidy heads (phrase.openings [[]]) phrase.toRegex := by
    apply (Phrase.tidy fits .empty).of_ends
    intro spot
    exact (List.flatMap_singleton' _).symm
  exact tidy.separate isHeaded never

end

end Regex

end TrustLayer.Library
