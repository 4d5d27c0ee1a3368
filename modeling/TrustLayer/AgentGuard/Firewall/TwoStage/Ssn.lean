import Mathlib.Tactic.IntervalCases
import TrustLayer.AgentGuard.Firewall.TwoStage

/-!
# Social security numbers

A number has a fixed shape, and no number begins inside another.  The checks of
the second stage say of its groups what the rule asks for ahead of them.
-/

namespace TrustLayer.AgentGuard.Firewall

open TrustLayer.Library
open CharTables (isDigit)
open Regex
open WordClass (isWord)

section

variable [CharTables] {spot next : Spot Char} {behindWord : Bool}

/-! ## Parts of the patterns -/

theorem mem_ends_wordBoundary : next ∈ ends .wordBoundary spot ↔
    next = spot ∧ spot.behindWord ≠ spot.beforeWord := by
  rw [ends]
  split
  · case isTrue boundary =>
      rw [List.mem_singleton]
      exact (and_iff_left (bne_iff_ne.mp boundary)).symm
  · case isFalse inside =>
      constructor
      · intro nothing
        cases nothing
      · rintro ⟨-, boundary⟩
        exact absurd (bne_iff_ne.mpr boundary) inside

theorem mem_ends_digits {count : Nat} :
    next ∈ (digits count).ends spot ↔
      ∃ used, used.length = count ∧ (∀ char ∈ used, isDigit char = true) ∧
        spot.rest = used ++ next.rest ∧
        next = spotBehind spot.behindWord used next.rest := by
  have singles : (digits count).ends spot =
      (all ((List.replicate count isDigit).map .single)).ends spot := by
    rw [digits, between, Nat.sub_self, List.map_replicate]
    exact List.flatMap_singleton' _
  rw [singles, mem_ends_singles_iff]
  apply exists_congr
  intro used
  rw [← and_assoc (a := _ = count)]
  apply and_congr_left'
  constructor
  · intro accepted
    have same := accepted.length_eq
    rw [List.length_replicate] at same
    refine ⟨same.symm, fun char inside => ?_⟩
    obtain ⟨place, bound, rfl⟩ := List.mem_iff_getElem.mp inside
    have holds := accepted.get (by rw [List.length_replicate, same]; exact bound)
      bound
    simpa using holds
  · intro ⟨same, accepted⟩
    have lengths : (List.replicate count isDigit).length = used.length := by
      rw [List.length_replicate, same]
    refine List.forall₂_iff_get.mpr ⟨lengths, fun place _ bound => ?_⟩
    simpa using accepted _ (List.getElem_mem bound)

theorem mem_ends_hyphen (member : next ∈ hyphen.ends spot) :
    spot.rest = '-' :: next.rest := by
  obtain ⟨item, split, accepted⟩ := mem_ends_single member
  obtain rfl : item = '-' := beq_iff_eq.mp accepted
  exact split

/-- A literal in front of as many characters. -/
theorem ends_exactly_eq_nil {text : String} {used rest : Str}
    (same : used.length = text.toList.length) :
    (exactly text).ends (⟨behindWord, used ++ rest⟩ : Spot Char) = [] ↔
      used ≠ text.toList := by
  have literal {found : Str} : List.Forall₂ (fun test char => test char = true)
      (text.toList.map fun char other => other == char) found ↔
        text.toList = found := by
    have equal : (fun char other : Char => (other == char) = true) = Eq := by
      funext char other
      exact propext (beq_iff_eq.trans eq_comm)
    rw [List.forall₂_map_left_iff, equal, List.forall₂_eq_eq_eq]
  apply not_iff_not.mp
  rw [not_not]
  constructor
  · intro found
    obtain ⟨next, member⟩ := List.exists_mem_of_ne_nil _ found
    obtain ⟨found, each, split, -⟩ := mem_ends_singles_iff.mp member
    rw [literal] at each
    subst each
    exact (List.append_inj split same).1
  · intro literally
    apply List.ne_nil_of_mem (a := spotBehind behindWord used rest)
    apply mem_ends_singles_iff.mpr
    exact ⟨used, literal.mpr literally.symm, rfl, rfl⟩

/-! ## Numbers -/

/-- The spots between the groups of a number. -/
structure Number (spot area group group' serial serial' next : Spot Char) :
    Prop where
  starts : spot.behindWord ≠ spot.beforeWord
  inArea : area ∈ (digits 3).ends spot
  toGroup : group ∈ hyphen.ends area
  inGroup : group' ∈ (digits 2).ends group
  toSerial : serial ∈ hyphen.ends group'
  inSerial : serial' ∈ (digits 4).ends serial
  stops : next = serial' ∧ serial'.behindWord ≠ serial'.beforeWord

theorem mem_ends_ssnBroad : next ∈ ssnBroad.ends spot ↔
    ∃ area group group' serial serial',
      Number spot area group group' serial serial' next := by
  constructor
  · intro member
    obtain ⟨_, start, member⟩ := List.mem_flatMap.mp member
    obtain ⟨here, starts⟩ := mem_ends_wordBoundary.mp start
    rw [here] at member
    obtain ⟨area, inArea, member⟩ := List.mem_flatMap.mp member
    obtain ⟨group, inGroup, member⟩ := List.mem_flatMap.mp member
    obtain ⟨group', inGroup', member⟩ := List.mem_flatMap.mp member
    obtain ⟨serial, inSerial, member⟩ := List.mem_flatMap.mp member
    obtain ⟨serial', inSerial', member⟩ := List.mem_flatMap.mp member
    obtain ⟨last, ended, member⟩ := List.mem_flatMap.mp member
    obtain rfl := List.mem_singleton.mp member
    exact ⟨area, group, group', serial, serial', starts, inArea, inGroup,
      inGroup', inSerial, inSerial', mem_ends_wordBoundary.mp ended⟩
  · intro ⟨area, group, group', serial, serial', number⟩
    refine List.mem_flatMap.mpr
      ⟨spot, mem_ends_wordBoundary.mpr ⟨rfl, number.starts⟩, ?_⟩
    refine List.mem_flatMap.mpr ⟨area, number.inArea, ?_⟩
    refine List.mem_flatMap.mpr ⟨group, number.toGroup, ?_⟩
    refine List.mem_flatMap.mpr ⟨group', number.inGroup, ?_⟩
    refine List.mem_flatMap.mpr ⟨serial, number.toSerial, ?_⟩
    refine List.mem_flatMap.mpr ⟨serial', number.inSerial, ?_⟩
    exact List.mem_flatMap.mpr ⟨next, mem_ends_wordBoundary.mpr number.stops,
      List.mem_singleton_self _⟩

/-- What the rule asks for ahead of the area. -/
def noArea : Regex :=
  oneOf (exactly "000") [exactly "666", all [exactly "9", digits 2]]

theorem itemEnds_ssnRule : itemEnds ssnRule spot ≠ [] ↔
    ∃ area group group' serial serial' next,
      Number spot area group group' serial serial' next ∧
        noArea.ends spot = [] ∧ (exactly "00").ends group = [] ∧
        (exactly "0000").ends serial = [] := by
  simp only [ssnRule, itemEnds_part_ne_nil, itemEnds_notAhead_ne_nil]
  constructor
  · intro ⟨_, start, noArea, area, inArea, group, inGroup, noGroup, group',
      inGroup', serial, inSerial, noSerial, serial', inSerial', next, ended, _⟩
    obtain ⟨rfl, starts⟩ := mem_ends_wordBoundary.mp start
    exact ⟨area, group, group', serial, serial', next,
      ⟨starts, inArea, inGroup, inGroup', inSerial, inSerial',
        mem_ends_wordBoundary.mp ended⟩, noArea, noGroup, noSerial⟩
  · intro ⟨area, group, group', serial, serial', next, number, noArea, noGroup,
      noSerial⟩
    exact ⟨spot, mem_ends_wordBoundary.mpr ⟨rfl, number.starts⟩, noArea, area,
      number.inArea, group, number.toGroup, noGroup, group', number.inGroup, serial,
      number.toSerial, noSerial, serial', number.inSerial, next,
      mem_ends_wordBoundary.mpr number.stops, List.cons_ne_nil _ _⟩

/-! ## The groups of a number -/

/-- The groups of a text, each character of them a digit. -/
structure Groups (area group serial : Str) : Prop where
  three : area.length = 3
  two : group.length = 2
  four : serial.length = 4
  digits : ∀ char ∈ area ++ (group ++ serial), isDigit char = true

/-- A number as it is written. -/
def written (area group serial : Str) : Str :=
  area ++ '-' :: (group ++ '-' :: serial)

theorem Number.groups {area group group' serial serial' : Spot Char}
    (number : Number spot area group group' serial serial' next) :
    ∃ areaText groupText serialText, Groups areaText groupText serialText ∧
      spot.rest = areaText ++ area.rest ∧
      group.rest = groupText ++ group'.rest ∧
      serial.rest = serialText ++ next.rest ∧
      spot.rest = written areaText groupText serialText ++ next.rest := by
  obtain ⟨areaText, three, inArea, front, -⟩ := mem_ends_digits.mp number.inArea
  obtain ⟨groupText, two, inGroup, middle, -⟩ := mem_ends_digits.mp number.inGroup
  obtain ⟨serialText, four, inSerial, back, -⟩ := mem_ends_digits.mp number.inSerial
  have same := number.stops.1
  subst same
  refine ⟨areaText, groupText, serialText, ⟨three, two, four, ?_⟩, front, middle,
    back, ?_⟩
  · intro char inside
    rcases List.mem_append.mp inside with here | inside
    · exact inArea char here
    · rcases List.mem_append.mp inside with here | here
      · exact inGroup char here
      · exact inSerial char here
  · rw [front, mem_ends_hyphen number.toGroup, middle,
      mem_ends_hyphen number.toSerial, back, written]
    simp

theorem ends_noArea_eq_nil {area rest : Str} (three : area.length = 3)
    (accepted : ∀ char ∈ area, isDigit char = true) :
    noArea.ends (⟨behindWord, area ++ rest⟩ : Spot Char) = [] ↔
      area ≠ "000".toList ∧ area ≠ "666".toList ∧ area.head? ≠ some '9' := by
  have nine : ends (all [exactly "9", digits 2])
      (⟨behindWord, area ++ rest⟩ : Spot Char) = [] ↔ area.head? ≠ some '9' := by
    obtain ⟨first, second, third, rfl⟩ := List.length_eq_three.mp three
    have literal : (exactly "9").ends
        (⟨behindWord, [first] ++ second :: third :: rest⟩ : Spot Char) = [] ↔
          [first] ≠ "9".toList :=
      ends_exactly_eq_nil rfl
    constructor
    · intro none same
      cases same
      have nine := mt literal.mp (not_not_intro rfl)
      obtain ⟨middle, atNine⟩ := List.exists_mem_of_ne_nil _ nine
      obtain ⟨used, each, split, here⟩ := mem_ends_singles_iff.mp atNine
      have single := each.length_eq
      obtain ⟨-, back⟩ := List.append_inj split single
      have two : spotBehind middle.behindWord [second, third] rest ∈
          (digits 2).ends middle := by
        refine mem_ends_digits.mpr ⟨[second, third], rfl, ?_, back.symm, rfl⟩
        intro char inside
        exact accepted char (List.mem_cons_of_mem _ inside)
      have found : spotBehind middle.behindWord [second, third] rest ∈
          ends (all [exactly "9", digits 2]) (⟨behindWord, '9' :: second ::
            third :: rest⟩ : Spot Char) :=
        List.mem_flatMap.mpr ⟨middle, atNine, List.mem_flatMap.mpr
          ⟨_, two, List.mem_singleton_self _⟩⟩
      exact List.ne_nil_of_mem found none
    · intro other
      have refused : [first] ≠ "9".toList := by
        rintro ⟨⟩
        exact other rfl
      exact (congrArg (List.flatMap _) (literal.mpr refused)).trans rfl
  have zeros : (exactly "000").ends (⟨behindWord, area ++ rest⟩ : Spot Char) =
      [] ↔ area ≠ "000".toList :=
    ends_exactly_eq_nil three
  have sixes : (exactly "666").ends (⟨behindWord, area ++ rest⟩ : Spot Char) =
      [] ↔ area ≠ "666".toList :=
    ends_exactly_eq_nil three
  have parts : noArea = .alt (.alt (exactly "000") (exactly "666"))
      (all [exactly "9", digits 2]) :=
    rfl
  rw [parts, ends, ends, List.append_eq_nil_iff, List.append_eq_nil_iff, zeros,
    sixes, nine, and_assoc]

/-- The second stage asks for what the rule does. -/
theorem ssnChecked_written {area group serial : Str}
    (groups : Groups area group serial) :
    ssnChecked (written area group serial) = true ↔
      (area ≠ "000".toList ∧ area ≠ "666".toList ∧ area.head? ≠ some '9') ∧
        group ≠ "00".toList ∧ serial ≠ "0000".toList := by
  obtain ⟨three, two, -, -⟩ := groups
  have inArea : (written area group serial).take 3 = area := by
    rw [written, ← three, List.take_left]
  have behind : (written area group serial).drop 4 = group ++ '-' :: serial := by
    rw [written, List.drop_append, List.drop_of_length_le (by omega), three]
    rfl
  have inGroup : ((written area group serial).drop 4).take 2 = group := by
    rw [behind, ← two, List.take_left]
  have inSerial : (written area group serial).drop 7 = serial := by
    rw [← List.drop_drop (i := 3) (j := 4), behind, List.drop_append,
      List.drop_of_length_le (by omega), two]
    rfl
  rw [ssnChecked, inArea, inGroup, inSerial]
  simp [and_assoc]

theorem Number.checked_iff {area group group' serial serial' : Spot Char}
    {matched : Str} (number : Number spot area group group' serial serial' next)
    (split : spot.rest = matched ++ next.rest) :
    ssnChecked matched = true ↔
      noArea.ends spot = [] ∧ (exactly "00").ends group = [] ∧
        (exactly "0000").ends serial = [] := by
  obtain ⟨areaText, groupText, serialText, groups, front, middle, back, whole⟩ :=
    number.groups
  obtain rfl : matched = written areaText groupText serialText :=
    List.append_cancel_right (split.symm.trans whole)
  rw [ssnChecked_written groups]
  refine and_congr (Iff.symm ?_) (and_congr (Iff.symm ?_) (Iff.symm ?_))
  · rw [show spot = ⟨spot.behindWord, areaText ++ area.rest⟩ by rw [← front]]
    apply ends_noArea_eq_nil groups.three
    exact fun char inside => groups.digits char (List.mem_append_left _ inside)
  · rw [show group = ⟨group.behindWord, groupText ++ group'.rest⟩ by rw [← middle]]
    exact ends_exactly_eq_nil groups.two
  · rw [show serial = ⟨serial.behindWord, serialText ++ next.rest⟩ by rw [← back]]
    exact ends_exactly_eq_nil groups.four

/-! ## What the scan finds -/

theorem used_of_mem_ends_ssnBroad (member : next ∈ ssnBroad.ends spot) :
    ∃ area group serial, Groups area group serial ∧
      spot.rest = written area group serial ++ next.rest ∧
      next = spotBehind spot.behindWord (written area group serial)
        next.rest := by
  obtain ⟨_, _, _, _, _, number⟩ := mem_ends_ssnBroad.mp member
  obtain ⟨area, group, serial, groups, -, -, -, split⟩ := number.groups
  obtain ⟨used, split', here⟩ := eq_spotBehind_of_mem_ends member
  obtain rfl : used = written area group serial :=
    List.append_cancel_right (split'.symm.trans split)
  exact ⟨area, group, serial, groups, split, here⟩

omit [CharTables] in
theorem length_written {area group serial : Str} :
    (written area group serial).length =
      area.length + (group.length + (serial.length + 1) + 1) := by
  simp [written]

theorem not_isDigit_hyphen : isDigit '-' = false := by
  rw [CharTables.isDigit_ascii '-' (by decide)]
  decide

/-- The characters of a number are digits, but for two. -/
theorem Groups.isDigit_iff {area group serial : Str}
    (groups : Groups area group serial) (behind : Str) {place : Nat}
    (inside : place < 11) :
    ∃ char, (written area group serial ++ behind)[place]? = some char ∧
      (isDigit char = true ↔ place ≠ 3 ∧ place ≠ 6) := by
  obtain ⟨three, two, four, digits⟩ := groups
  obtain ⟨a, b, c, rfl⟩ := List.length_eq_three.mp three
  obtain ⟨d, e, rfl⟩ := List.length_eq_two.mp two
  obtain ⟨f, g, h, i, rfl⟩ := List.length_eq_four.mp four
  simp only [List.cons_append, List.nil_append, List.forall_mem_cons] at digits
  interval_cases place <;> simp [written, digits, not_isDigit_hyphen]

theorem Groups.first {area group serial : Str} (groups : Groups area group serial) :
    ∃ first more, written area group serial = first :: more ∧
      isDigit first = true := by
  obtain ⟨first, second, third, rfl⟩ := List.length_eq_three.mp groups.three
  exact ⟨first, _, rfl, groups.digits first List.mem_cons_self⟩

/-- What begins inside a number stands behind a digit. -/
theorem Groups.isDigit_last {area group serial area' group' serial' front behind
    behind' : Str} {last : Char} (groups : Groups area group serial)
    (groups' : Groups area' group' serial')
    (split : written area group serial ++ behind =
      (front ++ [last]) ++ (written area' group' serial' ++ behind'))
    (inside : front.length < 10) : isDigit last = true := by
  have shifted (place : Nat) :
      (written area group serial ++ behind)[front.length + 1 + place]? =
        (written area' group' serial' ++ behind')[place]? := by
    have length : (front ++ [last]).length = front.length + 1 :=
      List.length_append
    rw [split, ← length, List.getElem?_append_right (Nat.le_add_right _ _),
      Nat.add_sub_cancel_left]
  have agree {place : Nat} (both : front.length + 1 + place < 11) :
      (front.length + 1 + place ≠ 3 ∧ front.length + 1 + place ≠ 6) ↔
        (place ≠ 3 ∧ place ≠ 6) := by
    have second : place < 11 := (Nat.le_add_left _ _).trans_lt both
    obtain ⟨char, here, kind⟩ := groups.isDigit_iff behind both
    obtain ⟨char', there, kind'⟩ := groups'.isDigit_iff behind' second
    rw [shifted, there] at here
    cases here
    exact kind.symm.trans kind'
  -- the first digit is no hyphen of the number, and the first hyphen no digit
  have first := @agree 0 (by omega)
  have far : 7 ≤ front.length := by
    by_contra near
    have third := @agree 3 (by omega)
    omega
  obtain ⟨char, here, kind⟩ := groups.isDigit_iff behind
    (inside.trans (Nat.lt_succ_self _))
  rw [split, List.append_assoc, List.getElem?_append_right (Nat.le_refl _),
    Nat.sub_self] at here
  cases here
  exact kind.mpr (by omega)

theorem separate_ssnBroad : Separate ssnBroad := by
  constructor
  · exact consuming_of_nullable rfl
  · intro spot next other member member'
    obtain ⟨area, group, serial, groups, split, here⟩ :=
      used_of_mem_ends_ssnBroad member
    obtain ⟨area', group', serial', groups', split', here'⟩ :=
      used_of_mem_ends_ssnBroad member'
    have lengths : (written area group serial).length =
        (written area' group' serial').length := by
      rw [length_written, length_written, groups.three, groups.two, groups.four,
        groups'.three, groups'.two, groups'.four]
    obtain ⟨same, rests⟩ := List.append_inj (split.symm.trans split') lengths
    rw [here, here', same, rests]
  · intro spot next member front rest split nonempty shorter found
    obtain ⟨last, again⟩ := List.exists_mem_of_ne_nil _ found
    obtain ⟨area, group, serial, groups, here, -⟩ :=
      used_of_mem_ends_ssnBroad member
    obtain ⟨area', group', serial', groups', there, -⟩ :=
      used_of_mem_ends_ssnBroad again
    obtain ⟨_, _, _, _, _, number⟩ := mem_ends_ssnBroad.mp again
    have inside : front.length < 11 := by
      have lengths := congrArg List.length (here.symm.trans split)
      rw [List.length_append, List.length_append, length_written, groups.three,
        groups.two, groups.four] at lengths
      rw [Spot.size] at shorter
      omega
    change rest = _ at there
    rcases List.eq_nil_or_concat front with rfl | ⟨front, final, rfl⟩
    · exact nonempty rfl
    rw [List.concat_eq_append] at *
    rw [here, there] at split
    rw [List.length_append] at inside
    have behind : (spotBehind spot.behindWord (front ++ [final]) rest).behindWord =
        true := by
      rw [spotBehind_append]
      apply CharTables.isWord_of_isDigit
      exact groups.isDigit_last groups' split (Nat.lt_of_succ_lt_succ inside)
    have before : (spotBehind spot.behindWord (front ++ [final]) rest).beforeWord =
        true := by
      obtain ⟨first, more, begins, digit⟩ := groups'.first
      rw [there, begins]
      exact CharTables.isWord_of_isDigit first digit
    exact number.starts (behind.trans before.symm)

/-- The matcher is the rule, for every text. -/
theorem ssnMatches_iff {text : Str} :
    ssnMatches text = true ↔ Found ssnRule text := by
  rw [ssnMatches, List.any_eq_true]
  constructor
  · intro ⟨⟨matched, behind⟩, inHits, checked⟩
    obtain ⟨front, split, next, member, rfl⟩ :=
      separate_ssnBroad.mem_hits_iff.mp inHits
    obtain ⟨area, group, group', serial, serial', number⟩ :=
      mem_ends_ssnBroad.mp member
    refine ⟨front, matched ++ next.rest, split, ?_⟩
    apply itemEnds_ssnRule.mpr
    exact ⟨area, group, group', serial, serial', next, number,
      (number.checked_iff rfl).mp checked⟩
  · intro ⟨front, rest, split, found⟩
    obtain ⟨area, group, group', serial, serial', next, number, ahead⟩ :=
      itemEnds_ssnRule.mp found
    have member := mem_ends_ssnBroad.mpr ⟨area, group, group', serial, serial', number⟩
    obtain ⟨matched, whole, -⟩ := eq_spotBehind_of_mem_ends member
    refine ⟨(matched, next.rest), ?_, (number.checked_iff whole).mpr ahead⟩
    apply separate_ssnBroad.mem_hits_iff.mpr
    change rest = _ at whole
    subst whole
    exact ⟨front, split, next, member, rfl⟩

end

end TrustLayer.AgentGuard.Firewall
