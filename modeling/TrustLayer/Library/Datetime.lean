import Mathlib.Tactic.Ring
import TrustLayer.Library.Calendar
import TrustLayer.Library.Text

/-!
# Python's `datetime` and its ISO 8601 text

What `isoformat` prints, and the forms that `fromisoformat` reads: dates with
and without dashes, of a month or of a week, any separator, shortened times,
and an offset of up to microseconds.
-/

namespace TrustLayer.Library

/-! ## Decimal digits -/

/-- `0{width}d` of a number that is not wider. -/
def padded : (width value : Nat) → Str
  | 0, _ => []
  | width + 1, value =>
      Char.ofNat (48 + value / 10 ^ width % 10) :: padded width value

def digitsNumber (digits : Str) : Nat :=
  digits.foldl (fun total digit => total * 10 + (digit.toNat - 48)) 0

/-- The number that so many digits at the front spell, and the text behind. -/
def readDigits (width : Nat) (text : Str) : Option (Nat × Str) :=
  let digits := text.take width
  if digits.length = width ∧ digits.all isAsciiDigit then
    some (digitsNumber digits, text.drop width)
  else none

theorem digit_spec {value : Nat} (digit : value < 10) :
    isAsciiDigit (Char.ofNat (48 + value)) = true ∧
      (Char.ofNat (48 + value)).toNat - 48 = value := by
  revert value
  decide

theorem padded_length (width value : Nat) :
    (padded width value).length = width := by
  induction width with
  | zero => rfl
  | succ width induction => rw [padded, List.length_cons, induction]

theorem isAsciiDigit_of_mem_padded {width value : Nat} {char : Char}
    (member : char ∈ padded width value) : isAsciiDigit char = true := by
  induction width with
  | zero => cases member
  | succ width induction =>
      rcases List.mem_cons.mp member with rfl | later
      · exact (digit_spec (Nat.mod_lt _ (by decide))).1
      · exact induction later

theorem foldl_padded (width value total : Nat) :
    (padded width value).foldl
        (fun total digit => total * 10 + (digit.toNat - 48)) total =
      total * 10 ^ width + value % 10 ^ width := by
  induction width generalizing total with
  | zero => simp [padded, Nat.mod_one]
  | succ width induction =>
      rw [padded, List.foldl_cons, induction,
        (digit_spec (Nat.mod_lt _ (by decide))).2, Nat.pow_succ, Nat.mod_mul]
      ring

theorem digitsNumber_padded {width value : Nat} (fits : value < 10 ^ width) :
    digitsNumber (padded width value) = value := by
  rw [digitsNumber, foldl_padded, Nat.mod_eq_of_lt fits, Nat.zero_mul,
    Nat.zero_add]

theorem readDigits_padded {width value : Nat} (fits : value < 10 ^ width)
    (rest : Str) :
    readDigits width (padded width value ++ rest) = some (value, rest) := by
  have front : (padded width value ++ rest).take width = padded width value :=
    List.take_left' (padded_length width value)
  have behind : (padded width value ++ rest).drop width = rest :=
    List.drop_left' (padded_length width value)
  have digits : (padded width value).all isAsciiDigit = true :=
    List.all_eq_true.mpr fun char member => isAsciiDigit_of_mem_padded member
  simp only [readDigits, front, behind, padded_length, digits,
    digitsNumber_padded fits, and_self, if_true]

/-! ## Values -/

/-- The offset of a `timezone`, less than a day either way. -/
structure UtcOffset where
  micros : Int
  fits : -(microsPerDay : Int) < micros ∧ micros < microsPerDay
  deriving DecidableEq

def UtcOffset.mk? (micros : Int) : Option UtcOffset :=
  if fits : -(microsPerDay : Int) < micros ∧ micros < microsPerDay then
    some ⟨micros, fits⟩
  else none

def UtcOffset.zero : UtcOffset :=
  ⟨0, by decide⟩

/-- A `datetime`, aware where it has an offset. -/
structure Datetime where
  naive : Naive
  offset : Option UtcOffset
  deriving DecidableEq

/-! ## Printing -/

def Date.isoformat (date : Date) : Str :=
  padded 4 date.year ++ '-' :: padded 2 date.month ++ '-' :: padded 2 date.day

/-- The microseconds, left out where there are none. -/
def fractionText (microsecond : Nat) : Str :=
  if microsecond = 0 then [] else '.' :: padded 6 microsecond

def Clock.isoformat (clock : Clock) : Str :=
  padded 2 clock.hour ++ ':' :: padded 2 clock.minute ++
    ':' :: padded 2 clock.second ++ fractionText clock.microsecond

/-- `_format_offset`. -/
def UtcOffset.isoformat (offset : UtcOffset) : Str :=
  let micros := offset.micros.natAbs
  let second := micros / 1000000 % 60
  let microsecond := micros % 1000000
  (if offset.micros < 0 then '-' else '+') ::
    (padded 2 (micros / 3600000000) ++
      ':' :: padded 2 (micros / 60000000 % 60) ++
      if second = 0 ∧ microsecond = 0 then []
      else ':' :: padded 2 second ++ fractionText microsecond)

/-- The offset as it is printed behind a time, if there is one. -/
def zoneText (offset : Option UtcOffset) : Str :=
  match offset with
  | none => []
  | some offset => offset.isoformat

def Datetime.isoformat (datetime : Datetime) : Str :=
  datetime.naive.date.isoformat ++
    'T' :: (datetime.naive.clock.isoformat ++ zoneText datetime.offset)

/-! ## Reading -/

/-- `_find_isoformat_datetime_separator`. -/
def separatorLocation (text : Str) : Option Nat :=
  if text.length = 7 then some 7
  else if text[4]? = some '-' then
    if text[5]? = some 'W' then
      if 8 < text.length ∧ text[8]? = some '-' then
        if text.length = 9 then none
        else if 10 < text.length ∧ text[10]?.any isAsciiDigit then some 8
        else some 10
      else some 8
    else some 10
  else if text[4]? = some 'W' then
    let digitsEnd := 7 + ((text.drop 7).takeWhile isAsciiDigit).length
    if digitsEnd < 9 then some digitsEnd
    else if digitsEnd % 2 = 0 then some 7
    else some 8
  else some 8

/-- The number of the Monday of the first week of a year. -/
def isoWeek1Monday (year : Nat) : Nat :=
  let firstDay := daysBeforeYear year + 1
  let firstWeekday := (firstDay + 6) % 7
  if 3 < firstWeekday then firstDay - firstWeekday + 7
  else firstDay - firstWeekday

/-- `_isoweek_to_gregorian`. -/
def isoWeekToGregorian (year week day : Nat) : Option Date :=
  let firstWeekday := (daysBeforeYear year + 1) % 7
  let lastWeek :=
    if firstWeekday = 4 ∨ (firstWeekday = 3 ∧ isLeap year) then 53 else 52
  if 1 ≤ year ∧ year ≤ 9999 ∧ 1 ≤ week ∧ week ≤ lastWeek ∧ 1 ≤ day ∧ day ≤ 7
  then
    Date.ofOrdinal? (isoWeek1Monday year + (week - 1) * 7 + (day - 1))
  else none

/-- The text behind a dash where dashes are used; `none` where a dash is
missing or one too many. -/
def skipSeparator (separator : Char) (used : Bool) (text : Str) : Option Str :=
  if (text.head? == some separator) = used then
    some (if used then text.tail else text)
  else none

/-- `_parse_isoformat_date`. -/
def parseIsoformatDate (text : Str) : Option Date := do
  let (year, rest) ← readDigits 4 text
  let hasSep := rest.head? == some '-'
  let rest := if hasSep then rest.tail else rest
  if rest.head? = some 'W' then
    let (week, rest) ← readDigits 2 rest.tail
    if rest = [] then isoWeekToGregorian year week 1
    else
      let rest ← skipSeparator '-' hasSep rest
      let (day, rest) ← readDigits 1 rest
      if rest = [] then isoWeekToGregorian year week day else none
  else
    let (month, rest) ← readDigits 2 rest
    let rest ← skipSeparator '-' hasSep rest
    let (day, rest) ← readDigits 2 rest
    if rest = [] then Date.mk? year month day else none

/-- The digits behind a point or a comma, cut or filled up to six. -/
def parseFraction : Str → Option Nat
  | [] => some 0
  | mark :: digits =>
      if (mark = '.' ∨ mark = ',') ∧ digits ≠ [] ∧ digits.all isAsciiDigit then
        let kept := digits.take 6
        some (digitsNumber kept * 10 ^ (6 - kept.length))
      else none

/-- `_parse_hh_mm_ss_ff`, in microseconds. -/
def parseHhMmSsFf (text : Str) : Option (Nat × Nat × Nat × Nat) := do
  let (hour, rest) ← readDigits 2 text
  if rest = [] then pure (hour, 0, 0, 0)
  else
    let hasSep := rest.head? == some ':'
    let (minute, rest) ← readDigits 2 (if hasSep then rest.tail else rest)
    if rest = [] then pure (hour, minute, 0, 0)
    else if hasSep ∧ rest.head? ≠ some ':' then none
    else
      let (second, rest) ← readDigits 2 (if hasSep then rest.tail else rest)
      let microsecond ← parseFraction rest
      pure (hour, minute, second, microsecond)

def isZoneMark (char : Char) : Bool :=
  char = '+' || char = '-' || char = 'Z'

/-- The offset that a text from a sign or a `Z` on denotes. -/
def parseZone (text : Str) : Option (Option UtcOffset) :=
  match text with
  | [] => some none
  | mark :: digits =>
      if mark = 'Z' then
        if digits = [] then some (some .zero) else none
      else if digits.length = 0 ∨ digits.length = 1 ∨ digits.length = 3 then none
      else do
        let (hour, minute, second, microsecond) ← parseHhMmSsFf digits
        let micros : Int := clockMicros hour minute second microsecond
        let offset ← UtcOffset.mk? (if mark = '-' then -micros else micros)
        pure (some offset)

/-- `_parse_isoformat_time`. -/
def parseIsoformatTime (text : Str) : Option (Clock × Option UtcOffset) := do
  let (hour, minute, second, microsecond) ←
    parseHhMmSsFf (text.takeWhile fun char => !isZoneMark char)
  let offset ← parseZone (text.dropWhile fun char => !isZoneMark char)
  let clock ← Clock.mk? hour minute second microsecond
  pure (clock, offset)

/-- `datetime.fromisoformat`, `none` where it raises `ValueError`. -/
def Datetime.fromisoformat (text : Str) : Option Datetime := do
  if text.length < 7 then none
  else
    let location ← separatorLocation text
    let date ← parseIsoformatDate (text.take location)
    let time := text.drop (location + 1)
    let (clock, offset) ←
      if time = [] then (Clock.mk? 0 0 0 0).map fun clock => (clock, none)
      else parseIsoformatTime time
    pure { naive := { date, clock }, offset }

/-! ## What is printed is read again -/

theorem head_padded_ne {char : Char} (mark : isAsciiDigit char = false)
    (width value : Nat) (rest : Str) :
    (padded (width + 1) value ++ rest).head? ≠ some char := by
  intro first
  have member : char ∈ padded (width + 1) value :=
    Option.some.inj first ▸ List.mem_cons_self
  rw [isAsciiDigit_of_mem_padded member] at mark
  cases mark

theorem readDigits_padded_nil {width value : Nat} (fits : value < 10 ^ width) :
    readDigits width (padded width value) = some (value, []) := by
  simpa using readDigits_padded fits []

theorem Date.month_lt (date : Date) : date.month < 10 ^ 2 := by
  have := date.monthFits
  omega

theorem Date.day_lt (date : Date) : date.day < 10 ^ 2 := by
  have long : daysInMonth date.year date.month ≤ 31 := by
    unfold daysInMonth
    split_ifs <;> decide
  have := date.dayFits
  omega

theorem parseIsoformatDate_isoformat (date : Date) :
    parseIsoformatDate date.isoformat = some date := by
  have year : date.year < 10 ^ 4 := by
    have := date.yearFits
    omega
  have noWeek := head_padded_ne (show isAsciiDigit 'W' = false from rfl) 1
    date.month ('-' :: padded 2 date.day)
  simp only [parseIsoformatDate, Date.isoformat, List.append_assoc,
    List.cons_append, readDigits_padded year, Option.bind_eq_bind,
    Option.bind_some, List.head?_cons, beq_self_eq_true, if_true,
    List.tail_cons, noWeek, if_false, readDigits_padded date.month_lt,
    skipSeparator, readDigits_padded_nil date.day_lt, date.mk?_self]

theorem parseFraction_fractionText {microsecond : Nat}
    (fits : microsecond < 1000000) :
    parseFraction (fractionText microsecond) = some microsecond := by
  by_cases none : microsecond = 0
  · subst none
    rfl
  · have digits : (padded 6 microsecond).all isAsciiDigit = true :=
      List.all_eq_true.mpr fun char member => isAsciiDigit_of_mem_padded member
    have nonempty : padded 6 microsecond ≠ [] := List.cons_ne_nil _ _
    have whole : (padded 6 microsecond).take 6 = padded 6 microsecond :=
      List.take_of_length_le (padded_length 6 microsecond).le
    simp only [fractionText, none, if_false, parseFraction, true_or, true_and,
      ne_eq, nonempty, not_false_eq_true, digits, if_true, whole,
      digitsNumber_padded (show microsecond < 10 ^ 6 from fits),
      padded_length, Nat.sub_self, Nat.pow_zero, Nat.mul_one]

theorem parseHhMmSsFf_short {hour minute : Nat} (hourFits : hour < 10 ^ 2)
    (minuteFits : minute < 10 ^ 2) :
    parseHhMmSsFf (padded 2 hour ++ ':' :: padded 2 minute) =
      some (hour, minute, 0, 0) := by
  simp only [parseHhMmSsFf, readDigits_padded hourFits, Option.bind_eq_bind,
    Option.bind_some, List.cons_ne_nil, if_false, List.head?_cons,
    beq_self_eq_true, if_true, List.tail_cons,
    readDigits_padded_nil minuteFits]
  rfl

theorem parseHhMmSsFf_long {hour minute second microsecond : Nat}
    (hourFits : hour < 10 ^ 2) (minuteFits : minute < 10 ^ 2)
    (secondFits : second < 10 ^ 2) (microsecondFits : microsecond < 1000000) :
    parseHhMmSsFf (padded 2 hour ++ ':' :: padded 2 minute ++
        ':' :: padded 2 second ++ fractionText microsecond) =
      some (hour, minute, second, microsecond) := by
  simp only [parseHhMmSsFf, List.append_assoc, List.cons_append,
    readDigits_padded hourFits, Option.bind_eq_bind,
    Option.bind_some, List.cons_ne_nil, if_false, List.head?_cons,
    beq_self_eq_true, if_true, List.tail_cons, readDigits_padded minuteFits,
    ne_eq, not_true, and_false, readDigits_padded secondFits,
    parseFraction_fractionText microsecondFits]
  rfl

/-! ### Offsets -/

theorem UtcOffset.mk?_self (offset : UtcOffset) :
    mk? offset.micros = some offset :=
  dif_pos offset.fits

/-- The digits of an offset: hours and minutes, and seconds where needed. -/
theorem parseHhMmSsFf_offset {hour minute second microsecond : Nat}
    (hourFits : hour < 10 ^ 2) (minuteFits : minute < 10 ^ 2)
    (secondFits : second < 10 ^ 2) (microsecondFits : microsecond < 1000000) :
    parseHhMmSsFf (padded 2 hour ++ ':' :: padded 2 minute ++
        if second = 0 ∧ microsecond = 0 then []
        else ':' :: padded 2 second ++ fractionText microsecond) =
      some (hour, minute, second, microsecond) := by
  by_cases short : second = 0 ∧ microsecond = 0
  · obtain ⟨rfl, rfl⟩ := short
    rw [if_pos ⟨rfl, rfl⟩, List.append_nil]
    exact parseHhMmSsFf_short hourFits minuteFits
  · rw [if_neg short]
    simpa only [List.append_assoc, List.cons_append] using
      parseHhMmSsFf_long hourFits minuteFits secondFits microsecondFits

theorem parseZone_signed {mark : Char} {digits : Str}
    {hour minute second microsecond : Nat} (sign : mark ≠ 'Z')
    (long : 3 < digits.length)
    (parsed : parseHhMmSsFf digits = some (hour, minute, second, microsecond)) :
    parseZone (mark :: digits) =
      (UtcOffset.mk? (if mark = '-'
        then -(clockMicros hour minute second microsecond : Int)
        else clockMicros hour minute second microsecond)).map some := by
  have sized : ¬ (digits.length = 0 ∨ digits.length = 1 ∨
      digits.length = 3) := by
    omega
  rw [parseZone, if_neg sign, if_neg sized, parsed, Option.map_eq_bind]
  rfl

theorem parseZone_isoformat (offset : UtcOffset) :
    parseZone offset.isoformat = some (some offset) := by
  have small : offset.micros.natAbs < microsPerDay := by
    have bounds := offset.fits
    omega
  have whole : clockMicros (offset.micros.natAbs / 3600000000)
      (offset.micros.natAbs / 60000000 % 60)
      (offset.micros.natAbs / 1000000 % 60)
      (offset.micros.natAbs % 1000000) = offset.micros.natAbs := by
    unfold clockMicros
    omega
  have hour : offset.micros.natAbs / 3600000000 < 10 ^ 2 := by
    unfold microsPerDay at small
    omega
  have signed : (if (if offset.micros < 0 then '-' else '+') = '-'
      then -(offset.micros.natAbs : Int) else offset.micros.natAbs) =
      offset.micros := by
    by_cases negative : offset.micros < 0
    · rw [if_pos negative, if_pos rfl]
      omega
    · rw [if_neg negative, if_neg (by decide)]
      omega
  have minute : offset.micros.natAbs / 60000000 % 60 < 10 ^ 2 := by omega
  have second : offset.micros.natAbs / 1000000 % 60 < 10 ^ 2 := by omega
  rw [UtcOffset.isoformat, parseZone_signed _ _
    (parseHhMmSsFf_offset hour minute second (Nat.mod_lt _ (by decide))),
    whole, signed, offset.mk?_self]
  · rfl
  · split_ifs <;> decide
  · simp only [List.length_append, List.length_cons, padded_length]
    omega

/-! ### Times and dates -/

theorem isZoneMark_digit {char : Char} (digit : isAsciiDigit char = true) :
    isZoneMark char = false := by
  by_contra marked
  simp only [Bool.not_eq_false, isZoneMark, Bool.or_eq_true,
    decide_eq_true_eq] at marked
  rcases marked with (rfl | rfl) | rfl <;> cases digit

theorem fractionText_cases {microsecond : Nat} {char : Char}
    (member : char ∈ fractionText microsecond) :
    char = '.' ∨ isAsciiDigit char = true := by
  unfold fractionText at member
  split_ifs at member
  · cases member
  · exact (List.mem_cons.mp member).imp_right isAsciiDigit_of_mem_padded

theorem Clock.isZoneMark_isoformat {clock : Clock} {char : Char}
    (member : char ∈ clock.isoformat) : isZoneMark char = false := by
  simp only [isoformat, List.mem_append, List.mem_cons] at member
  rcases member with ((hour | rfl | minute) | rfl | second) | fraction
  · exact isZoneMark_digit (isAsciiDigit_of_mem_padded hour)
  · rfl
  · exact isZoneMark_digit (isAsciiDigit_of_mem_padded minute)
  · rfl
  · exact isZoneMark_digit (isAsciiDigit_of_mem_padded second)
  · rcases fractionText_cases fraction with rfl | digit
    · rfl
    · exact isZoneMark_digit digit

theorem parseZone_zoneText (offset : Option UtcOffset) :
    parseZone (zoneText offset) = some offset := by
  cases offset with
  | none => rfl
  | some offset => exact parseZone_isoformat offset

theorem zoneText_head (offset : Option UtcOffset) :
    ∀ char ∈ (zoneText offset).head?, isZoneMark char = true := by
  cases offset with
  | none => exact nofun
  | some offset =>
      rintro char ⟨⟩
      split_ifs <;> rfl

theorem takeWhile_of_head {keep : Char → Bool} {text : Str}
    (stops : ∀ char ∈ text.head?, keep char = false) :
    text.takeWhile keep = [] ∧ text.dropWhile keep = text := by
  cases text with
  | nil => exact ⟨rfl, rfl⟩
  | cons char text =>
      have stopped := stops char rfl
      simp [stopped]

theorem parseIsoformatTime_isoformat (clock : Clock)
    (offset : Option UtcOffset) :
    parseIsoformatTime (clock.isoformat ++ zoneText offset) =
      some (clock, offset) := by
  have front : ∀ char ∈ clock.isoformat, (!isZoneMark char) = true := by
    intro char member
    rw [Clock.isZoneMark_isoformat member]
    rfl
  have stops : ∀ char ∈ (zoneText offset).head?,
      (!isZoneMark char) = false := by
    intro char first
    rw [zoneText_head offset char first]
    rfl
  obtain ⟨noTime, allZone⟩ := takeWhile_of_head stops
  have zone : (clock.isoformat ++ zoneText offset).dropWhile
      (fun char => !isZoneMark char) = zoneText offset := by
    rw [List.dropWhile_append_of_pos front, allZone]
  have time : (clock.isoformat ++ zoneText offset).takeWhile
      (fun char => !isZoneMark char) = clock.isoformat := by
    rw [List.takeWhile_append_of_pos front, noTime, List.append_nil]
  have := clock.hourFits
  have := clock.minuteFits
  have := clock.secondFits
  have digits : parseHhMmSsFf clock.isoformat =
      some (clock.hour, clock.minute, clock.second, clock.microsecond) :=
    parseHhMmSsFf_long (by omega) (by omega) (by omega) clock.microsecondFits
  simp only [parseIsoformatTime, time, zone, digits, parseZone_zoneText,
    Option.bind_eq_bind, Option.bind_some, clock.mk?_self]
  rfl

theorem Date.isoformat_length (date : Date) : date.isoformat.length = 10 := by
  simp [isoformat, padded_length]

theorem separatorLocation_isoformat (date : Date) (rest : Str) :
    separatorLocation (date.isoformat ++ rest) = some 10 := by
  have long : (date.isoformat ++ rest).length ≠ 7 := by
    rw [List.length_append, date.isoformat_length]
    omega
  have dash : (date.isoformat ++ rest)[4]? = some '-' := rfl
  have month : (date.isoformat ++ rest)[5]? =
      some (Char.ofNat (48 + date.month / 10 ^ 1 % 10)) := rfl
  have noWeek : (date.isoformat ++ rest)[5]? ≠ some 'W' := by
    rw [month]
    intro week
    have digit := (digit_spec (Nat.mod_lt (date.month / 10 ^ 1)
      (show 0 < 10 by decide))).1
    rw [Option.some.inj week] at digit
    cases digit
  rw [separatorLocation, if_neg long, if_pos dash, if_neg noWeek]

/-- Every `datetime` is read from its own text. -/
theorem Datetime.fromisoformat_isoformat (datetime : Datetime) :
    fromisoformat datetime.isoformat = some datetime := by
  obtain ⟨⟨date, clock⟩, offset⟩ := datetime
  have long : ¬ (date.isoformat ++
      'T' :: (clock.isoformat ++ zoneText offset)).length < 7 := by
    rw [List.length_append, date.isoformat_length]
    omega
  have front : (date.isoformat ++
      'T' :: (clock.isoformat ++ zoneText offset)).take 10 = date.isoformat :=
    List.take_left' date.isoformat_length
  have behind : (date.isoformat ++
      'T' :: (clock.isoformat ++ zoneText offset)).drop (10 + 1) =
        clock.isoformat ++ zoneText offset := by
    rw [← List.drop_drop, List.drop_left' date.isoformat_length]
    rfl
  have nonempty : clock.isoformat ++ zoneText offset ≠ [] :=
    List.append_ne_nil_of_left_ne_nil (List.cons_ne_nil _ _) _
  simp only [fromisoformat, isoformat, long, if_false,
    separatorLocation_isoformat, Option.bind_eq_bind, Option.bind_some, front,
    parseIsoformatDate_isoformat, behind, nonempty,
    parseIsoformatTime_isoformat]
  rfl

theorem Datetime.isoformat_injective : Function.Injective isoformat := by
  intro left right same
  have read := congrArg fromisoformat same
  rw [fromisoformat_isoformat, fromisoformat_isoformat] at read
  exact Option.some.inj read

end TrustLayer.Library
