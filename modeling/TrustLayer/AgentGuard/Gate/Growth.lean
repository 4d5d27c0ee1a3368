import TrustLayer.AgentGuard.Gate.Spans
import TrustLayer.Library.CharBoundary
import TrustLayer.Library.Radix
import TrustLayer.Library.Unicode

/-!
# How long normalization makes a command

Every splice is asked of one budget, so their number is capped.  The budget
sees what has been emitted only, and a byte of a character outside ASCII is
emitted as a character of two bytes.  Weights for the bytes bound what the
passes can make of a command.
-/

namespace TrustLayer.AgentGuard.Gate

open TrustLayer.Library

/-! ## The passes -/

/-- The texts that the passes hand on, each with the budget it leaves. -/
def afterJoin (command : Str) : Str × Budget :=
  joinLineContinuations command Budget.fresh

def afterDecode (command : Str) : Str × Budget :=
  decodeAnsiC (afterJoin command).1 (afterJoin command).2

def afterSplice (command : Str) : Str × Budget :=
  spliceEchoSubstitution (afterDecode command).1 (afterDecode command).2

theorem normalizeCommand_of_short {command : Str}
    (short : byteLen command ≤ maxNormalizeBytes) :
    (normalizeCommand command).command = (afterSplice command).1 := by
  rw [normalizeCommand, if_neg (Nat.not_lt_of_le short)]
  rfl

theorem normalizeCommand_of_long {command : Str}
    (long : maxNormalizeBytes < byteLen command) :
    (normalizeCommand command).command = command := by
  rw [normalizeCommand, if_pos long]

/-! ## The number of splices -/

/-- No more splices than the cap allows have been made. -/
def Budget.Within (budget : Budget) : Prop :=
  budget.rewrites ≤ maxRewrites

theorem Budget.allow_within {budget : Budget} (within : budget.Within)
    (newLen : Nat) : (budget.allow newLen).2.Within := by
  rcases budget.allow_cases newLen with refused | ⟨below, allowed⟩
  · rw [refused]
    exact within
  · rw [allowed]
    exact below

theorem joinLineContinuations_within {budget : Budget} (within : budget.Within)
    (text : Str) : (joinLineContinuations text budget).2.Within := by
  have kept : ∀ state byte rest, state.budget.Within →
      (joinStep state byte rest).1.budget.Within := by
    intro state byte rest within
    have allowed := Budget.allow_within within (byteLen state.out)
    unfold joinStep
    rcases asked : state.budget.allow (byteLen state.out) with ⟨answer, next⟩
    rw [asked] at allowed
    cases answer <;> split_ifs <;> assumption
  unfold joinLineContinuations
  split_ifs
  · exact @walk_invariant _ _ joinStep (fun state => state.budget.Within) _
      (fun state byte rest _ => kept state byte rest) 0 _ within
  · exact within

theorem rewriter_within
    {step : RewriteState → Char → List Char → RewriteState × Nat}
    (kept : ∀ state byte rest, state.budget.Within →
      (step state byte rest).1.budget.Within)
    {budget : Budget} (within : budget.Within) (items : List Char) :
    (walk step items 0 (.start budget)).budget.Within :=
  @walk_invariant _ _ step (fun state => state.budget.Within) _
    (fun state byte rest _ => kept state byte rest) 0 _ within

theorem decodeAnsiC_within {budget : Budget} (within : budget.Within)
    (text : Str) : (decodeAnsiC text budget).2.Within := by
  unfold decodeAnsiC
  split_ifs
  · exact within
  · refine rewriter_within (fun state byte rest within => ?_) within _
    have turn := ansiCStep_turn state byte rest
    generalize ansiCStep state byte rest = result at turn ⊢
    cases turn with
    | copy => exact (state.copy_budget byte).symm ▸ within
    | decode _ _ _ below => exact below
    | verbatim => exact within

theorem spliceEchoSubstitution_within {budget : Budget} (within : budget.Within)
    (text : Str) : (spliceEchoSubstitution text budget).2.Within := by
  unfold spliceEchoSubstitution
  split_ifs
  · exact within
  · refine rewriter_within (fun state byte rest within => ?_) within _
    have turn := echoStep_turn state byte rest
    generalize echoStep state byte rest = result at turn ⊢
    cases turn with
    | copy => exact (state.copy_budget byte).symm ▸ within
    | splice _ below => exact below

/-- The passes that run splice spans, no more than the cap in all. -/
def SplicesWithin (command : Str) : Prop :=
  byteLen command ≤ maxNormalizeBytes →
    ∃ joined decoded joins spans bodies,
      PassRewrites Copied Continuation joins command joined ∧
      PassRewrites CopiedVerbatim AnsiCSpan spans joined decoded ∧
      PassRewrites Copied EchoSubstitution bodies decoded
        (normalizeCommand command).command ∧
      (afterSplice command).2.rewrites = joins + spans + bodies ∧
      joins + spans + bodies ≤ maxRewrites

theorem splicesWithin (command : Str) : SplicesWithin command := by
  intro short
  have within : (afterSplice command).2.Within :=
    spliceEchoSubstitution_within (decodeAnsiC_within
      (joinLineContinuations_within (Nat.zero_le _) _) _) _
  obtain ⟨joins, joinsSpent, joinRewrites⟩ :=
    joinLineContinuations_rewrites command Budget.fresh
  obtain ⟨spans, spansSpent, spanRewrites⟩ :=
    decodeAnsiC_rewrites (afterJoin command).1 (afterJoin command).2
  obtain ⟨bodies, bodiesSpent, bodyRewrites⟩ :=
    spliceEchoSubstitution_rewrites (afterDecode command).1 (afterDecode command).2
  have total : (afterSplice command).2.rewrites = joins + spans + bodies := by
    have fresh : Budget.fresh.rewrites = 0 := rfl
    have first : (afterJoin command).2.rewrites = 0 + joins :=
      fresh ▸ joinsSpent
    have second : (afterDecode command).2.rewrites = 0 + joins + spans :=
      first ▸ spansSpent
    have third : (afterSplice command).2.rewrites = 0 + joins + spans + bodies :=
      second ▸ bodiesSpent
    rw [third, Nat.zero_add]
  refine ⟨_, _, joins, spans, bodies, joinRewrites, spanRewrites, ?_, total,
    total ▸ within⟩
  rw [normalizeCommand_of_short short]
  exact bodyRewrites

/-! ## Weights -/

/-- An ASCII byte weighs one, but the letter of `\\u` may weigh more. -/
def byteWeight (letter wide : Nat) (byte : Char) : Nat :=
  if byte.toNat < 128 then if byte = 'u' then letter else 1
  else wide

def bytesWeight (letter wide : Nat) (bytes : List Char) : Nat :=
  (bytes.map (byteWeight letter wide)).sum

/-- The bytesWeight of the bytes that a character is encoded as. -/
def charWeight (letter wide : Nat) (char : Char) : Nat :=
  bytesWeight letter wide (asBytes [char])

section

variable {letter wide lighter narrower : Nat} {bytes left right : List Char}

@[simp] theorem bytesWeight_nil : bytesWeight letter wide [] = 0 := rfl

@[simp] theorem bytesWeight_cons (byte : Char) :
    bytesWeight letter wide (byte :: bytes) =
      byteWeight letter wide byte + bytesWeight letter wide bytes := by
  simp [bytesWeight]

@[simp] theorem bytesWeight_append :
    bytesWeight letter wide (left ++ right) =
      bytesWeight letter wide left + bytesWeight letter wide right := by
  simp [bytesWeight]

theorem bytesWeight_asBytes (text : Str) :
    bytesWeight letter wide (asBytes text) =
      (text.map (charWeight letter wide)).sum := by
  induction text with
  | nil => rfl
  | cons char text induction =>
      rw [asBytes_cons, bytesWeight_append, induction, List.map_cons, List.sum_cons]
      rfl

theorem byteWeight_mono (letterLe : lighter ≤ letter) (wideLe : narrower ≤ wide)
    (byte : Char) :
    byteWeight lighter narrower byte ≤ byteWeight letter wide byte := by
  unfold byteWeight
  split_ifs
  · exact letterLe
  · exact Nat.le_refl 1
  · exact wideLe

theorem bytesWeight_mono (letterLe : lighter ≤ letter) (wideLe : narrower ≤ wide)
    (bytes : List Char) :
    bytesWeight lighter narrower bytes ≤ bytesWeight letter wide bytes := by
  induction bytes with
  | nil => exact Nat.le_refl 0
  | cons byte bytes induction =>
      rw [bytesWeight_cons, bytesWeight_cons]
      exact Nat.add_le_add (byteWeight_mono letterLe wideLe byte) induction

theorem bytesWeight_ones (bytes : List Char) :
    bytesWeight 1 1 bytes = bytes.length := by
  induction bytes with
  | nil => rfl
  | cons byte bytes induction =>
      rw [bytesWeight_cons, induction, List.length_cons, Nat.add_comm]
      simp [byteWeight]

theorem byteLen_eq_weight (text : Str) :
    byteLen text = bytesWeight 1 1 (asBytes text) :=
  (bytesWeight_ones _).symm

theorem length_le_weight (letterPos : 1 ≤ letter) (widePos : 1 ≤ wide)
    (bytes : List Char) : bytes.length ≤ bytesWeight letter wide bytes :=
  bytesWeight_ones bytes ▸ bytesWeight_mono letterPos widePos bytes

theorem bytesWeight_of_ascii (ascii : IsAscii bytes) (wide : Nat) :
    bytesWeight 1 wide bytes = bytes.length := by
  induction bytes with
  | nil => rfl
  | cons byte bytes induction =>
      obtain ⟨head, tail⟩ := isAscii_cons.mp ascii
      rw [bytesWeight_cons, induction tail, List.length_cons, Nat.add_comm]
      simp [byteWeight, head]

theorem charWeight_of_ascii {char : Char} (ascii : char.toNat < 128) :
    charWeight letter wide char = byteWeight letter wide char := by
  rw [charWeight, asBytes_singleton_of_ascii ascii, bytesWeight_cons, bytesWeight_nil,
    Nat.add_zero]

theorem charWeight_of_wide {char : Char} (outside : ¬ char.toNat < 128) :
    charWeight letter wide char = char.utf8Size * wide := by
  have heavy : ∀ bytes : List Char, (∀ byte ∈ bytes, 128 ≤ byte.toNat) →
      bytesWeight letter wide bytes = bytes.length * wide := by
    intro bytes large
    induction bytes with
    | nil => simp
    | cons byte bytes induction =>
        obtain ⟨head, tail⟩ := List.forall_mem_cons.mp large
        rw [bytesWeight_cons, induction tail, byteWeight, if_neg (by omega),
          List.length_cons, Nat.add_mul]
        omega
  rw [charWeight, heavy _ (le_toNat_of_mem_asBytes outside)]
  exact congrArg (· * wide) (byteLen_cons char [])

/-! ## Characters that an escape stands for -/

theorem utf8Size_eq (char : Char) :
    char.utf8Size =
      if char.toNat ≤ 127 then 1 else if char.toNat ≤ 2047 then 2
      else if char.toNat ≤ 65535 then 3 else 4 := by
  simp only [Char.utf8Size, UInt32.le_iff_toNat_le]
  rfl

/-- A character of the code point. -/
theorem fromU32_toNat {code : Nat} {char : Char}
    (found : fromU32 code = some char) : char.toNat = code := by
  unfold fromU32 at found
  split_ifs at found with valid
  obtain rfl := Option.some.inj found
  rw [Char.ofNat, dif_pos valid]
  rfl

theorem digitsValue_eq (radix : Nat) (value : Char → Nat) (digits : List Char) :
    digitsValue radix value digits = Radix.value radix (digits.map value) := by
  induction digits using List.reverseRecOn with
  | nil => rfl
  | append_singleton digits last induction =>
      rw [digitsValue] at induction ⊢
      rw [List.foldl_append, List.map_append, induction, List.map_singleton,
        Radix.value_concat]
      rfl

theorem digitsValue_lt {radix : Nat} (proper : 1 < radix) {value : Char → Nat}
    {digits : List Char} (valid : ∀ digit ∈ digits, value digit < radix) :
    digitsValue radix value digits < radix ^ digits.length := by
  rw [digitsValue_eq, ← List.length_map (f := value)]
  exact Radix.value_lt proper (by simpa [Radix.Valid] using valid)

theorem leadingDigits_length (isDigit : Char → Bool) (limit : Nat)
    (bytes : List Char) : (leadingDigits isDigit limit bytes).length ≤ limit :=
  (List.takeWhile_prefix _).length_le.trans (List.length_take_le _ _)

theorem hexVal_lt (byte : Char) : hexVal byte < 16 := by
  unfold hexVal
  split_ifs with digit lower upper
  · have high : byte.toNat ≤ '9'.toNat := digit.2
    have : '9'.toNat = 57 := rfl
    have : '0'.toNat = 48 := rfl
    omega
  · have high : byte.toNat ≤ 'f'.toNat := lower.2
    have : 'f'.toNat = 102 := rfl
    have : 'a'.toNat = 97 := rfl
    omega
  · have high : byte.toNat ≤ 'F'.toNat := upper.2
    have : 'F'.toNat = 70 := rfl
    have : 'A'.toNat = 65 := rfl
    omega
  · decide

theorem octalVal_lt {byte : Char} (octal : isOctalDigit byte = true) :
    byte.toNat - '0'.toNat < 8 := by
  simp only [isOctalDigit, Bool.and_eq_true, decide_eq_true_eq] at octal
  have high : byte.toNat ≤ '7'.toNat := octal.2
  have seven : '7'.toNat = 55 := rfl
  have zero : '0'.toNat = 48 := rfl
  omega

/-- The character of an escape with a number: the bytes it is written with, and
a bound on the number. -/
theorem decodeEscape_some {bytes : List Char} {char : Char} {advance : Nat}
    (decoded : decodeEscape bytes = (some char, advance)) :
    (char.toNat < 128 ∧ 0 < advance) ∨
      (∃ rest, bytes = 'x' :: rest ∧ char.toNat < 16 ^ (advance - 1) ∧
        advance ≤ 3 ∧ 0 < advance) ∨
      (∃ rest, bytes = 'u' :: rest ∧ char.toNat < 16 ^ (advance - 1) ∧
        advance ≤ 5 ∧ 0 < advance) ∨
      (char.toNat < 8 ^ advance ∧ advance ≤ 3 ∧ 0 < advance) := by
  cases bytes with
  | nil => simp [decodeEscape] at decoded
  | cons byte rest =>
      have named : ∀ literal : Char, literal.toNat < 128 →
          (some literal, 1) = (some char, advance) →
          char.toNat < 128 ∧ 0 < advance := by
        rintro literal ascii same
        obtain ⟨found, rfl⟩ := Prod.mk.inj same
        exact ⟨Option.some.inj found ▸ ascii, Nat.one_pos⟩
      have hexadecimal : ∀ limit digits, digits = leadingDigits isAsciiHexdigit
          limit rest → (fromU32 (digitsValue 16 hexVal digits),
            digits.length + 1) = (some char, advance) →
          char.toNat < 16 ^ (advance - 1) ∧ advance ≤ limit + 1 ∧
            0 < advance := by
        rintro limit digits read same
        obtain ⟨found, rfl⟩ := Prod.mk.inj same
        refine ⟨?_, ?_, Nat.succ_pos _⟩
        · rw [fromU32_toNat found]
          exact digitsValue_lt (by decide) fun digit _ => hexVal_lt digit
        · exact Nat.succ_le_succ (read ▸ leadingDigits_length _ limit rest)
      simp only [decodeEscape] at decoded
      rcases ite_eq_iff.mp decoded with ⟨-, newline⟩ | ⟨-, decoded⟩
      · exact .inl (named _ (by decide) newline)
      rcases ite_eq_iff.mp decoded with ⟨-, tab⟩ | ⟨-, decoded⟩
      · exact .inl (named _ (by decide) tab)
      rcases ite_eq_iff.mp decoded with ⟨-, carriage⟩ | ⟨-, decoded⟩
      · exact .inl (named _ (by decide) carriage)
      rcases ite_eq_iff.mp decoded with ⟨-, backslash⟩ | ⟨-, decoded⟩
      · exact .inl (named _ (by decide) backslash)
      rcases ite_eq_iff.mp decoded with ⟨-, single⟩ | ⟨-, decoded⟩
      · exact .inl (named _ (by decide) single)
      rcases ite_eq_iff.mp decoded with ⟨-, double⟩ | ⟨-, decoded⟩
      · exact .inl (named _ (by decide) double)
      rcases ite_eq_iff.mp decoded with ⟨rfl, hex⟩ | ⟨-, decoded⟩
      · rcases ite_eq_iff.mp hex with ⟨-, absent⟩ | ⟨-, digits⟩
        · cases absent
        · exact .inr (.inl ⟨rest, rfl, hexadecimal 2 _ rfl digits⟩)
      rcases ite_eq_iff.mp decoded with ⟨rfl, hex⟩ | ⟨-, decoded⟩
      · rcases ite_eq_iff.mp hex with ⟨-, absent⟩ | ⟨-, digits⟩
        · cases absent
        · exact .inr (.inr (.inl ⟨rest, rfl, hexadecimal 4 _ rfl digits⟩))
      rcases ite_eq_iff.mp decoded with ⟨octal, digits⟩ | ⟨-, absent⟩
      · obtain ⟨found, rfl⟩ := Prod.mk.inj digits
        refine .inr (.inr (.inr ⟨?_, leadingDigits_length _ 3 _, ?_⟩))
        · rw [fromU32_toNat found]
          exact digitsValue_lt (by decide) fun digit member =>
            octalVal_lt (List.mem_takeWhile_imp member)
        · rw [leadingDigits, List.take_succ_cons, List.takeWhile_cons_of_pos octal]
          exact Nat.succ_pos _
      · cases absent

/-- An escape that the weights allow stands for no heavier character. -/
structure Balances (letter wide : Nat) : Prop where
  letterPos : 1 ≤ letter
  widePos : 1 ≤ wide
  wideLe : wide ≤ 2
  letterLe : 3 * wide ≤ letter + 4

theorem charWeight_le (char : Char) :
    charWeight 1 wide char ≤ 1 ∨ (128 ≤ char.toNat ∧
      charWeight 1 wide char = char.utf8Size * wide) := by
  by_cases ascii : char.toNat < 128
  · left
    rw [charWeight_of_ascii ascii, byteWeight, if_pos ascii, ite_self]
  · exact .inr ⟨by omega, charWeight_of_wide ascii⟩

theorem utf8Size_le_two {char : Char} (small : char.toNat < 2048) :
    char.utf8Size ≤ 2 := by
  rw [utf8Size_eq]
  split_ifs <;> omega

theorem utf8Size_le_three {char : Char} (small : char.toNat < 65536) :
    char.utf8Size ≤ 3 := by
  rw [utf8Size_eq]
  split_ifs <;> omega

/-- A large number is written with many digits. -/
theorem lt_of_pow_le {radix least digits number : Nat} (proper : 1 < radix)
    (large : radix ^ least ≤ number) (bound : number < radix ^ digits) :
    least < digits :=
  (Nat.pow_lt_pow_iff_right proper).mp (large.trans_lt bound)

theorem escape_weight (balances : Balances letter wide) {span text : Str}
    (escape : Escape span text) :
    bytesWeight 1 wide (asBytes text) ≤ bytesWeight letter (2 * wide) span := by
  obtain ⟨body, behind, char, rfl, rfl, decoded⟩ := escape
  obtain ⟨letterPos, widePos, wideLe, letterLe⟩ := balances
  have bodyWeight := @length_le_weight letter (2 * wide) letterPos (by omega) body
  have backslash : byteWeight letter (2 * wide) '\\' = 1 := rfl
  rw [bytesWeight_cons, backslash]
  show charWeight 1 wide char ≤ _
  rcases charWeight_le char with light | ⟨large, heavy⟩
  · exact light.trans (Nat.le_add_right _ _)
  rw [heavy]
  rcases decodeEscape_some decoded with
    ⟨ascii, -⟩ | ⟨rest, shape, bound, short, -⟩ |
      ⟨rest, shape, bound, short, -⟩ | ⟨bound, short, -⟩
  · omega
  · have long : 1 < body.length - 1 :=
      lt_of_pow_le (by decide) (show 16 ^ 1 ≤ char.toNat by omega) bound
    have most : 16 ^ (body.length - 1) ≤ 16 ^ 2 :=
      Nat.pow_le_pow_right (by decide) (by omega)
    have small := Nat.mul_le_mul_right wide
      (utf8Size_le_two (show char.toNat < 2048 by omega))
    omega
  · cases body with
    | nil =>
        simp at bound
        omega
    | cons first more =>
        obtain rfl : first = 'u' := (List.cons.inj shape).1
        have moreWeight :=
          @length_le_weight letter (2 * wide) letterPos (by omega) more
        have first : byteWeight letter (2 * wide) 'u' = letter := rfl
        rw [bytesWeight_cons, first]
        simp only [List.length_cons, Nat.add_sub_cancel] at bound short
        have long : 1 < more.length :=
          lt_of_pow_le (by decide) (show 16 ^ 1 ≤ char.toNat by omega) bound
        by_cases small : char.toNat < 2048
        · have light := Nat.mul_le_mul_right wide (utf8Size_le_two small)
          omega
        · have longer : 2 < more.length :=
            lt_of_pow_le (by decide) (show 16 ^ 2 ≤ char.toNat by omega) bound
          have most : 16 ^ more.length ≤ 16 ^ 4 :=
            Nat.pow_le_pow_right (by decide) (by omega)
          have three := Nat.mul_le_mul_right wide
            (utf8Size_le_three (show char.toNat < 65536 by omega))
          omega
  · have long : 2 < body.length :=
      lt_of_pow_le (by decide) (show 8 ^ 2 ≤ char.toNat by omega) bound
    have most : 8 ^ body.length ≤ 8 ^ 3 :=
      Nat.pow_le_pow_right (by decide) (by omega)
    have small := Nat.mul_le_mul_right wide
      (utf8Size_le_two (show char.toNat < 2048 by omega))
    omega

/-! ## Weights of the spans -/

/-- The characters are bytes. -/
def IsBytes (bytes : List Char) : Prop :=
  ∀ byte ∈ bytes, byte.toNat < 256

theorem isBytes_asBytes (text : Str) : IsBytes (asBytes text) := by
  intro byte member
  obtain ⟨raw, -, rfl⟩ := List.mem_map.mp member
  rw [toNat_byteChar]
  exact raw.toNat_lt

/-- A byte that is emitted as a character weighs at most twice as much. -/
theorem copied_weight (letterLe : lighter ≤ letter) (isBytes : IsBytes bytes) :
    bytesWeight lighter wide (asBytes bytes) ≤
      bytesWeight letter (2 * wide) bytes := by
  induction bytes with
  | nil => exact Nat.le_refl 0
  | cons byte bytes induction =>
      obtain ⟨small, tail⟩ := List.forall_mem_cons.mp isBytes
      rw [asBytes_cons, bytesWeight_append, bytesWeight_cons]
      refine Nat.add_le_add ?_ (induction tail)
      show charWeight lighter wide byte ≤ _
      by_cases ascii : byte.toNat < 128
      · rw [charWeight_of_ascii ascii, byteWeight, byteWeight, if_pos ascii,
          if_pos ascii]
        split_ifs
        · exact letterLe
        · exact Nat.le_refl 1
      · rw [charWeight_of_wide ascii, byteWeight, if_neg ascii]
        refine Nat.mul_le_mul_right wide ?_
        rw [utf8Size_eq]
        split_ifs <;> omega

/-- A pass weighs down no text when it weighs down no span. -/
theorem PassRewrites.weight_le {kept replaced : Str → Str → Prop} {spans : Nat}
    {before after : Str} (rewrites : PassRewrites kept replaced spans before after)
    (letterLe : lighter ≤ letter) (wideLe : narrower ≤ wide)
    (keptLe : ∀ span text, IsBytes span → kept span text →
      bytesWeight lighter narrower (asBytes text) ≤ bytesWeight letter wide span)
    (replacedLe : ∀ span text, IsBytes span → replaced span text →
      bytesWeight lighter narrower (asBytes text) ≤ bytesWeight letter wide span) :
    bytesWeight lighter narrower (asBytes after) ≤
      bytesWeight letter wide (asBytes before) := by
  rcases rewrites with ⟨-, rfl⟩ | rewritten
  · exact bytesWeight_mono letterLe wideLe _
  · have ofBytes : Rewritten (fun span text => IsBytes span ∧ kept span text)
        (fun span text => IsBytes span ∧ replaced span text) spans
        (asBytes before) after :=
      rewritten.mono
        (fun _ _ inside keeps => ⟨fun byte member =>
          isBytes_asBytes before byte (inside member), keeps⟩)
        (fun _ _ inside replaces => ⟨fun byte member =>
          isBytes_asBytes before byte (inside member), replaces⟩)
    rw [bytesWeight_asBytes]
    refine ofBytes.sum_le ?_ ?_
    · intro span text both
      rw [← bytesWeight_asBytes]
      exact keptLe span text both.1 both.2
    · intro span text both
      rw [← bytesWeight_asBytes]
      exact replacedLe span text both.1 both.2

theorem joined_weight {text : Str} (budget : Budget) :
    bytesWeight letter wide (asBytes (joinLineContinuations text budget).1) ≤
      bytesWeight letter (2 * wide) (asBytes text) := by
  obtain ⟨spans, -, rewrites⟩ := joinLineContinuations_rewrites text budget
  refine rewrites.weight_le (Nat.le_refl _) (by omega) ?_ ?_
  · rintro span _ isBytes rfl
    exact copied_weight (Nat.le_refl _) isBytes
  · rintro span _ - ⟨rfl, -⟩
    exact Nat.zero_le _

/-- What a span stands for weighs no more than the span. -/
theorem ansiCSpan_weight (balances : Balances letter wide) {span text : Str}
    (isBytes : IsBytes span) (ansiC : AnsiCSpan span text) :
    bytesWeight 1 wide (asBytes text) ≤ bytesWeight letter (2 * wide) span := by
  obtain ⟨body, behind, rfl, read⟩ := ansiC
  obtain ⟨front, content, later, escapes, shape, empty, size, rewritten⟩ :=
    readAnsiCSpan_spec read
  obtain rfl := List.length_eq_zero_iff.mp empty
  have size : body.length = content.length + 1 := by simpa using size
  have within : body = content ++ ['\''] := by
    have same := congrArg (List.take body.length) shape
    rw [List.take_left, List.nil_append] at same
    rw [same, size]
    simp [List.take_append]
  have inside : content ⊆ '$' :: '\'' :: body := by
    rw [within]
    intro byte member
    simp [member]
  have ofBytes : Rewritten (fun span text => IsBytes span ∧ Copied span text)
      Escape escapes content text :=
    rewritten.mono
      (fun _ _ among copied => ⟨fun byte member =>
        isBytes byte (inside (among member)), copied⟩)
      (fun _ _ _ escape => escape)
  have contentWeight :
      bytesWeight 1 wide (asBytes text) ≤ bytesWeight letter (2 * wide) content := by
    rw [bytesWeight_asBytes]
    refine ofBytes.sum_le ?_ ?_
    · rintro span _ ⟨isBytes, rfl⟩
      rw [← bytesWeight_asBytes]
      exact copied_weight balances.letterPos isBytes
    · intro span text escape
      rw [← bytesWeight_asBytes]
      exact escape_weight balances escape
  rw [within, bytesWeight_cons, bytesWeight_cons, bytesWeight_append]
  omega

theorem decoded_weight (balances : Balances letter wide) {text : Str}
    (budget : Budget) :
    bytesWeight 1 wide (asBytes (decodeAnsiC text budget).1) ≤
      bytesWeight letter (2 * wide) (asBytes text) := by
  obtain ⟨spans, -, rewrites⟩ := decodeAnsiC_rewrites text budget
  refine rewrites.weight_le balances.letterPos (by omega) ?_ ?_
  · rintro span text isBytes (rfl | read)
    · exact copied_weight balances.letterPos isBytes
    · rw [asBytes_of_fromUtf8 isBytes read]
      exact bytesWeight_mono balances.letterPos (by omega) span
  · exact fun span text => ansiCSpan_weight balances

/-! ## What a substitution prints -/

theorem byteLen_le_of_sublist {text longer : Str} (within : text.Sublist longer) :
    byteLen text ≤ byteLen longer := by
  induction within with
  | slnil => exact Nat.le_refl _
  | cons char _ induction =>
      rw [byteLen_cons]
      omega
  | cons_cons char _ induction =>
      rw [byteLen_cons, byteLen_cons]
      omega

/-- The words with a blank behind each. -/
def wordsLen (words : List Str) : Nat :=
  (words.map fun word => byteLen word + 1).sum

@[simp] theorem wordsLen_cons (word : Str) (words : List Str) :
    wordsLen (word :: words) = byteLen word + 1 + wordsLen words := by
  simp [wordsLen]

theorem wordsLen_le_of_sublist {words more : List Str}
    (within : words.Sublist more) : wordsLen words ≤ wordsLen more :=
  (within.map _).sum_le_sum fun _ _ => Nat.zero_le _

theorem byteLen_joinWords (words : List Str) :
    byteLen (joinWords words) ≤ wordsLen words := by
  induction words with
  | nil => exact Nat.zero_le _
  | cons word words induction =>
      cases words with
      | nil => simp [joinWords, wordsLen]
      | cons next words =>
          have blank : byteLen [' '] = 1 := rfl
          rw [wordsLen_cons, joinWords, List.intercalate_cons_cons,
            byteLen_append, byteLen_append, blank]
          exact Nat.add_le_add_left induction _

theorem wordsLen_splitOnP (text : Str) :
    wordsLen (text.splitOnP isWhitespace) ≤ byteLen text + 1 := by
  induction text with
  | nil => decide
  | cons char text induction =>
      rw [List.splitOnP_cons_eq_if_modifyHead, byteLen_cons]
      have positive := char.utf8Size_pos
      split_ifs
      · have empty : byteLen [] = 0 := rfl
        rw [wordsLen_cons, empty]
        omega
      · cases words : text.splitOnP isWhitespace with
        | nil => exact absurd words (List.splitOnP_ne_nil _ _)
        | cons first later =>
            rw [words, wordsLen_cons] at induction
            rw [List.modifyHead_cons, wordsLen_cons, byteLen_cons]
            omega

theorem stripQuotes_sublist (text : Str) : (stripQuotes text).Sublist text := by
  unfold stripQuotes
  split_ifs
  · exact (List.dropLast_sublist _).trans (List.tail_sublist _)
  · exact List.Sublist.refl _

/-- A substitution prints no more than its body holds. -/
theorem echoPrintfLiteral_le {body literal : Str}
    (prints : echoPrintfLiteral body = some literal) :
    byteLen literal ≤ byteLen body := by
  unfold echoPrintfLiteral at prints
  simp only at prints
  split_ifs at prints
  cases split : splitWhitespace (trim body) with
  | nil => simp [split] at prints
  | cons verb words =>
      simp only [split] at prints
      have whole : wordsLen (verb :: words) ≤ byteLen (trim body) + 1 :=
        split ▸ (wordsLen_le_of_sublist List.filter_sublist).trans
          (wordsLen_splitOnP _)
      rw [wordsLen_cons] at whole
      have trimmed := byteLen_le_of_sublist (trim_sublist body)
      have printed : ∀ words' : List Str, words'.Sublist words →
          byteLen (stripQuotes (trim (joinWords words'))) ≤ byteLen body := by
        intro words' within
        have stripped := byteLen_le_of_sublist
          (stripQuotes_sublist (trim (joinWords words')))
        have joined := byteLen_le_of_sublist (trim_sublist (joinWords words'))
        have spaced := byteLen_joinWords words'
        have fewer := wordsLen_le_of_sublist within
        omega
      split_ifs at prints
      · obtain rfl := Option.some.inj prints
        exact printed _ (List.dropWhile_sublist _)
      · obtain rfl := Option.some.inj prints
        exact printed _ (List.Sublist.refl _)

theorem echoSubstitution_weight {span text : Str} (isBytes : IsBytes span)
    (prints : EchoSubstitution span text) :
    bytesWeight 1 1 (asBytes text) ≤ bytesWeight 1 2 span := by
  obtain ⟨body, printed, shape⟩ := prints
  have inside : body.Sublist span := by
    rcases shape with rfl | rfl
    · exact (List.sublist_append_left _ _).trans
        ((List.sublist_cons_self _ _).trans (List.sublist_cons_self _ _))
    · exact (List.sublist_append_left _ _).trans (List.sublist_cons_self _ _)
  calc bytesWeight 1 1 (asBytes text)
      = byteLen text := bytesWeight_ones _
    _ ≤ byteLen body := echoPrintfLiteral_le printed
    _ = bytesWeight 1 1 (asBytes body) := byteLen_eq_weight body
    _ ≤ bytesWeight 1 2 body := copied_weight (Nat.le_refl 1)
        fun byte member => isBytes byte (inside.subset member)
    _ ≤ bytesWeight 1 2 span :=
        (inside.map _).sum_le_sum fun _ _ => Nat.zero_le _

theorem spliced_weight {text : Str} (budget : Budget) :
    bytesWeight 1 1 (asBytes (spliceEchoSubstitution text budget).1) ≤
      bytesWeight 1 2 (asBytes text) := by
  obtain ⟨spans, -, rewrites⟩ := spliceEchoSubstitution_rewrites text budget
  refine rewrites.weight_le (Nat.le_refl 1) (by decide) ?_ ?_
  · rintro span _ isBytes rfl
    exact copied_weight (Nat.le_refl 1) isBytes
  · exact fun span text => echoSubstitution_weight

end

/-! ## Commands that fit -/

/-- Every pass that runs is given ASCII text, and so emits no byte of a longer
character. -/
structure ReadsAscii (command : Str) : Prop where
  join : '\\' ∈ command → IsAscii command
  ansiC : contains (afterJoin command).1 "$'".toList = true →
    IsAscii (afterJoin command).1
  echo : contains (afterDecode command).1 "$(".toList = true ∨
      '`' ∈ (afterDecode command).1 →
    IsAscii (afterDecode command).1

/-- The command is returned as it is, no pass re-emits a byte outside ASCII, or
there is room for whatever the passes can make of it. -/
def Fits (command : Str) : Prop :=
  maxNormalizeBytes < byteLen command ∨ ReadsAscii command ∨
    bytesWeight 2 8 (asBytes command) ≤ maxNormalizeBytes

theorem byteLen_of_ascii {text : Str} (ascii : IsAscii text) (wide : Nat) :
    byteLen text = bytesWeight 1 wide (asBytes text) := by
  rw [asBytes_of_ascii ascii, bytesWeight_of_ascii ascii, byteLen,
    asBytes_of_ascii ascii]

theorem splicedText_le_of_readsAscii {command : Str}
    (reads : ReadsAscii command) :
    byteLen (afterSplice command).1 ≤ byteLen command := by
  have joined : byteLen (afterJoin command).1 ≤ byteLen command := by
    by_cases runs : '\\' ∈ command
    · rw [byteLen_of_ascii (reads.join runs) 2, byteLen_eq_weight]
      exact joined_weight Budget.fresh
    · rw [afterJoin, joinLineContinuations, if_pos runs]
  have decoded : byteLen (afterDecode command).1 ≤
      byteLen (afterJoin command).1 := by
    cases runs : contains (afterJoin command).1 "$'".toList with
    | true =>
        rw [byteLen_of_ascii (reads.ansiC runs) 2, byteLen_eq_weight]
        exact decoded_weight ⟨by decide, by decide, by decide, by decide⟩ _
    | false => rw [afterDecode, decodeAnsiC, if_pos runs]
  have spliced : byteLen (afterSplice command).1 ≤
      byteLen (afterDecode command).1 := by
    by_cases idle : contains (afterDecode command).1 "$(".toList = false ∧
        '`' ∉ (afterDecode command).1
    · rw [afterSplice, spliceEchoSubstitution, if_pos idle]
    · have runs : contains (afterDecode command).1 "$(".toList = true ∨
          '`' ∈ (afterDecode command).1 := by
        rw [not_and_or, not_not, Bool.not_eq_false] at idle
        exact idle
      rw [byteLen_of_ascii (reads.echo runs) 2, byteLen_eq_weight]
      exact spliced_weight _
  exact spliced.trans (decoded.trans joined)

theorem splicedText_le_weight (command : Str) :
    byteLen (afterSplice command).1 ≤ bytesWeight 2 8 (asBytes command) := by
  calc byteLen (afterSplice command).1
      = bytesWeight 1 1 (asBytes (afterSplice command).1) := byteLen_eq_weight _
    _ ≤ bytesWeight 1 2 (asBytes (afterDecode command).1) := spliced_weight _
    _ ≤ bytesWeight 2 4 (asBytes (afterJoin command).1) :=
        decoded_weight ⟨by decide, by decide, by decide, by decide⟩ _
    _ ≤ bytesWeight 2 8 (asBytes command) := joined_weight _

/-- The size of what normalization returns is within the limits. -/
def Bounded (command : Str) : Prop :=
  byteLen (normalizeCommand command).command ≤
    max (byteLen command) maxNormalizeBytes

theorem bounded_of_fits {command : Str} (fits : Fits command) :
    Bounded command := by
  unfold Bounded
  by_cases long : maxNormalizeBytes < byteLen command
  · rw [normalizeCommand_of_long long]
    exact le_max_left _ _
  · rw [normalizeCommand_of_short (Nat.le_of_not_lt long)]
    rcases fits with long' | reads | light
    · exact absurd long' long
    · exact (splicedText_le_of_readsAscii reads).trans (le_max_left _ _)
    · exact ((splicedText_le_weight command).trans light).trans (le_max_right _ _)

/-! ## Commands of one line -/

theorem joinLineContinuations_of_line {command : Str} (escapes : '\\' ∈ command)
    (line : '\n' ∉ command) (budget : Budget) :
    (joinLineContinuations command budget).1 = asBytes command := by
  have copied : ∀ state byte rest, (byte :: rest) <:+ asBytes command →
      joinStep state byte rest = (state.push byte, 0) := by
    intro state byte rest suffix
    have noBreak : '\n' ∉ rest := fun member =>
      line ((mem_asBytes_iff (by decide)).mp
        (suffix.subset (List.mem_cons_of_mem _ member)))
    unfold joinStep
    rw [if_neg, if_neg]
    · rintro ⟨-, -, second⟩
      exact noBreak (List.mem_of_mem_tail (List.mem_of_mem_head? second))
    · rintro ⟨-, first⟩
      exact noBreak (List.mem_of_mem_head? first)
  rw [joinLineContinuations, if_neg (not_not.mpr escapes)]
  simp only [walk_foldl copied, JoinState.foldl_push, List.nil_append]

theorem contains_eq_false {text : Str} {first : Char} {later : Str}
    (absent : first ∉ text) : contains text (first :: later) = false := by
  rw [contains, decide_eq_false_iff_not]
  exact fun inside => absent (inside.subset List.mem_cons_self)

/-- A command of one line that holds no construct is re-emitted byte by byte,
if it holds a backslash. -/
theorem normalizeCommand_of_line {command : Str}
    (short : byteLen command ≤ maxNormalizeBytes) (line : '\n' ∉ command)
    (noDollar : '$' ∉ command) (noTick : '`' ∉ command) :
    (normalizeCommand command).command =
      if '\\' ∈ command then asBytes command else command := by
  have joined : (afterJoin command).1 =
      if '\\' ∈ command then asBytes command else command := by
    split_ifs with escapes
    · exact joinLineContinuations_of_line escapes line Budget.fresh
    · rw [afterJoin, joinLineContinuations, if_pos escapes]
  have absent : ∀ char : Char, char.toNat < 128 → char ∉ command →
      char ∉ (afterJoin command).1 := by
    intro char ascii missing
    rw [joined]
    split_ifs
    · exact fun member => missing ((mem_asBytes_iff ascii).mp member)
    · exact missing
  have dollar := absent '$' (by decide) noDollar
  have noSpan : contains (afterJoin command).1 "$'".toList = false :=
    contains_eq_false dollar
  have noBody : contains (afterJoin command).1 "$(".toList = false :=
    contains_eq_false dollar
  have decoded : (afterDecode command).1 = (afterJoin command).1 := by
    rw [afterDecode, decodeAnsiC, if_pos noSpan]
  have spliced : (afterSplice command).1 = (afterDecode command).1 := by
    rw [afterSplice, spliceEchoSubstitution, decoded,
      if_pos ⟨noBody, absent '`' (by decide) noTick⟩]
  rw [normalizeCommand_of_short short, spliced, decoded, joined]

theorem byteLen_of_isBytes {bytes : List Char} (isBytes : IsBytes bytes) :
    byteLen bytes = bytesWeight 1 2 bytes := by
  induction bytes with
  | nil => rfl
  | cons byte bytes induction =>
      obtain ⟨small, tail⟩ := List.forall_mem_cons.mp isBytes
      rw [byteLen_cons, bytesWeight_cons, induction tail, byteWeight, ite_self,
        utf8Size_eq]
      congr 1
      split_ifs <;> omega

theorem bounded_iff_of_line {command : Str} (line : '\n' ∉ command)
    (noDollar : '$' ∉ command) (noTick : '`' ∉ command) :
    Bounded command ↔
      maxNormalizeBytes < byteLen command ∨ '\\' ∉ command ∨
        bytesWeight 1 2 (asBytes command) ≤ maxNormalizeBytes := by
  unfold Bounded
  by_cases long : maxNormalizeBytes < byteLen command
  · rw [normalizeCommand_of_long long]
    exact iff_of_true (le_max_left _ _) (.inl long)
  · have short := Nat.le_of_not_lt long
    rw [normalizeCommand_of_line short line noDollar noTick, max_eq_right short]
    by_cases escapes : '\\' ∈ command
    · rw [if_pos escapes, byteLen_of_isBytes (isBytes_asBytes command)]
      simp [long, escapes]
    · rw [if_neg escapes]
      exact iff_of_true short (.inr (.inl escapes))

/-- The splices are capped; the size is bounded for commands that fit, and for
commands of one line without constructs exactly when the bytes outside ASCII
may be doubled. -/
theorem normalizeCommand_budget (command : Str) :
    SplicesWithin command ∧ (Fits command → Bounded command) ∧
      ('\n' ∉ command → '$' ∉ command → '`' ∉ command →
        (Bounded command ↔
          maxNormalizeBytes < byteLen command ∨ '\\' ∉ command ∨
            bytesWeight 1 2 (asBytes command) ≤ maxNormalizeBytes)) :=
  ⟨splicesWithin command, bounded_of_fits, bounded_iff_of_line⟩

/-- A backslash and accents that just fit. -/
def accents : Str :=
  '\\' :: List.replicate 32767 'é'

theorem accents_not_bounded :
    byteLen accents = 65535 ∧ ¬ Bounded accents := by
  have accent : ∀ wide, charWeight 1 wide 'é' = 2 * wide := fun wide =>
    charWeight_of_wide (by decide)
  have backslash : ∀ wide, charWeight 1 wide '\\' = 1 := fun wide =>
    charWeight_of_ascii (by decide)
  have weights : ∀ wide, bytesWeight 1 wide (asBytes accents) =
      1 + 32767 * (2 * wide) := by
    intro wide
    rw [bytesWeight_asBytes, accents, List.map_cons, List.sum_cons,
      List.map_replicate, List.sum_replicate_nat, accent, backslash]
  have absent : ∀ char ∈ ['\n', '$', '`'], char ∉ accents := by
    intro char member among
    simp only [accents, List.mem_cons, List.mem_replicate] at among
    rcases among with rfl | ⟨-, rfl⟩ <;> revert member <;> decide
  have size : byteLen accents = 65535 := by
    rw [byteLen_eq_weight, weights]
  refine ⟨size, ?_⟩
  rw [bounded_iff_of_line (absent _ (by decide)) (absent _ (by decide))
    (absent _ (by decide)), size, weights, maxNormalizeBytes]
  have escapes : '\\' ∈ accents := List.mem_cons_self
  simp [escapes]

end TrustLayer.AgentGuard.Gate
