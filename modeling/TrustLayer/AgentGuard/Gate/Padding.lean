import TrustLayer.AgentGuard.Gate.Hits
import TrustLayer.AgentGuard.Gate.Printing
import TrustLayer.AgentGuard.Gate.Unchanged

/-!
# Padding in front of a command

Plain legs in front of a command pass through every stage of the gate as they
stand.  Each walker is in step on the command alone and on the padded one, as
long as no rewrite is refused for the size of the buffer; the analyses of the
first pipe stage are the ones that read the padding instead.
-/

namespace TrustLayer.AgentGuard.Gate

open TrustLayer.Library

/-! ## The padding -/

/-- A leg of word characters and spaces. -/
def PlainLeg (leg : Str) : Prop :=
  ∀ char ∈ leg, isNameChar char = true ∨ char = ' '

instance decidablePlainLeg (leg : Str) : Decidable (PlainLeg leg) :=
  inferInstanceAs (Decidable (∀ char ∈ leg, _))

/-- `"P; C"` for the padding legs of `P`, joined by semicolons. -/
def padded (legs : List Str) (command : Str) : Str :=
  [';'].intercalate legs ++ "; ".toList ++ command

/-- What the walkers need to know about the text before the command. -/
structure Padding (text : Str) : Prop where
  plain : ∀ char ∈ text, isNameChar char = true ∨ char = ' ' ∨ char = ';'
  ended : "; ".toList <:+ text

theorem padding_of_legs {legs : List Str} (plain : ∀ leg ∈ legs, PlainLeg leg) :
    Padding ([';'].intercalate legs ++ "; ".toList) := by
  constructor
  · intro char member
    rcases List.mem_append.mp member with inside | ending
    · rcases mem_intercalate inside with separates | ⟨leg, among, inLeg⟩
      · exact .inr (.inr separates)
      · rcases plain leg among char inLeg with word | space
        · exact .inl word
        · exact .inr (.inl space)
    · have shape : char = ';' ∨ char = ' ' := by simpa using ending
      rcases shape with separates | space
      · exact .inr (.inr separates)
      · exact .inr (.inl space)
  · exact List.suffix_append _ _

/-- The characters that mean something to a stage of the gate. -/
def activeChars : List Char :=
  ['\\', '$', '`', '\'', '"', '(', ')', '|', '&', '\n', '=', '<', '>']

theorem isNameChar_ascii {char : Char} (word : isNameChar char = true) :
    char.toNat < 128 ∧ char ∉ activeChars ∧ char ≠ ';' := by
  simp only [isNameChar, isAsciiAlphanumeric, isAsciiAlphabetic, isAsciiDigit,
    Bool.or_eq_true, Bool.and_eq_true, decide_eq_true_eq, beq_iff_eq] at word
  refine ⟨?_, ?_, ?_⟩
  · rcases word with ((⟨-, high⟩ | ⟨-, high⟩) | ⟨-, high⟩) | rfl
    · exact Nat.lt_of_le_of_lt (Char.le_def.mp high) (by decide)
    · exact Nat.lt_of_le_of_lt (Char.le_def.mp high) (by decide)
    · exact Nat.lt_of_le_of_lt (Char.le_def.mp high) (by decide)
    · decide
  · intro active
    revert word
    revert char
    decide
  · rintro rfl
    revert word
    decide

namespace Padding

variable {pad : Str}

theorem ascii (padding : Padding pad) : IsAscii pad := by
  intro char member
  rcases padding.plain char member with word | rfl | rfl
  · exact (isNameChar_ascii word).1
  · decide
  · decide

theorem inert (padding : Padding pad) {char : Char} (member : char ∈ pad) :
    char ∉ activeChars := by
  rcases padding.plain char member with word | rfl | rfl
  · exact (isNameChar_ascii word).2.1
  · decide
  · decide

theorem not_mem (padding : Padding pad) {char : Char}
    (active : char ∈ activeChars) : char ∉ pad :=
  fun member => padding.inert member active

end Padding

/-! ## Room for the rewrites -/

/-- Removing a line continuation here is not refused for the size. -/
def JoinFits (state : JoinState) (byte : Char) (rest : List Char) : Prop :=
  byte = '\\' ∧ (rest.head? = some '\n' ∨
      rest.head? = some '\r' ∧ rest.tail.head? = some '\n') →
    byteLen state.out ≤ state.budget.maxBytes

/-- Splicing `text` here is not refused for the size. -/
def SpliceFits (state : RewriteState) (text : Str) (sourceLen : Nat) : Prop :=
  byteLen text ≤ sourceLen * maxExpansionRatio →
    byteLen state.out + byteLen text ≤ state.budget.maxBytes

def AnsiCFits (state : RewriteState) (byte : Char) (rest : List Char) : Prop :=
  byte = '$' ∧ rest.head? = some '\'' ∧ state.inSingle = false ∧
      state.inDouble = false →
    ∀ span ∈ readAnsiCSpan rest.tail 0, SpliceFits state span.1 (span.2 + 2)

def EchoFits (state : RewriteState) (byte : Char) (rest : List Char) : Prop :=
  state.inSingle = false ∧ state.inDouble = false ∧
      atLegHead state.out = true →
    ∀ candidate ∈ spliceCandidate byte rest,
      SpliceFits state candidate.1 candidate.2.2

instance decidableJoinFits (state : JoinState) (byte : Char)
    (rest : List Char) : Decidable (JoinFits state byte rest) :=
  inferInstanceAs (Decidable (_ → _))

instance decidableSpliceFits (state : RewriteState) (text : Str)
    (sourceLen : Nat) : Decidable (SpliceFits state text sourceLen) :=
  inferInstanceAs (Decidable (_ → _))

instance decidableAnsiCFits (state : RewriteState) (byte : Char)
    (rest : List Char) : Decidable (AnsiCFits state byte rest) :=
  have : Decidable (∀ span ∈ readAnsiCSpan rest.tail 0,
      SpliceFits state span.1 (span.2 + 2)) :=
    Option.decidableForallMem _
  inferInstanceAs (Decidable (_ → _))

instance decidableEchoFits (state : RewriteState) (byte : Char)
    (rest : List Char) : Decidable (EchoFits state byte rest) :=
  have : Decidable (∀ candidate ∈ spliceCandidate byte rest,
      SpliceFits state candidate.1 candidate.2.2) :=
    Option.decidableForallMem _
  inferInstanceAs (Decidable (_ → _))

/-- The buffer of 64 KiB has room for the command and for every rewrite that
normalization tries on it. -/
def Roomy (command : Str) : Prop :=
  let budget : Budget := { rewrites := 0, maxBytes := maxNormalizeBytes }
  let joined := joinLineContinuations command budget
  let decoded := decodeAnsiC joined.1 joined.2
  byteLen command ≤ maxNormalizeBytes ∧
    AlongWalk joinStep JoinFits (asBytes command) 0 { out := [], budget } ∧
    AlongWalk ansiCStep AnsiCFits (asBytes joined.1) 0 (.start joined.2) ∧
    AlongWalk echoStep EchoFits (asBytes decoded.1) 0 (.start decoded.2)

instance decidableRoomy (command : Str) : Decidable (Roomy command) :=
  inferInstanceAs (Decidable (_ ∧ _))

/-! ## Rewriters behind the padding -/

/-- Two sizes that the buffer has room for get the same answer. -/
theorem Budget.allow_congr {budget : Budget} {shorter longer : Nat}
    (le : shorter ≤ longer) (fits : longer ≤ budget.maxBytes) :
    budget.allow longer = budget.allow shorter := by
  unfold Budget.allow
  refine if_congr ?_ rfl rfl
  exact or_congr_right (by omega)

namespace JoinState

/-- The state behind text that is already emitted. -/
def after (pad : Str) (state : JoinState) : JoinState :=
  { state with out := pad ++ state.out }

@[simp] theorem push_after (pad : Str) (state : JoinState) (byte : Char) :
    (state.after pad).push byte = (state.push byte).after pad := by
  simp [after, push]

end JoinState

theorem joinStep_after {pad : Str} {state : JoinState} {byte : Char}
    {rest : List Char} (fits : JoinFits (state.after pad) byte rest) :
    joinStep (state.after pad) byte rest =
      ((joinStep state byte rest).1.after pad, (joinStep state byte rest).2) := by
  have answer : (byte = '\\' ∧ (rest.head? = some '\n' ∨
        rest.head? = some '\r' ∧ rest.tail.head? = some '\n')) →
      (state.after pad).budget.allow (byteLen (state.after pad).out) =
        state.budget.allow (byteLen state.out) := by
    intro continues
    refine Budget.allow_congr ?_ (fits continues)
    rw [JoinState.after, byteLen_append]
    exact Nat.le_add_left _ _
  unfold joinStep
  by_cases newline : byte = '\\' ∧ rest.head? = some '\n'
  · simp only [if_pos newline, answer ⟨newline.1, .inl newline.2⟩]
    rcases state.budget.allow (byteLen state.out) with ⟨allowed, budget⟩
    cases allowed
    · simp
    · rfl
  · by_cases carriage : byte = '\\' ∧ rest.head? = some '\r' ∧
        rest.tail.head? = some '\n'
    · simp only [if_neg newline, if_pos carriage,
        answer ⟨carriage.1, .inr carriage.2⟩]
      rcases state.budget.allow (byteLen state.out) with ⟨allowed, budget⟩
      cases allowed
      · simp
      · rfl
    · simp only [if_neg newline, if_neg carriage, JoinState.push_after]

namespace RewriteState

/-- The state behind text that is already emitted. -/
def after (pad : Str) (state : RewriteState) : RewriteState :=
  { state with out := pad ++ state.out }

@[simp] theorem push_after (pad : Str) (state : RewriteState) (byte : Char) :
    (state.after pad).push byte = (state.push byte).after pad := by
  simp [after, push]

@[simp] theorem toggle_after (pad : Str) (state : RewriteState) (byte : Char) :
    (state.after pad).toggle byte = (state.toggle byte).after pad := by
  unfold toggle
  rw [apply_ite (after pad), apply_ite (after pad)]
  rfl

@[simp] theorem splice_after (pad : Str) (state : RewriteState) (text : Str)
    (budget : Budget) :
    (state.after pad).splice text budget = (state.splice text budget).after pad := by
  simp [after, splice]

end RewriteState

theorem allowSplice_after {pad : Str} {state : RewriteState} {text : Str}
    {sourceLen : Nat} (fits : SpliceFits (state.after pad) text sourceLen) :
    allowSplice (state.after pad) text sourceLen =
      allowSplice state text sourceLen := by
  unfold allowSplice
  by_cases ratio : byteLen text ≤ sourceLen * maxExpansionRatio
  · rw [if_pos ratio, if_pos ratio]
    refine Budget.allow_congr ?_ (fits ratio)
    rw [RewriteState.after, byteLen_append]
    omega
  · rw [if_neg ratio, if_neg ratio]
    rfl

theorem ansiCStep_after {pad : Str} {state : RewriteState} {byte : Char}
    {rest : List Char} (fits : AnsiCFits (state.after pad) byte rest) :
    ansiCStep (state.after pad) byte rest =
      ((ansiCStep state byte rest).1.after pad,
        (ansiCStep state byte rest).2) := by
  unfold ansiCStep
  by_cases opens : byte = '$' ∧ rest.head? = some '\'' ∧
      state.inSingle = false ∧ state.inDouble = false
  · have opened : byte = '$' ∧ rest.head? = some '\'' ∧
        (state.after pad).inSingle = false ∧
        (state.after pad).inDouble = false := opens
    rw [if_pos opens, if_pos opened]
    have spanFits := fits opened
    cases span : readAnsiCSpan rest.tail 0 with
    | none => simp
    | some found =>
        have answer := allowSplice_after (spanFits found span)
        simp only [answer]
        rcases allowSplice state found.1 (found.2 + 2) with ⟨allowed, budget⟩
        cases allowed <;> simp
  · have closed : ¬ (byte = '$' ∧ rest.head? = some '\'' ∧
        (state.after pad).inSingle = false ∧
        (state.after pad).inDouble = false) := opens
    rw [if_neg opens, if_neg closed]
    simp

/-- Padding ends at the head of a leg. -/
theorem Padding.atLegHead {pad : Str} (padding : Padding pad) (out : Str) :
    atLegHead (pad ++ out) = atLegHead out := by
  obtain ⟨front, rfl⟩ := padding.ended
  unfold Gate.atLegHead
  rw [List.reverse_append, List.dropWhile_append]
  cases blank : out.reverse.dropWhile fun char => char == ' ' || char == '\t' with
  | nil => simp
  | cons char later => simp

theorem echoStep_after {pad : Str} (padding : Padding pad)
    {state : RewriteState} {byte : Char} {rest : List Char}
    (fits : EchoFits (state.after pad) byte rest) :
    echoStep (state.after pad) byte rest =
      ((echoStep state byte rest).1.after pad, (echoStep state byte rest).2) := by
  have sameHead : atLegHead (state.after pad).out = atLegHead state.out :=
    padding.atLegHead state.out
  unfold echoStep
  by_cases heads : state.inSingle = false ∧ state.inDouble = false ∧
      atLegHead state.out = true
  · have headed : (state.after pad).inSingle = false ∧
        (state.after pad).inDouble = false ∧
        atLegHead (state.after pad).out = true := by
      rw [sameHead]
      exact heads
    rw [if_pos heads, if_pos headed]
    have candidateFits := fits headed
    cases candidate : spliceCandidate byte rest with
    | none => simp
    | some found =>
        have answer := allowSplice_after (candidateFits found candidate)
        simp only [answer]
        rcases allowSplice state found.1 found.2.2 with ⟨allowed, budget⟩
        cases allowed
        · have sameState : ({ state.after pad with budget } : RewriteState) =
              ({ state with budget } : RewriteState).after pad := rfl
          simp [sameState]
        · simp
  · have inside : ¬ ((state.after pad).inSingle = false ∧
        (state.after pad).inDouble = false ∧
        atLegHead (state.after pad).out = true) := by
      rw [sameHead]
      exact heads
    rw [if_neg heads, if_neg inside]
    simp

/-! ## The passes on padded text -/

namespace Padding

variable {pad text : Str} {budget : Budget}

theorem asBytes_append (padding : Padding pad) (text : Str) :
    asBytes (pad ++ text) = pad ++ asBytes text := by
  rw [Library.asBytes_append, asBytes_of_ascii padding.ascii]

theorem joinStep_copy (padding : Padding pad) (state : JoinState) {byte : Char}
    (member : byte ∈ pad) (rest : List Char) :
    joinStep state byte rest = (state.push byte, 0) := by
  have plain : byte ≠ '\\' := fun same =>
    padding.inert member (by rw [same]; decide)
  simp [joinStep, plain]

theorem join (padding : Padding pad)
    (along : AlongWalk joinStep JoinFits (asBytes (pad ++ text)) 0
      { out := [], budget }) :
    joinLineContinuations (pad ++ text) budget =
      (pad ++ (joinLineContinuations text budget).1,
        (joinLineContinuations text budget).2) := by
  have noEscape : '\\' ∉ pad := padding.not_mem (by decide)
  by_cases escapes : '\\' ∈ text
  · have escaped : '\\' ∈ pad ++ text := List.mem_append_right _ escapes
    rw [padding.asBytes_append] at along
    have quiet : ∀ state, ∀ byte ∈ pad, ∀ rest,
        joinStep state byte rest = (state.push byte, 0) :=
      fun state byte member rest => padding.joinStep_copy state member rest
    have kept : ∀ left right byte rest, left = JoinState.after pad right →
        JoinFits left byte rest →
        (joinStep left byte rest).2 = (joinStep right byte rest).2 ∧
          (joinStep left byte rest).1 =
            (joinStep right byte rest).1.after pad := by
      rintro left right byte rest rfl fits
      rw [joinStep_after fits]
      exact ⟨rfl, rfl⟩
    have start : pad.foldl JoinState.push ⟨[], budget⟩ =
        (JoinState.mk [] budget).after pad := by
      simp [JoinState.after, JoinState.foldl_push]
    have related := along.simulation_run kept JoinState.push quiet start
    rw [joinLineContinuations, joinLineContinuations,
      if_neg (not_not.mpr escapes), if_neg (not_not.mpr escaped),
      padding.asBytes_append]
    simp only [related]
    rfl
  · have unescaped : '\\' ∉ pad ++ text := by
      rw [List.mem_append, not_or]
      exact ⟨noEscape, escapes⟩
    rw [joinLineContinuations_of_not_mem escapes,
      joinLineContinuations_of_not_mem unescaped]

/-- Either quote-tracking rewriter copies the padding and then goes on as on
the text alone. -/
theorem walkRewriter (padding : Padding pad)
    {step : RewriteState → Char → List Char → RewriteState × Nat}
    (rewrites : Rewrites step)
    {fits : RewriteState → Char → List Char → Prop}
    (kept : ∀ state byte rest, fits (state.after pad) byte rest →
      step (state.after pad) byte rest =
        ((step state byte rest).1.after pad, (step state byte rest).2))
    (along : AlongWalk step fits (asBytes (pad ++ text)) 0 (.start budget)) :
    walk step (asBytes (pad ++ text)) 0 (.start budget) =
      (walk step (asBytes text) 0 (.start budget)).after pad := by
  have quiet : ∀ state, ∀ byte ∈ pad, ∀ rest,
      step state byte rest = (state.pushAll [byte], 0) := by
    intro state byte member rest
    have plain := padding.inert member
    simp only [activeChars, List.mem_cons, List.not_mem_nil, or_false,
      not_or] at plain
    rw [rewrites.plain state byte rest plain.2.2.1
      (fun dollar => absurd dollar plain.2.1),
      RewriteState.copy_of_plain ⟨plain.2.2.2.1, plain.2.2.2.2.1⟩]
  rw [padding.asBytes_append] at along ⊢
  have keeps : ∀ left right byte rest, left = RewriteState.after pad right →
      fits left byte rest →
      (step left byte rest).2 = (step right byte rest).2 ∧
        (step left byte rest).1 = (step right byte rest).1.after pad := by
    rintro left right byte rest rfl here
    rw [kept right byte rest here]
    exact ⟨rfl, rfl⟩
  have start :
      pad.foldl (fun state byte => state.pushAll [byte]) (.start budget) =
        (RewriteState.start budget).after pad := by
    rw [RewriteState.foldl_pushAll]
    simp [RewriteState.after, RewriteState.pushAll, RewriteState.start]
  exact along.simulation_run keeps _ quiet start

theorem decode (padding : Padding pad)
    (along : AlongWalk ansiCStep AnsiCFits (asBytes (pad ++ text)) 0
      (.start budget)) :
    decodeAnsiC (pad ++ text) budget =
      (pad ++ (decodeAnsiC text budget).1, (decodeAnsiC text budget).2) := by
  have walked := padding.walkRewriter ansiCStep_rewrites
    (fun _ _ _ fits => ansiCStep_after fits) along
  have sameGuard : contains (pad ++ text) "$'".toList =
      contains text "$'".toList := contains_append (padding.not_mem (by decide))
  rw [decodeAnsiC, decodeAnsiC, sameGuard]
  split_ifs
  · rfl
  · simp only [walked]
    rfl

theorem splice (padding : Padding pad)
    (along : AlongWalk echoStep EchoFits (asBytes (pad ++ text)) 0
      (.start budget)) :
    spliceEchoSubstitution (pad ++ text) budget =
      (pad ++ (spliceEchoSubstitution text budget).1,
        (spliceEchoSubstitution text budget).2) := by
  have walked := padding.walkRewriter echoStep_rewrites
    (fun _ _ _ fits => echoStep_after padding fits) along
  have sameGuard : contains (pad ++ text) "$(".toList =
      contains text "$(".toList := contains_append (padding.not_mem (by decide))
  have sameTick : '`' ∉ pad ++ text ↔ '`' ∉ text := by
    rw [List.mem_append, not_or]
    exact and_iff_right (padding.not_mem (by decide))
  rw [spliceEchoSubstitution, spliceEchoSubstitution, sameGuard]
  simp only [sameTick]
  split_ifs
  · rfl
  · simp only [walked]
    rfl

end Padding

/-! ## The legs of padded text -/

/-- The leg stands between two semicolons of the padding. -/
def FromPadding (pad leg : Str) : Prop :=
  (∀ char ∈ leg, char ∈ pad ∧ char ≠ ';') ∧
    ∃ char ∈ leg, isWhitespace char = false

theorem FromPadding.of_trim {pad current : Str}
    (inside : ∀ char ∈ current, char ∈ pad ∧ char ≠ ';')
    (nonempty : trim current ≠ []) : FromPadding pad (trim current) :=
  ⟨fun char member => inside char ((trim_sublist current).subset member),
    exists_visible_of_trim nonempty⟩

/-- The legs after one more is pushed, as both splitters push it. -/
theorem fromPadding_pushLeg {pad current : Str} {legs : List Str}
    (cut : ∀ leg ∈ legs, FromPadding pad leg)
    (inside : ∀ char ∈ current, char ∈ pad ∧ char ≠ ';') :
    ∀ leg ∈ if (trim current).isEmpty then legs else legs ++ [trim current],
      FromPadding pad leg := by
  intro leg member
  by_cases blank : (trim current).isEmpty = true
  · rw [if_pos blank] at member
    exact cut leg member
  · rw [if_neg blank] at member
    rcases List.mem_append.mp member with earlier | last
    · exact cut leg earlier
    · rw [List.mem_singleton.mp last]
      exact .of_trim inside (by simpa using blank)

/-- A walker that reads the padding one character at a time and cuts a leg at
each semicolon, as both splitters do. -/
structure ReadsPadding {σ : Type} (pad : Str)
    (step : σ → Char → List Char → σ × Nat) (legs : σ → List Str)
    (current : σ → Str) (outside : σ → Prop) (push : σ → Char → σ)
    (pushLeg : σ → σ) : Prop where
  step_eq : ∀ state, outside state → ∀ byte ∈ pad, ∀ rest,
    step state byte rest =
      (if byte = ';' then pushLeg state else push state byte, 0)
  outside_push : ∀ state byte, outside state → outside (push state byte)
  outside_pushLeg : ∀ state, outside state → outside (pushLeg state)
  legs_push : ∀ state byte, legs (push state byte) = legs state
  current_push : ∀ state byte,
    current (push state byte) = current state ++ [byte]
  legs_pushLeg : ∀ state, legs (pushLeg state) =
    if (trim (current state)).isEmpty then legs state
    else legs state ++ [trim (current state)]
  current_pushLeg : ∀ state, current (pushLeg state) = []

/-- The walker cuts the padding into legs and stands at the blank before the
command. -/
theorem ReadsPadding.walk_padding {σ : Type} {pad : Str}
    {step : σ → Char → List Char → σ × Nat} {legs : σ → List Str}
    {current : σ → Str} {outside : σ → Prop} {push : σ → Char → σ}
    {pushLeg : σ → σ}
    (reads : ReadsPadding pad step legs current outside push pushLeg)
    (padding : Padding pad) (start : σ) (startOutside : outside start)
    (noLegs : legs start = []) (fresh : current start = []) :
    ∃ before, outside before ∧
      (∀ leg ∈ legs (pushLeg before), FromPadding pad leg) ∧ ∀ rest,
        walk step (pad ++ rest) 0 start =
          walk step rest 0 (push (pushLeg before) ' ') := by
  obtain ⟨front, shape⟩ := padding.ended
  have within : ∀ char ∈ front ++ "; ".toList, char ∈ pad := by
    intro char member
    rwa [← shape]
  let read := fun (state : σ) (byte : Char) =>
    if byte = ';' then pushLeg state else push state byte
  let inv := fun state : σ => outside state ∧
    (∀ leg ∈ legs state, FromPadding pad leg) ∧
    ∀ char ∈ current state, char ∈ pad ∧ char ≠ ';'
  have quiet : ∀ state, inv state → ∀ byte ∈ front, ∀ rest,
      step state byte rest = (read state byte, 0) ∧ inv (read state byte) := by
    rintro state ⟨isOutside, cut, inside⟩ byte member rest
    have among := within byte (List.mem_append_left _ member)
    refine ⟨reads.step_eq state isOutside byte among rest, ?_⟩
    by_cases separates : byte = ';'
    · simp only [read, if_pos separates]
      refine ⟨reads.outside_pushLeg state isOutside, ?_, ?_⟩
      · rw [reads.legs_pushLeg]
        exact fromPadding_pushLeg cut inside
      · rw [reads.current_pushLeg]
        exact nofun
    · simp only [read, if_neg separates]
      refine ⟨reads.outside_push state byte isOutside, ?_, ?_⟩
      · rwa [reads.legs_push]
      · rw [reads.current_push]
        intro char either
        rcases List.mem_append.mp either with earlier | last
        · exact inside char earlier
        · rw [List.mem_singleton.mp last]
          exact ⟨among, separates⟩
  have startInv : inv start := by
    refine ⟨startOutside, ?_, ?_⟩
    · rw [noLegs]
      exact nofun
    · rw [fresh]
      exact nofun
  have run := fun rest => walk_run inv read quiet rest startInv
  obtain ⟨isOutside, cut, inside⟩ := (run []).2
  refine ⟨front.foldl read start, isOutside, ?_, fun rest => ?_⟩
  · rw [reads.legs_pushLeg]
    exact fromPadding_pushLeg cut inside
  · have text : pad ++ rest = front ++ ';' :: ' ' :: rest := by
      rw [← shape]
      simp
    have semicolon := reads.step_eq _ isOutside ';' (within ';' (by simp))
      (' ' :: rest)
    have space := reads.step_eq _ (reads.outside_pushLeg _ isOutside) ' '
      (within ' ' (by simp)) rest
    rw [text, (run _).1, walk_one semicolon, if_pos rfl, walk_one space,
      if_neg (by decide)]

namespace SplitState

/-- The state behind legs that are already cut, with blanks before the leg
being read. -/
def after (legs : List Str) (blank : Str) (state : SplitState) : SplitState :=
  { state with result := legs ++ state.result, current := blank ++ state.current }

variable {legs : List Str} {blank : Str} (state : SplitState)

@[simp] theorem push_after (byte : Char) :
    (state.after legs blank).push byte = (state.push byte).after legs blank := by
  simp [after, push]

@[simp] theorem inDouble_after :
    (state.after legs blank).inDouble = state.inDouble := rfl

@[simp] theorem inSingle_after :
    (state.after legs blank).inSingle = state.inSingle := rfl

@[simp] theorem extend_after (more : List Str) :
    (state.after legs blank).extend more = (state.extend more).after legs blank := by
  simp [after, extend]

theorem pushLeg_after (spaces : ∀ char ∈ blank, isWhitespace char = true) :
    (state.after legs blank).pushLeg = state.pushLeg.after legs [] := by
  simp only [after, pushLeg, trim_append_of_blank spaces]
  split_ifs <;> simp

theorem push_blank (outside : state.Outside) :
    state.pushLeg.push ' ' = start.after state.pushLeg.result [' '] := by
  simp [after, push, pushLeg, start, outside.1, outside.2]

end SplitState

/-- The left answer of a step is the right one behind `legs`. -/
def Behind (legs : List Str) (left right : SplitState × Nat) : Prop :=
  ∃ blank, (∀ char ∈ blank, isWhitespace char = true) ∧
    left = (right.1.after legs blank, right.2)

theorem Behind.ite {legs : List Str} {condition : Prop} [Decidable condition]
    {first second third fourth : SplitState × Nat}
    (positive : Behind legs first third) (negative : Behind legs second fourth) :
    Behind legs (if condition then first else second)
      (if condition then third else fourth) := by
  by_cases holds : condition
  · rw [if_pos holds, if_pos holds]
    exact positive
  · rw [if_neg holds, if_neg holds]
    exact negative

theorem splitStep_after {split : Str → List Str} {legs : List Str} {blank : Str}
    (spaces : ∀ char ∈ blank, isWhitespace char = true)
    (extraSeps : List Char) (state : SplitState) (byte : Char)
    (rest : List Char) :
    Behind legs (splitStep split extraSeps (state.after legs blank) byte rest)
      (splitStep split extraSeps state byte rest) := by
  have kept : ∀ (next : SplitState) (skip : Nat),
      Behind legs (next.after legs blank, skip) (next, skip) :=
    fun next skip => ⟨blank, spaces, rfl⟩
  have cut : ∀ (more : List Str) (skip : Nat),
      Behind legs ((state.after legs blank).pushLeg.extend more, skip)
        (state.pushLeg.extend more, skip) := by
    intro more skip
    rw [state.pushLeg_after spaces, SplitState.extend_after]
    exact ⟨[], nofun, rfl⟩
  have cutOnly : ∀ skip : Nat,
      Behind legs ((state.after legs blank).pushLeg, skip)
        (state.pushLeg, skip) := by
    intro skip
    rw [state.pushLeg_after spaces]
    exact ⟨[], nofun, rfl⟩
  unfold splitStep
  simp only [SplitState.push_after]
  refine .ite (kept _ 1)
    (.ite (kept { state.push byte with inDouble := !state.inDouble } 0)
      (.ite (kept { state.push byte with inSingle := !state.inSingle } 0)
        (.ite ?_ (kept _ 0))))
  exact .ite (cut _ _) (.ite (cut _ _) (.ite (cutOnly 1) (.ite (cutOnly 0)
    (.ite (cutOnly 0) (.ite (cutOnly 0) (kept _ 0))))))

namespace Padding

variable {pad text : Str}

/-- One padding character on the legs, as both splitters read it. -/
theorem splitStep_plain (padding : Padding pad) {split : Str → List Str}
    {state : SplitState} (outside : state.Outside) {byte : Char}
    (member : byte ∈ pad) {rest : List Char} :
    splitStep split [] state byte rest =
      (if byte = ';' then state.pushLeg else state.push byte, 0) := by
  have inert := padding.inert member
  by_cases separates : byte = ';'
  · subst separates
    rw [if_pos rfl]
    exact splitStep_separator outside (by decide) (by simp)
  · rw [if_neg separates]
    apply splitStep_copy outside
    · intro active
      simp only [metacharacters, List.mem_cons, List.not_mem_nil,
        or_false] at active
      simp [activeChars, separates] at inert active
      tauto
    · intro opener
      simp [activeChars] at inert opener
      tauto

theorem walk_split (padding : Padding pad) (split : Str → List Str) :
    ∃ legs, (∀ leg ∈ legs, FromPadding pad leg) ∧ ∀ rest,
      walk (splitStep split []) (pad ++ rest) 0 .start =
        walk (splitStep split []) rest 0
          (SplitState.start.after legs [' ']) := by
  have reads : ReadsPadding pad (splitStep split []) SplitState.result
      SplitState.current SplitState.Outside SplitState.push
      SplitState.pushLeg := {
    step_eq := fun _ outside _ member _ =>
      padding.splitStep_plain outside member
    outside_push := fun _ _ outside => outside
    outside_pushLeg := fun _ outside => outside
    legs_push := fun _ _ => rfl
    current_push := fun _ _ => rfl
    legs_pushLeg := fun _ => rfl
    current_pushLeg := fun _ => rfl }
  obtain ⟨before, outside, cut, walked⟩ :=
    reads.walk_padding padding .start ⟨rfl, rfl⟩ rfl rfl
  refine ⟨before.pushLeg.result, cut, fun rest => ?_⟩
  rw [walked, SplitState.push_blank _ outside]

theorem splitCompound (padding : Padding pad) (text : Str) :
    ∃ legs, (∀ leg ∈ legs, FromPadding pad leg) ∧
      Gate.splitCompound (pad ++ text) = legs ++ Gate.splitCompound text := by
  obtain ⟨legs, cut, walked⟩ := padding.walk_split Gate.splitCompound
  have kept : ∀ left right byte rest,
      (∃ blank, (∀ char ∈ blank, isWhitespace char = true) ∧
        left = SplitState.after legs blank right) →
      (splitStep Gate.splitCompound [] left byte rest).2 =
          (splitStep Gate.splitCompound [] right byte rest).2 ∧
        ∃ blank, (∀ char ∈ blank, isWhitespace char = true) ∧
          (splitStep Gate.splitCompound [] left byte rest).1 =
            (splitStep Gate.splitCompound [] right byte rest).1.after legs
              blank := by
    rintro left right byte rest ⟨blank, spaces, rfl⟩
    obtain ⟨next, blanks, same⟩ :=
      @splitStep_after Gate.splitCompound legs blank spaces [] right byte rest
    rw [same]
    exact ⟨rfl, next, blanks, rfl⟩
  obtain ⟨blank, spaces, related⟩ := walk_simulation kept (asBytes text)
    (⟨[' '], by decide, rfl⟩ :
      ∃ blank, (∀ char ∈ blank, isWhitespace char = true) ∧
        SplitState.start.after legs [' '] = SplitState.start.after legs blank)
  refine ⟨legs, cut, ?_⟩
  rw [splitCompound_eq, splitCompound_eq, padding.asBytes_append, walked,
    related, SplitState.pushLeg_after _ spaces]
  rfl

end Padding

namespace LegState

/-- The state behind legs that are already cut, with blanks before the leg
being read. -/
def after (legs : List Str) (blank : Str) (state : LegState) : LegState :=
  { state with legs := legs ++ state.legs, current := blank ++ state.current }

variable {legs : List Str} {blank : Str} (state : LegState)

theorem toggle_after (byte : Char) :
    (state.after legs blank).toggle byte = (state.toggle byte).after legs blank := by
  unfold toggle
  rw [apply_ite (after legs blank), apply_ite (after legs blank)]
  rfl

theorem pushLeg_after (spaces : ∀ char ∈ blank, isWhitespace char = true) :
    (state.after legs blank).pushLeg = state.pushLeg.after legs [] := by
  simp only [after, pushLeg, trim_append_of_blank spaces]
  split_ifs <;> simp

/-- No quote is open. -/
def Outside (state : LegState) : Prop :=
  state.inSingle = false ∧ state.inDouble = false

theorem push_blank (outside : state.Outside) :
    state.pushLeg.push ' ' = start.after state.pushLeg.legs [' '] := by
  simp [after, push, pushLeg, start, outside.1, outside.2]

end LegState

theorem topLevelStep_after {legs : List Str} {blank : Str}
    (spaces : ∀ char ∈ blank, isWhitespace char = true) (state : LegState)
    (byte : Char) (rest : List Char) :
    ∃ next, (∀ char ∈ next, isWhitespace char = true) ∧
      topLevelStep (state.after legs blank) byte rest =
        ((topLevelStep state byte rest).1.after legs next,
          (topLevelStep state byte rest).2) := by
  unfold topLevelStep
  rw [state.toggle_after]
  set toggled := state.toggle byte
  by_cases cuts : toggled.inSingle = false ∧ toggled.inDouble = false ∧
      (byte = ';' ∨ byte = '\n' ∨ byte = '&')
  · refine ⟨[], nofun, ?_⟩
    have cutsAfter : (toggled.after legs blank).inSingle = false ∧
        (toggled.after legs blank).inDouble = false ∧
        (byte = ';' ∨ byte = '\n' ∨ byte = '&') := cuts
    simp only [if_pos cuts, if_pos cutsAfter, toggled.pushLeg_after spaces]
  · refine ⟨blank, spaces, ?_⟩
    have copiesAfter : ¬ ((toggled.after legs blank).inSingle = false ∧
        (toggled.after legs blank).inDouble = false ∧
        (byte = ';' ∨ byte = '\n' ∨ byte = '&')) := cuts
    simp only [if_neg cuts, if_neg copiesAfter]
    simp [LegState.after, LegState.push]

namespace Padding

variable {pad text : Str}

theorem topLevelStep_plain (padding : Padding pad) {state : LegState}
    (outside : state.Outside) {byte : Char} (member : byte ∈ pad)
    (rest : List Char) :
    topLevelStep state byte rest =
      (if byte = ';' then state.pushLeg else state.push byte, 0) := by
  have inert := padding.inert member
  simp only [activeChars, List.mem_cons, List.not_mem_nil, or_false,
    not_or] at inert
  simp only [topLevelStep, LegState.toggle, inert, outside.1, outside.2,
    false_and, if_false, or_false, true_and]
  split_ifs <;> rfl

theorem walk_topLevel (padding : Padding pad) :
    ∃ legs, (∀ leg ∈ legs, FromPadding pad leg) ∧ ∀ rest,
      walk topLevelStep (pad ++ rest) 0 .start =
        walk topLevelStep rest 0 (LegState.start.after legs [' ']) := by
  have reads : ReadsPadding pad topLevelStep LegState.legs LegState.current
      LegState.Outside LegState.push LegState.pushLeg := {
    step_eq := fun _ outside _ member rest =>
      padding.topLevelStep_plain outside member rest
    outside_push := fun _ _ outside => outside
    outside_pushLeg := fun _ outside => outside
    legs_push := fun _ _ => rfl
    current_push := fun _ _ => rfl
    legs_pushLeg := fun _ => rfl
    current_pushLeg := fun _ => rfl }
  obtain ⟨before, outside, cut, walked⟩ :=
    reads.walk_padding padding .start ⟨rfl, rfl⟩ rfl rfl
  refine ⟨before.pushLeg.legs, cut, fun rest => ?_⟩
  rw [walked, LegState.push_blank _ outside]

theorem topLevelLegs (padding : Padding pad) (text : Str) :
    ∃ legs, (∀ leg ∈ legs, FromPadding pad leg) ∧
      Gate.topLevelLegs (pad ++ text) = legs ++ Gate.topLevelLegs text := by
  obtain ⟨legs, cut, walked⟩ := padding.walk_topLevel
  have kept : ∀ left right byte rest,
      (∃ blank, (∀ char ∈ blank, isWhitespace char = true) ∧
        left = LegState.after legs blank right) →
      (topLevelStep left byte rest).2 = (topLevelStep right byte rest).2 ∧
        ∃ blank, (∀ char ∈ blank, isWhitespace char = true) ∧
          (topLevelStep left byte rest).1 =
            (topLevelStep right byte rest).1.after legs blank := by
    rintro left right byte rest ⟨blank, spaces, rfl⟩
    obtain ⟨next, blanks, same⟩ :=
      @topLevelStep_after legs blank spaces right byte rest
    rw [same]
    exact ⟨rfl, next, blanks, rfl⟩
  obtain ⟨blank, spaces, related⟩ := walk_simulation kept (asBytes text)
    (⟨[' '], by decide, rfl⟩ :
      ∃ blank, (∀ char ∈ blank, isWhitespace char = true) ∧
        LegState.start.after legs [' '] = LegState.start.after legs blank)
  refine ⟨legs, cut, ?_⟩
  rw [Gate.topLevelLegs, Gate.topLevelLegs, padding.asBytes_append, walked,
    related, LegState.pushLeg_after _ spaces]
  rfl

end Padding

/-! ## Normalization of padded text -/

namespace FromPadding

variable {pad leg : Str}

theorem not_mem (padding : Padding pad) (taken : FromPadding pad leg)
    {char : Char} (active : char ∈ activeChars) : char ∉ leg :=
  fun member => padding.not_mem active (taken.1 char member).1

theorem ifsSeparator (padding : Padding pad) (taken : FromPadding pad leg) :
    Gate.ifsSeparator leg = none := by
  have noEquals : '=' ∉ trim leg := fun member =>
    taken.not_mem padding (by decide) ((trim_sublist leg).subset member)
  have noFront : ¬ "IFS=".toList.isPrefixOf (trim leg) = true := by
    intro front
    obtain ⟨later, shape⟩ := List.isPrefixOf_iff_prefix.mp front
    exact noEquals (by rw [← shape]; simp)
  rw [Gate.ifsSeparator, stripPrefix, if_neg noFront]

end FromPadding

namespace Padding

variable {pad text : Str}

theorem collectIfsSeparators (padding : Padding pad) (text : Str) :
    Gate.collectIfsSeparators (pad ++ text) = Gate.collectIfsSeparators text := by
  obtain ⟨legs, cut, same⟩ := padding.topLevelLegs text
  unfold Gate.collectIfsSeparators
  rw [same, List.foldl_append]
  congr 1
  clear same
  induction legs with
  | nil => rfl
  | cons leg legs induction =>
      obtain ⟨head, tail⟩ := List.forall_mem_cons.mp cut
      rw [List.foldl_cons, head.ifsSeparator padding]
      exact induction tail

theorem normalizeCommand (padding : Padding pad) (roomy : Roomy (pad ++ text)) :
    Gate.normalizeCommand (pad ++ text) =
      { command := pad ++ (Gate.normalizeCommand text).command
        extraSeparators := (Gate.normalizeCommand text).extraSeparators } := by
  obtain ⟨fits, joining, decoding, splicing⟩ := roomy
  have shorter : byteLen text ≤ maxNormalizeBytes := by
    rw [byteLen_append] at fits
    omega
  have joined := padding.join joining
  rw [joined] at decoding splicing
  have decoded := padding.decode decoding
  rw [decoded] at splicing
  have spliced := padding.splice splicing
  unfold Gate.normalizeCommand
  rw [if_neg (by omega), if_neg (by omega)]
  simp only [joined, decoded, spliced, padding.collectIfsSeparators]

end Padding

/-! ## Hits behind the padding -/

theorem parseAssignment_of_not_mem {leg : Str} (noEquals : '=' ∉ leg) :
    parseAssignment leg = none := by
  have notFound : splitFirst "=".toList leg = none := by
    induction leg with
    | nil => rfl
    | cons char leg induction =>
        obtain ⟨head, tail⟩ := not_or.mp (mt List.mem_cons.mpr noEquals)
        rw [splitFirst, if_neg (by simp [head]), induction tail]
        rfl
  rw [parseAssignment, notFound]

theorem resolve_behind (legs : List Str) (vars : Vars) (before out : List Str) :
    (legs.foldl resolveStep (vars, before ++ out)).2 =
      before ++ (legs.foldl resolveStep (vars, out)).2 := by
  induction legs generalizing vars out with
  | nil => rfl
  | cons leg legs induction =>
      simp only [List.foldl_cons, resolveStep, List.append_assoc]
      exact induction _ _

/-- Legs without an assignment change nothing for the legs after them. -/
theorem resolveAssignments_append {before : List Str}
    (unbound : ∀ leg ∈ before, parseAssignment leg = none) (legs : List Str) :
    resolveAssignments (before ++ legs) =
      before.map asBytes ++ resolveAssignments legs := by
  rw [resolveAssignments, List.foldl_append, resolve_unbound unbound,
    List.nil_append, ← List.append_nil (before.map asBytes), resolve_behind]
  simp [resolveAssignments]

theorem rebuildLegs_append {pad : Str} (padding : Padding pad)
    {before : List Str} (cut : ∀ leg ∈ before, FromPadding pad leg)
    (extraSeps : List Char) (legs : List Str) :
    rebuildLegs extraSeps false (before ++ legs) =
      before ++ rebuildLegs extraSeps false legs := by
  induction before with
  | nil => rfl
  | cons leg before induction =>
      obtain ⟨head, tail⟩ := List.forall_mem_cons.mp cut
      have noFront : "IFS=".toList.isPrefixOf (trimStart leg) = false := by
        rw [Bool.eq_false_iff]
        intro front
        obtain ⟨later, shape⟩ := List.isPrefixOf_iff_prefix.mp front
        have member : '=' ∈ trimStart leg := by
          rw [← shape]
          simp
        exact head.not_mem padding (by decide)
          ((List.dropWhile_sublist _).subset member)
      simp only [List.cons_append, rebuildLegs, noFront, Bool.or_self,
        Bool.false_eq_true, if_false, induction tail]

theorem fetchThenShell_mono {heads : List Str}
    (found : fetchThenShell false heads = true) :
    fetchThenShell true heads = true := by
  induction heads with
  | nil => cases found
  | cons head heads induction =>
      unfold fetchThenShell at found ⊢
      by_cases fetches : isFetch head = true
      · rwa [if_pos fetches] at found ⊢
      · rw [if_neg fetches, Bool.false_and, if_neg (by decide)] at found
        rw [if_neg fetches]
        split_ifs
        · rfl
        · exact induction found

/-- A fetch and a shell after the first stage are found whatever the first
stage is. -/
theorem fetchPipeToShell_isSome {command : Str}
    (found : fetchThenShell false
      ((splitChar '|' command).tail.map stageHead) = true) :
    fetchPipeToShell command =
      some ("curl-wget-pipe-shell".toList, 9, "remote-exec".toList) := by
  unfold fetchPipeToShell
  cases stages : splitChar '|' command with
  | nil => simp [stages, fetchThenShell] at found
  | cons first later =>
      rw [stages, List.tail_cons] at found
      have several : ¬ (first :: later).length < 2 := by
        cases later with
        | nil => simp [fetchThenShell] at found
        | cons second later => simp
      have whole : fetchThenShell false ((first :: later).map stageHead) = true := by
        rw [List.map_cons, fetchThenShell, Bool.false_and,
          if_neg (by decide : ¬ false = true)]
        by_cases fetches : isFetch (stageHead first) = true
        · rw [if_pos fetches]
          exact fetchThenShell_mono found
        · rw [if_neg fetches]
          exact found
      simp only [if_neg several, if_pos whole]

theorem mForkBomb_append {text : Str} (found : mForkBomb text = true)
    (before : Str) : mForkBomb (before ++ text) = true := by
  simp only [mForkBomb, contains, decide_eq_true_eq] at found ⊢
  rw [List.filter_append]
  exact found.trans (List.suffix_append _ _).isInfix

def fetchHit (command : Str) : Hit :=
  { severity := 9, leg := command
    label := labelled "fetch-piped-to-shell".toList
      "curl-wget-pipe-shell".toList }

def forkBombHit (command : Str) : Hit :=
  { severity := 9, leg := command
    label := labelled "dos".toList "fork-bomb".toList }

theorem fetchHit_mem {command : Str}
    (found : fetchThenShell false
      ((splitChar '|' command).tail.map stageHead) = true) :
    fetchHit command ∈ presplitHits command := by
  simp [presplitHits, fetchHit, fetchPipeToShell_isSome found]

theorem forkBombHit_mem {command : Str} (found : mForkBomb command = true) :
    forkBombHit command ∈ presplitHits command := by
  simp [presplitHits, forkBombHit, forkBombPresplit, found]

section

variable [Base64Engine]

/-- The hits of a command but those of the two analyses that read the head of
the first pipe stage: a fetch in that stage, and a payload to decode. -/
inductive StageFreeHit (config : Config) (input : Normalized) : Hit → Prop where
  | fetch :
      fetchThenShell false
        ((splitChar '|' input.command).tail.map stageHead) = true →
      StageFreeHit config input (fetchHit input.command)
  | forkBomb :
      mForkBomb input.command = true →
      StageFreeHit config input (forkBombHit input.command)
  | leg {leg : Str} {hit : Hit} :
      leg ∈ resolveAssignments (splitCompound input.command) →
      LegHit config leg 0 hit →
      StageFreeHit config input hit
  | ifs {hit : Hit} :
      input.extraSeparators ≠ [] →
      ifsResplitBlock input.command input.extraSeparators config = some hit →
      StageFreeHit config input hit

variable {config : Config} {input : Normalized} {hit : Hit}

theorem StageFreeHit.gateHit (free : StageFreeHit config input hit) :
    GateHit config input hit := by
  cases free with
  | fetch found => exact .presplit (fetchHit_mem found)
  | forkBomb found => exact .presplit (forkBombHit_mem found)
  | leg member legHit => exact .leg member legHit
  | ifs separators result => exact .ifs separators result

theorem ifsResplitBlock_eq_some {command : Str} {extraSeps : List Char} :
    ifsResplitBlock command extraSeps config = some hit ↔
      scanLegs (resolveAssignments
        (rebuildLegs extraSeps false (splitCompound command))) 0 config none =
          some hit ∧ config.thresholds.blockAt ≤ hit.severity := by
  unfold ifsResplitBlock
  cases found : scanLegs (resolveAssignments
      (rebuildLegs extraSeps false (splitCompound command))) 0 config none with
  | none => simp [found]
  | some worst =>
      have blocks : severityToTier worst.severity config.thresholds = .block ↔
          config.thresholds.blockAt ≤ worst.severity := by
        unfold severityToTier
        split_ifs <;> simp_all
      by_cases reached : config.thresholds.blockAt ≤ worst.severity
      · simp only [found, blocks, if_pos reached, Option.some.injEq]
        constructor
        · rintro rfl
          exact ⟨rfl, reached⟩
        · exact And.left
      · simp only [found, blocks, if_neg reached, Option.some.injEq]
        constructor
        · nofun
        · rintro ⟨rfl, high⟩
          exact absurd high reached

/-- Legs in front of the others never lower what the re-split finds. -/
theorem ifsResplitBlock_append {pad : Str} (padding : Padding pad)
    {command : Str} {extraSeps : List Char}
    (found : ifsResplitBlock command extraSeps config = some hit) :
    ∃ worse, ifsResplitBlock (pad ++ command) extraSeps config = some worse ∧
      hit.severity ≤ worse.severity := by
  obtain ⟨before, cut, split⟩ := padding.splitCompound command
  have unbound : ∀ leg ∈ before, parseAssignment leg = none :=
    fun leg member => parseAssignment_of_not_mem
      ((cut leg member).not_mem padding (by decide))
  have nothing : IsWorst (fun _ => False) none := fun _ none => none
  obtain ⟨scanned, reached⟩ := ifsResplitBlock_eq_some.mp found
  have alone := @scanLegs_worst _ config (resolveAssignments
    (rebuildLegs extraSeps false (splitCompound command))) 0 _ _ nothing
  have behind := @scanLegs_worst _ config (resolveAssignments
    (rebuildLegs extraSeps false (splitCompound (pad ++ command)))) 0 _ _ nothing
  rw [scanned] at alone
  obtain ⟨-, member, legHit⟩ | ⟨leg, member, legHit⟩ := alone.1
  have kept : leg ∈ resolveAssignments
      (rebuildLegs extraSeps false (splitCompound (pad ++ command))) := by
    rw [split, rebuildLegs_append padding cut, resolveAssignments_append unbound]
    exact List.mem_append_right _ member
  cases result : scanLegs (resolveAssignments
      (rebuildLegs extraSeps false (splitCompound (pad ++ command)))) 0 config
      none with
  | none =>
      rw [result] at behind
      exact absurd (.inr ⟨leg, kept, legHit⟩) (behind hit)
  | some worse =>
      rw [result] at behind
      have le := behind.2 hit (.inr ⟨leg, kept, legHit⟩)
      exact ⟨worse, ifsResplitBlock_eq_some.mpr ⟨result, reached.trans le⟩, le⟩

theorem StageFreeHit.behind {pad : Str} (padding : Padding pad)
    (free : StageFreeHit config input hit) :
    ∃ worse, GateHit config
        { command := pad ++ input.command
          extraSeparators := input.extraSeparators } worse ∧
      hit.severity ≤ worse.severity := by
  cases free with
  | fetch found =>
      rw [← splitChar_append_tail (padding.not_mem (by decide))] at found
      exact ⟨fetchHit (pad ++ input.command), .presplit (fetchHit_mem found),
        le_rfl⟩
  | forkBomb found =>
      have behind := mForkBomb_append found pad
      exact ⟨forkBombHit (pad ++ input.command),
        .presplit (forkBombHit_mem behind), le_rfl⟩
  | leg member legHit =>
      obtain ⟨before, cut, split⟩ := padding.splitCompound input.command
      have unbound : ∀ leg ∈ before, parseAssignment leg = none :=
        fun leg member => parseAssignment_of_not_mem
          ((cut leg member).not_mem padding (by decide))
      refine ⟨hit, .leg ?_ legHit, le_rfl⟩
      rw [split, resolveAssignments_append unbound]
      exact List.mem_append_right _ member
  | ifs separators result =>
      obtain ⟨worse, found, le⟩ := ifsResplitBlock_append padding result
      exact ⟨worse, .ifs separators found, le⟩

/-- The command is allowed, or its tier is that of a hit which does not depend
on the head of the first pipe stage. -/
def StageFree (command : Str) : Prop :=
  (evaluate command .default).tier = .allow ∨
    ∃ hit, StageFreeHit .default (scanInput command .default) hit ∧
      severityToTier hit.severity Config.default.thresholds =
        (evaluate command .default).tier

/-- Padding never lowers the tier of a command, as long as the buffer has room
and the first pipe stage does not decide. -/
theorem evaluate_padded_rank {legs : List Str} {command : Str}
    (plain : ∀ leg ∈ legs, PlainLeg leg) (roomy : Roomy (padded legs command))
    (free : StageFree command) :
    (evaluate command .default).tier.rank ≤
      (evaluate (padded legs command) .default).tier.rank := by
  rcases free with allowed | ⟨hit, free, tier⟩
  · rw [allowed]
    exact Nat.zero_le _
  · have padding := padding_of_legs plain
    have normalized : scanInput (padded legs command) .default =
        { command := ([';'].intercalate legs ++ "; ".toList) ++
            (scanInput command .default).command
          extraSeparators := (scanInput command .default).extraSeparators } :=
      padding.normalizeCommand roomy
    obtain ⟨worse, gateHit, le⟩ := free.behind padding
    rw [← normalized] at gateHit
    have isWorst := worstHit_worst (scanInput (padded legs command) .default)
      Config.default
    rw [← tier, @evaluate_tier _ .default (padded legs command) rfl rfl]
    cases result : worstHit (scanInput (padded legs command) .default)
        Config.default with
    | none =>
        rw [result] at isWorst
        exact absurd gateHit (isWorst worse)
    | some worst =>
        rw [result] at isWorst
        exact severityToTier_mono _ (le.trans (isWorst.2 worse gateHit))

end

/-- A removal behind an ANSI-C span, which only normalization uncovers. -/
def ansiRemoval : Str := "$'\\x72\\x6d' -rf ~".toList

theorem stageFree_ansiRemoval : @StageFree .standard ansiRemoval := by
  have rated : RatedBlock "rm -rf ~".toList := by decide
  obtain ⟨hit, legHit, severe⟩ :=
    @RatedBlock.legHit .standard _ rated .default 0
  have blocked : (@evaluate .standard ansiRemoval .default).tier = .block := by
    decide
  have surfaced : "rm -rf ~".toList ∈ resolveAssignments
      (splitCompound (scanInput ansiRemoval .default).command) := by
    decide
  refine .inr ⟨hit, @StageFreeHit.leg .standard _ _ _ _ surfaced legHit, ?_⟩
  rw [blocked]
  exact if_pos severe

theorem evaluate_padded_rank_ansiRemoval :
    (@evaluate .standard ansiRemoval .default).tier.rank = 3 ∧
      3 ≤ (@evaluate .standard (padded ["ls a".toList, "b".toList] ansiRemoval)
        .default).tier.rank := by
  have blocked : (@evaluate .standard ansiRemoval .default).tier.rank = 3 := by
    decide
  refine ⟨blocked, ?_⟩
  have kept := @evaluate_padded_rank .standard ["ls a".toList, "b".toList]
    ansiRemoval (by decide) (by decide) stageFree_ansiRemoval
  omega

/-! ## Padding that hides a command -/

/-- A leg of blanks alone. -/
def blankPadding (count : Nat) : List Str := [List.replicate count ' ']

theorem blankPadding_plain (count : Nat) :
    ∀ leg ∈ blankPadding count, PlainLeg leg := by
  intro leg member char inLeg
  rw [List.mem_singleton.mp member] at inLeg
  exact .inr (List.eq_of_mem_replicate inLeg)

/-- Normalization gives up on a command behind too many blanks. -/
theorem scanInput_blankPadding {count : Nat} (many : maxNormalizeBytes ≤ count)
    (command : Str) :
    scanInput (padded (blankPadding count) command) .default =
      { command := padded (blankPadding count) command
        extraSeparators := [] } := by
  have blanks : byteLen (List.replicate count ' ') = count := by
    rw [byteLen, asBytes_of_ascii, List.length_replicate]
    intro char member
    rw [List.eq_of_mem_replicate member]
    decide
  have ending : byteLen "; ".toList = 2 := by decide
  have large : byteLen (padded (blankPadding count) command) >
      maxNormalizeBytes := by
    rw [padded, blankPadding, List.intercalate_singleton, byteLen_append,
      byteLen_append, blanks, ending]
    omega
  exact if_pos large

/-- The legs of the padding are blank, so only those of the command are left. -/
theorem splitCompound_blankPadding (count : Nat) (command : Str) :
    splitCompound (padded (blankPadding count) command) =
      splitCompound command := by
  obtain ⟨legs, cut, split⟩ :=
    (padding_of_legs (blankPadding_plain count)).splitCompound command
  have none : legs = [] := by
    rw [List.eq_nil_iff_forall_not_mem]
    intro leg member
    obtain ⟨inside, char, among, visible⟩ := cut leg member
    obtain ⟨inPad, notCut⟩ := inside char among
    rcases List.mem_append.mp inPad with blank | ending
    · rw [blankPadding, List.intercalate_singleton] at blank
      rw [List.eq_of_mem_replicate blank] at visible
      exact absurd visible (by decide)
    · have shape : char = ';' ∨ char = ' ' := by simpa using ending
      rcases shape with rfl | rfl
      · exact notCut rfl
      · exact absurd visible (by decide)
  rw [none, List.nil_append] at split
  exact split

theorem splitChar_blankPadding (count : Nat) :
    splitChar '|' (padded (blankPadding count) ansiRemoval) =
      [padded (blankPadding count) ansiRemoval] := by
  have noPipe : ∀ char ∈ padded (blankPadding count) ansiRemoval,
      (char == '|') = false := by
    intro char member
    rw [beq_eq_false_iff_ne]
    rintro rfl
    rcases List.mem_append.mp member with inPad | inCommand
    · exact (padding_of_legs (blankPadding_plain count)).not_mem (by decide) inPad
    · exact absurd inCommand (by decide)
  rw [splitChar, List.splitOn_eq_splitOnP, List.splitOnP_eq_singleton noPipe]

theorem presplitHits_blankPadding (count : Nat) :
    presplitHits (padded (blankPadding count) ansiRemoval) = [] := by
  have noFetch :
      fetchPipeToShell (padded (blankPadding count) ansiRemoval) = none := by
    rw [fetchPipeToShell, splitChar_blankPadding]
    rfl
  have visible : (padded (blankPadding count) ansiRemoval).filter
      (fun char => !isWhitespace char) =
      ("; ".toList ++ ansiRemoval).filter fun char => !isWhitespace char := by
    rw [padded, blankPadding, List.intercalate_singleton, List.append_assoc,
      List.filter_append, List.filter_replicate_of_neg (by decide),
      List.nil_append]
  have noFork : mForkBomb (padded (blankPadding count) ansiRemoval) = false := by
    rw [mForkBomb, visible]
    decide
  simp [presplitHits, noFetch, forkBombPresplit, noFork]

theorem decodeAndExpand_blankPadding [Base64Engine] (count : Nat) :
    decodeAndExpand (padded (blankPadding count) ansiRemoval) 0 = none := by
  have blank : ∀ char ∈ List.replicate count ' ', isWhitespace char = true := by
    intro char member
    rw [List.eq_of_mem_replicate member]
    decide
  have stage : trim (padded (blankPadding count) ansiRemoval) =
      trim ("; ".toList ++ ansiRemoval) := by
    rw [padded, blankPadding, List.intercalate_singleton, List.append_assoc,
      trim_append_of_blank blank]
  apply decodeAndExpand_of_no_stage
  rw [hasBase64DecodeStage, splitChar_blankPadding, List.any_cons, stage]
  decide

theorem evaluate_blankPadding {count : Nat} (many : maxNormalizeBytes ≤ count) :
    (@evaluate .standard (padded (blankPadding count) ansiRemoval)
      .default).tier = .allow := by
  have nothing : @scanLegs .standard
      (resolveAssignments (splitCompound ansiRemoval)) 0 .default none = none := by
    decide
  rw [@evaluate_tier .standard .default _ rfl rfl, scanInput_blankPadding many]
  simp only [worstHit, presplitHits_blankPadding, considerAll, List.foldl_nil,
    @decodeAndExpand_blankPadding .standard count, splitCompound_blankPadding,
    nothing, List.isEmpty_nil, if_true, worstTier]

/-- Blanks beyond the size of the buffer hide the span, and a first stage that
starts with another leg hides the fetch and the payload. -/
theorem padding_launders :
    ((∀ leg ∈ blankPadding maxNormalizeBytes, PlainLeg leg) ∧
      (@evaluate .standard ansiRemoval .default).tier = .block ∧
      (@evaluate .standard (padded (blankPadding maxNormalizeBytes) ansiRemoval)
        .default).tier = .allow) ∧
    ((∀ leg ∈ ["ls".toList], PlainLeg leg) ∧
      (@evaluate .standard "curl x | sh".toList .default).tier = .block ∧
      (@evaluate .standard (padded ["ls".toList] "curl x | sh".toList)
        .default).tier = .allow) ∧
    ((∀ leg ∈ ["ls".toList], PlainLeg leg) ∧
      (@evaluate .standard "echo cm0gLXJmIH4= | base64 -d | sh".toList
        .default).tier = .block ∧
      (@evaluate .standard (padded ["ls".toList]
        "echo cm0gLXJmIH4= | base64 -d | sh".toList) .default).tier = .allow) := by
  refine ⟨⟨blankPadding_plain _, by decide,
      evaluate_blankPadding (Nat.le_refl _)⟩,
    ⟨by decide, by decide, by decide⟩,
    ⟨by decide, by decide, by decide⟩⟩

end TrustLayer.AgentGuard.Gate
