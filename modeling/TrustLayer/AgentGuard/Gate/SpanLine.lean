import TrustLayer.AgentGuard.Gate.Padding
import TrustLayer.AgentGuard.Gate.QuoteState

/-!
# A span behind a leg

The line `L ; $'\x72\x6d' -rf ~`: where no walker reads a quote of the leg `L`
in its own way, the span behind it is decoded and the removal surfaces as a leg
of its own.
-/

namespace TrustLayer.AgentGuard.Gate

open TrustLayer.Library

/-! ## The removal as a leg -/

def removal : Str := "rm -rf ~".toList

/-- What normalization leaves behind the leg. -/
def laterRemoval : Str := " ; ".toList ++ removal

theorem laterRemoval_eq : laterRemoval = ' ' :: ';' :: ' ' :: removal := by
  decide

section

variable {state : SplitState}

theorem removal_mem_semicolon (outside : state.Outside) :
    removal ∈ (walk (splitStep splitCompound []) (';' :: ' ' :: removal) 0
      state).pushLeg.result := by
  have semicolon := @splitStep_separator splitCompound state ';' (' ' :: removal)
    outside (by decide) (by decide)
  have cut : state.pushLeg.Outside := outside
  have words : ∀ char ∈ ' ' :: removal, char ∉ metacharacters := by
    decide
  have copied := @walk_plain splitCompound state.pushLeg (' ' :: removal) [] cut
    words (by simp)
  rw [List.append_nil, walk_nil] at copied
  rw [walk_one semicolon, copied]
  have leg : trim (' ' :: removal) = removal := by decide
  have visible : removal.isEmpty = false := by decide
  simp [SplitState.pushLeg, SplitState.pushAll, leg, visible]

theorem removal_mem_blank (outside : state.Outside) :
    removal ∈ (walk (splitStep splitCompound []) laterRemoval 0
      state).pushLeg.result := by
  have blank := @splitStep_copy splitCompound state ' ' (';' :: ' ' :: removal)
    outside (by decide) (by decide)
  rw [laterRemoval_eq, walk_one blank]
  exact removal_mem_semicolon outside

variable {byte : Char} {rest : List Char}

theorem splitStep_paren (split : Str → List Str)
    (opens : opensParen state byte rest) :
    splitStep split [] state byte rest =
      (state.pushLeg.extend (split (extractParenBody rest.tail 1).1),
        (extractParenBody rest.tail 1).2 + 1) := by
  obtain ⟨closed, opener, next⟩ := opens
  have noSingle := congrArg Quotes.inSingle closed
  have noDouble := congrArg Quotes.inDouble closed
  simp only [SplitState.quotes, Quotes.closed] at noSingle noDouble
  rcases opener with rfl | rfl | rfl <;>
    simp [splitStep, noSingle, noDouble, next]

theorem splitStep_tick (split : Str → List Str) (opens : opensTick state byte) :
    splitStep split [] state byte rest =
      (state.pushLeg.extend (split (extractBacktickBody rest).1),
        (extractBacktickBody rest).2) := by
  obtain ⟨closed, rfl⟩ := opens
  have noSingle := congrArg Quotes.inSingle closed
  have noDouble := congrArg Quotes.inDouble closed
  simp only [SplitState.quotes, Quotes.closed] at noSingle noDouble
  simp [splitStep, noSingle, noDouble]

/-- A byte that the text behind does not have stands in the text before. -/
theorem exists_of_append_eq {inner later front behind : Str} {closing : Char}
    (absent : closing ∉ behind)
    (same : inner ++ closing :: later = front ++ behind) :
    ∃ more, front = inner ++ closing :: more ∧ later = more ++ behind := by
  induction inner generalizing front with
  | nil =>
      cases front with
      | nil =>
          simp only [List.nil_append] at same
          exact absurd (by rw [← same]; simp) absent
      | cons char front =>
          obtain ⟨rfl, shape⟩ := List.cons.inj same
          exact ⟨front, rfl, shape⟩
  | cons char inner induction =>
      cases front with
      | nil =>
          simp only [List.nil_append] at same
          exact absurd (by rw [← same]; simp) absent
      | cons other front =>
          obtain ⟨rfl, shape⟩ := List.cons.inj same
          obtain ⟨more, rfl, rfl⟩ := induction shape
          exact ⟨more, rfl, rfl⟩

/-- The splitter surfaces the removal behind a text. -/
def RemovalSurfaces (front : Str) : Prop :=
  removal ∈ splitCompound (front ++ laterRemoval)

/-- Behind a text that the splitter reads in step, in whatever state it begins,
the removal surfaces once the quotes are closed. -/
def SurfacesBehind (inStep : Str → Prop) (front : Str) : Prop :=
  ∀ state : SplitState,
    AlongWalk (splitStep splitCompound []) (SplitKeeps inStep)
      (front ++ laterRemoval) 0 state →
    state.quotes.after front = .closed →
      removal ∈ (walk (splitStep splitCompound []) (front ++ laterRemoval) 0
        state).pushLeg.result

variable {inStep : Str → Prop} {next : SplitState}

/-- A body that holds the removal surfaces it; behind a body that is closed
before it, the walker goes on. -/
theorem removal_mem_body {rest : Str}
    (body : inStep (rest ++ laterRemoval) → Quotes.closed.after rest = .closed →
      RemovalSurfaces rest) {closing : Char} (absent : closing ∉ laterRemoval)
    (plain : closing ≠ '\'' ∧ closing ≠ '"') {cut : Str × Nat}
    (spec : cut = (rest ++ laterRemoval, (rest ++ laterRemoval).length) ∨
      ∃ later, rest ++ laterRemoval = cut.1 ++ closing :: later ∧
        cut.2 = cut.1.length + 1)
    (inside : inStep cut.1)
    (balanced : cut.1.length < cut.2 → Quotes.closed.after cut.1 = .closed)
    (closed : Quotes.closed.after rest = .closed)
    (nextClosed : next.quotes = .closed)
    (surfaced : removal ∈ splitCompound cut.1 → removal ∈ next.result)
    (shorter : ∀ more : Str, more <:+ rest → SurfacesBehind inStep more)
    (along : AlongWalk (splitStep splitCompound []) (SplitKeeps inStep)
      ((rest ++ laterRemoval).drop cut.2) 0 next) :
    removal ∈ (walk (splitStep splitCompound [])
      ((rest ++ laterRemoval).drop cut.2) 0 next).pushLeg.result := by
  rcases spec with rfl | ⟨after, shape, length⟩
  · exact (result_prefix_walk _ next).subset (surfaced (body inside closed))
  · obtain ⟨more, rfl, rfl⟩ := exists_of_append_eq absent shape.symm
    obtain ⟨inner, advanced⟩ := cut
    simp only at length balanced along ⊢
    subst length
    have dropped : (inner ++ closing :: more ++ laterRemoval).drop
        (inner.length + 1) = more ++ laterRemoval := by simp
    rw [Quotes.after_append, balanced (Nat.lt_succ_self _), Quotes.after_cons,
      Quotes.toggle_of_plain _ plain, ← nextClosed] at closed
    rw [dropped] at along ⊢
    have suffix : more <:+ inner ++ closing :: more :=
      (List.suffix_cons _ _).trans (List.suffix_append _ _)
    exact shorter more suffix next along (closed.trans nextClosed)

theorem removal_mem_escape {rest : Str}
    (shorter : ∀ more : Str, more <:+ rest → SurfacesBehind inStep more)
    (escapes : ∀ escaped later, rest ++ laterRemoval = escaped :: later →
      later ≠ [] → state.quotes.toggle escaped = state.quotes)
    (kept : next.quotes = state.quotes)
    (along : AlongWalk (splitStep splitCompound []) (SplitKeeps inStep)
      ((rest ++ laterRemoval).drop 1) 0 next)
    (closed : state.quotes.after rest = .closed) :
    removal ∈ (walk (splitStep splitCompound [])
      ((rest ++ laterRemoval).drop 1) 0 next).pushLeg.result := by
  cases rest with
  | nil =>
      -- the backslash takes the blank in front of the semicolon
      rw [Quotes.after_nil, ← kept] at closed
      exact removal_mem_semicolon ⟨congrArg Quotes.inDouble closed,
        congrArg Quotes.inSingle closed⟩
  | cons escaped rest =>
      have same := escapes escaped (rest ++ laterRemoval) rfl
        (by simp [laterRemoval_eq])
      refine shorter rest (List.suffix_cons _ _) next along ?_
      rw [kept, ← same]
      exact closed

theorem removal_mem_double {rest : Str}
    (shorter : ∀ more : Str, more <:+ rest → SurfacesBehind inStep more)
    (operator : byte = '&' ∨ byte = '|') {later : Str}
    (shape : rest ++ laterRemoval = byte :: later)
    (kept : next.quotes = state.quotes)
    (along : AlongWalk (splitStep splitCompound []) (SplitKeeps inStep)
      ((rest ++ laterRemoval).drop 1) 0 next)
    (closed : state.quotes.after rest = .closed) :
    removal ∈ (walk (splitStep splitCompound [])
      ((rest ++ laterRemoval).drop 1) 0 next).pushLeg.result := by
  cases rest with
  | nil =>
      rw [List.nil_append, laterRemoval_eq] at shape
      rw [← (List.cons.inj shape).1] at operator
      exact absurd operator (by decide)
  | cons second rest =>
      obtain rfl := (List.cons.inj shape).1
      have plain : second ≠ '\'' ∧ second ≠ '"' := by
        rcases operator with rfl | rfl <;> decide
      refine shorter rest (List.suffix_cons _ _) next along ?_
      rw [Quotes.after_cons, Quotes.toggle_of_plain _ plain] at closed
      rw [kept]
      exact closed

section

variable {bound : Nat}
  (bodies : ∀ inner : Str, openers inner < bound →
    inStep (inner ++ laterRemoval) → Quotes.closed.after inner = .closed →
      RemovalSurfaces inner)

include bodies

theorem removal_mem_paren {rest : Str}
    (shorter : ∀ more : Str, more <:+ rest → SurfacesBehind inStep more)
    (few : openers rest ≤ bound)
    (keeps : SplitKeeps inStep state byte (rest ++ laterRemoval))
    (opens : opensParen state byte (rest ++ laterRemoval))
    (nextClosed :
      (splitStep splitCompound [] state byte (rest ++ laterRemoval)).1.quotes =
        .closed)
    (along : AlongWalk (splitStep splitCompound []) (SplitKeeps inStep)
      ((rest ++ laterRemoval).drop
        (splitStep splitCompound [] state byte (rest ++ laterRemoval)).2) 0
      (splitStep splitCompound [] state byte (rest ++ laterRemoval)).1)
    (closed : Quotes.closed.after rest = .closed) :
    removal ∈ (walk (splitStep splitCompound []) ((rest ++ laterRemoval).drop
      (splitStep splitCompound [] state byte (rest ++ laterRemoval)).2) 0
      (splitStep splitCompound [] state byte
        (rest ++ laterRemoval)).1).pushLeg.result := by
  obtain ⟨inside, balanced⟩ := keeps.2.1 opens
  rw [splitStep_paren _ opens] at nextClosed along ⊢
  cases rest with
  | nil =>
      have opener := opens.2.2
      rw [List.nil_append, laterRemoval_eq] at opener
      exact absurd opener (by decide)
  | cons char rest =>
      obtain rfl : char = '(' := Option.some.inj opens.2.2
      rw [openers_cons, if_pos (.inl rfl)] at few
      refine removal_mem_body (bodies rest (by omega)) (by decide) (by decide)
        (extractParenBody_spec (rest ++ laterRemoval) 1) inside balanced closed
        nextClosed (fun member => List.mem_append_right _ member) ?_ along
      exact fun more suffix => shorter more (suffix.trans (List.suffix_cons _ _))

theorem removal_mem_tick {rest : Str}
    (shorter : ∀ more : Str, more <:+ rest → SurfacesBehind inStep more)
    (few : openers rest < bound)
    (keeps : SplitKeeps inStep state byte (rest ++ laterRemoval))
    (opens : opensTick state byte)
    (nextClosed :
      (splitStep splitCompound [] state byte (rest ++ laterRemoval)).1.quotes =
        .closed)
    (along : AlongWalk (splitStep splitCompound []) (SplitKeeps inStep)
      ((rest ++ laterRemoval).drop
        (splitStep splitCompound [] state byte (rest ++ laterRemoval)).2) 0
      (splitStep splitCompound [] state byte (rest ++ laterRemoval)).1)
    (closed : Quotes.closed.after rest = .closed) :
    removal ∈ (walk (splitStep splitCompound []) ((rest ++ laterRemoval).drop
      (splitStep splitCompound [] state byte (rest ++ laterRemoval)).2) 0
      (splitStep splitCompound [] state byte
        (rest ++ laterRemoval)).1).pushLeg.result := by
  obtain ⟨inside, balanced⟩ := keeps.2.2 opens
  rw [splitStep_tick _ opens] at nextClosed along ⊢
  exact removal_mem_body (bodies rest few) (by decide) (by decide)
    (extractBacktickBody_spec (rest ++ laterRemoval)) inside balanced closed
    nextClosed (fun member => List.mem_append_right _ member) shorter along

/-- Behind a text that the splitter reads in step and whose quotes are closed,
the removal surfaces. -/
theorem surfacesBehind {front : Str} (few : openers front ≤ bound) :
    SurfacesBehind inStep front := by
  induction size : front.length using Nat.strong_induction_on
    generalizing front with
  | _ length induction =>
      intro state along closed
      cases front with
      | nil =>
          exact removal_mem_blank ⟨congrArg Quotes.inDouble closed,
            congrArg Quotes.inSingle closed⟩
      | cons byte rest =>
          have fewer : ∀ more : Str, more <:+ rest → openers more ≤ bound :=
            fun more suffix => (openers_le_of_suffix
              (suffix.trans (List.suffix_cons _ _))).trans few
          have shorter : ∀ more : Str, more <:+ rest →
              SurfacesBehind inStep more := by
            intro more suffix
            have less := suffix.length_le
            rw [List.length_cons] at size
            exact induction more.length (by omega) (fewer more suffix) rfl
          rw [List.cons_append, alongWalk_cons] at along
          obtain ⟨keeps, along⟩ := along
          rw [Quotes.after_cons] at closed
          rw [List.cons_append, walk_cons]
          have turn := splitStep_turn splitCompound state byte
            (rest ++ laterRemoval)
          generalize stepped : splitStep splitCompound [] state byte
            (rest ++ laterRemoval) = answer at turn along ⊢
          obtain ⟨next, skip⟩ := answer
          cases turn with
          | single unescaped notParen notTick toggled =>
              exact shorter rest (List.suffix_refl _) next along
                (toggled ▸ closed)
          | escape noSingle isEscape shape kept =>
              subst isEscape
              rw [Quotes.toggle_of_plain _ (by decide)] at closed
              exact removal_mem_escape shorter
                (fun escaped later => keeps.1 escaped later noSingle rfl) kept
                along closed
          | double operator shape kept =>
              have plain : byte ≠ '\'' ∧ byte ≠ '"' := by
                rcases operator with rfl | rfl <;> decide
              rw [Quotes.toggle_of_plain _ plain] at closed
              exact removal_mem_double shorter operator shape kept along closed
          | paren opens nextClosed skipped =>
              have plain : byte ≠ '\'' ∧ byte ≠ '"' := by
                rcases opens.2.1 with rfl | rfl | rfl <;> decide
              rw [Quotes.toggle_of_plain _ plain, opens.1] at closed
              have surfaced := removal_mem_paren bodies shorter
                (fewer rest (List.suffix_refl _)) keeps opens
              rw [stepped] at surfaced
              exact surfaced nextClosed along closed
          | tick opens nextClosed skipped =>
              rw [Quotes.toggle_of_plain _ (by rw [opens.2]; decide),
                opens.1] at closed
              rw [openers_cons, if_pos (.inr opens.2)] at few
              have surfaced := removal_mem_tick bodies shorter (by omega) keeps
                opens
              rw [stepped] at surfaced
              exact surfaced nextClosed along closed

end

end

theorem surfaces_of_inStep {nesting : Nat} {front : Str}
    (enough : openers front < nesting)
    (inStep : splitInStepNested nesting (front ++ laterRemoval))
    (closed : Quotes.closed.after front = .closed) : RemovalSurfaces front := by
  induction nesting generalizing front with
  | zero => omega
  | succ nesting induction =>
      have asciiRemoval : asBytes laterRemoval = laterRemoval :=
        asBytes_of_ascii (by decide)
      rw [splitInStepNested, asBytes_append, asciiRemoval] at inStep
      rw [RemovalSurfaces, splitCompound_eq, asBytes_append, asciiRemoval]
      refine surfacesBehind (fun inner fewer => induction fewer) ?_ .start
        inStep ?_
      · rw [openers_asBytes]
        omega
      · exact (Quotes.closed.after_asBytes front).trans closed

/-! ## The line with the span -/

/-- What stands behind the leg. -/
def laterSpan : Str := " ; ".toList ++ ansiRemoval

/-- The line `L ; $'\x72\x6d' -rf ~`. -/
def spanLine (leg : Str) : Str := leg ++ laterSpan

/-- The line as each rewriting pass hands it on. -/
def joinedLine (leg : Str) : Str × Budget :=
  joinLineContinuations (spanLine leg) Budget.fresh

def decodedLine (leg : Str) : Str × Budget :=
  decodeAnsiC (joinedLine leg).1 (joinedLine leg).2

def splicedLine (leg : Str) : Str × Budget :=
  spliceEchoSubstitution (decodedLine leg).1 (decodedLine leg).2

/-- What a rewriter has written when it jumps closes its quotes. -/
def RewriteCloses (step : RewriteState → Char → List Char → RewriteState × Nat)
    (state : RewriteState) (byte : Char) (rest : List Char) : Prop :=
  (step state byte rest).2 ≠ 0 →
    Quotes.closed.after (step state byte rest).1.out = .closed

/-- The budget lasts for the span that opens at this byte, if one does. -/
def AnsiCAllows (state : RewriteState) (byte : Char) (rest : List Char) : Prop :=
  byte = '$' ∧ rest.head? = some '\'' ∧ state.inSingle = false ∧
      state.inDouble = false →
    ∀ span ∈ readAnsiCSpan rest.tail 0,
      (allowSplice state span.1 (span.2 + 2)).1 = true

def RewriteInStep
    (step : RewriteState → Char → List Char → RewriteState × Nat)
    (state : RewriteState) (byte : Char) (rest : List Char) : Prop :=
  RewriteKeeps step state byte rest ∧ RewriteCloses step state byte rest

/-- The splitter ends the leg outside quotes. -/
def EndsOutside (leg : Str) : Prop :=
  (splitView (spanLine leg))[leg.length]? = some true

structure BudgetLasts (leg : Str) : Prop where
  short : byteLen (spanLine leg) ≤ maxNormalizeBytes
  spans : AlongWalk ansiCStep AnsiCAllows (asBytes (joinedLine leg).1) 0
    (.start (joinedLine leg).2)

/-- Each pass reads the quotes of the line it is given as the others do, and
closes those that it writes. -/
structure SpanInStep (leg : Str) : Prop where
  split : splitInStepNested ((spanLine leg).length + 1) (spanLine leg)
  ansiC : AlongWalk ansiCStep (RewriteInStep ansiCStep)
    (asBytes (joinedLine leg).1) 0 (.start (joinedLine leg).2)
  echo : AlongWalk echoStep (RewriteInStep echoStep)
    (asBytes (decodedLine leg).1) 0 (.start (decodedLine leg).2)
  resplit : splitInStepNested ((splicedLine leg).1.length + 1)
    (splicedLine leg).1

/-! ### What a pass makes of the leg -/

/-- A step that does not jump copies its byte. -/
def CopiesBytes (step : RewriteState → Char → List Char → RewriteState × Nat) :
    Prop :=
  ∀ state byte rest, (step state byte rest).2 = 0 →
    (step state byte rest).1.out = state.out ++ [byte]

theorem ansiCStep_copiesBytes : CopiesBytes ansiCStep := by
  intro state byte rest stays
  rcases ansiCStep_cases state byte rest with
    copied | ⟨-, bytes, span, text, budget, -, -, spliced⟩
  · rw [copied]
    exact state.copy_out byte
  · rw [spliced] at stays
    exact absurd stays (Nat.succ_ne_zero _)

theorem echoStep_copiesBytes : CopiesBytes echoStep := by
  intro state byte rest stays
  rcases echoStep_cases state byte rest with
    ⟨budget, copied⟩ | ⟨-, found, budget, candidate, spliced⟩
  · rw [copied]
    exact RewriteState.copy_out _ byte
  · rw [spliced] at stays
    exact absurd stays (spliceCandidate_pos candidate)

/-- What a rewriter has written shows the quotes it tracks, and they close
before the text behind. -/
structure Balanced (state : RewriteState) (front : Str) : Prop where
  written : Quotes.closed.after state.out = state.quotes
  closes : state.quotes.after front = .closed

theorem rewriter_reach
    {step : RewriteState → Char → List Char → RewriteState × Nat}
    (jumps : Jumps step) (copies : CopiesBytes step) {front behind : Str}
    (within : ∀ (state : RewriteState) byte (rest : Str),
      state.quotes.after (byte :: rest) = .closed →
        RewriteKeeps step state byte (rest ++ behind) →
          (step state byte (rest ++ behind)).2 ≤ rest.length)
    (nonempty : behind ≠ [])
    {good : RewriteState → Char → List Char → Prop}
    (inStep : ∀ state byte rest, good state byte rest →
      RewriteInStep step state byte rest)
    {state : RewriteState}
    (along : AlongWalk step good (front ++ behind) 0 state)
    (start : Balanced state front) :
    ∃ next, walk step (front ++ behind) 0 state = walk step behind 0 next ∧
      AlongWalk step good behind 0 next ∧ Balanced next [] := by
  refine AlongWalk.reach ?_ along start
  rintro state byte rest ⟨written, closes⟩ holds
  obtain ⟨keeps, closesOut⟩ := inStep _ _ _ holds
  have fits := within state byte rest closes keeps
  refine ⟨fits, ?_⟩
  rcases jumps state byte (rest ++ behind) with
    ⟨toggled, stays⟩ | ⟨closed, nextClosed, moves⟩
  · rw [stays, List.drop_zero]
    refine ⟨?_, ?_⟩
    · rw [copies state byte _ stays, Quotes.after_append, written, toggled]
      rfl
    · rw [toggled]
      exact closes
  · have remains : (rest ++ behind).drop
        (step state byte (rest ++ behind)).2 ≠ [] := by
      rw [List.drop_append_of_le_length fits]
      simp [nonempty]
    have balanced := keeps moves remains
    rw [List.take_append_of_le_length fits] at balanced
    refine ⟨?_, ?_⟩
    · rw [closesOut moves, nextClosed]
    · have cut : byte :: rest =
          byte :: rest.take (step state byte (rest ++ behind)).2 ++
            rest.drop (step state byte (rest ++ behind)).2 := by
        simp
      rw [cut, Quotes.after_append, balanced] at closes
      rw [nextClosed]
      exact closes

/-! ### No span runs past the leg -/

theorem leadingDigits_within {isDigit : Char → Bool}
    (stops : isDigit ' ' = false) (limit : Nat) (front tail : Str) :
    (leadingDigits isDigit limit (front ++ ' ' :: tail)).length ≤
      front.length := by
  rw [leadingDigits]
  induction front generalizing limit with
  | nil => cases limit <;> simp [stops]
  | cons char front induction =>
      cases limit with
      | zero => simp
      | succ limit =>
          rw [List.cons_append, List.take_succ_cons, List.takeWhile_cons]
          split
          · exact Nat.succ_le_succ (induction limit)
          · exact Nat.zero_le _

theorem snd_ite_le {α : Type} {condition : Prop} [Decidable condition]
    {first second : α × Nat} {bound : Nat} (left : first.2 ≤ bound)
    (right : second.2 ≤ bound) :
    (if condition then first else second).2 ≤ bound := by
  split
  · exact left
  · exact right

/-- An escape that is decoded ends in front of a blank. -/
theorem decodeEscape_within {front tail : Str} {char : Char} {advance : Nat}
    (decoded : decodeEscape (front ++ ' ' :: tail) = (some char, advance)) :
    advance ≤ front.length := by
  cases front with
  | nil => exact absurd (congrArg Prod.fst decoded) nofun
  | cons byte front =>
      have one : 1 ≤ (byte :: front).length := Nat.succ_le_succ (Nat.zero_le _)
      have none : 0 ≤ (byte :: front).length := Nat.zero_le _
      have hex := fun limit => Nat.succ_le_succ
        (@leadingDigits_within isAsciiHexdigit rfl limit front tail)
      have octal :=
        @leadingDigits_within isOctalDigit rfl 3 (byte :: front) tail
      have within : (decodeEscape (byte :: front ++ ' ' :: tail)).2 ≤
          (byte :: front).length := by
        rw [List.cons_append, decodeEscape]
        refine snd_ite_le one (snd_ite_le one (snd_ite_le one (snd_ite_le one
          (snd_ite_le one (snd_ite_le one (snd_ite_le ?_ (snd_ite_le ?_
            (snd_ite_le octal none))))))))
        · exact snd_ite_le none (hex 2)
        · exact snd_ite_le none (hex 4)
      rw [decoded] at within
      exact within

theorem readAnsiCSpan_within {front tail : Str} {skip : Nat} {span : Str × Nat}
    (short : skip ≤ front.length + 1)
    (found : readAnsiCSpan
      (front ++ ' ' :: ';' :: ' ' :: '$' :: '\'' :: tail) skip = some span) :
    span.2 ≤ front.length ∨ span.2 = front.length + 5 := by
  induction front generalizing skip span with
  | nil =>
      have reads : ∀ skip ≤ 1, readAnsiCSpan
          (' ' :: ';' :: ' ' :: '$' :: '\'' :: tail) skip =
            some (" ; $".toList.drop skip, 5) := by
        intro skip short
        obtain rfl | rfl : skip = 0 ∨ skip = 1 := by omega
        · rfl
        · rfl
      rw [List.nil_append, reads skip short] at found
      exact .inr (congrArg Prod.snd (Option.some.inj found)).symm
  | cons byte front induction =>
      have moves : ∀ {skip : Nat} {rest : Str × Nat}, skip ≤ front.length + 1 →
          readAnsiCSpan (front ++ ' ' :: ';' :: ' ' :: '$' :: '\'' :: tail)
            skip = some rest → span.2 = rest.2 + 1 →
              span.2 ≤ (byte :: front).length ∨
                span.2 = (byte :: front).length + 5 := by
        intro skip rest short found longer
        have within := induction short found
        rw [List.length_cons]
        omega
      rw [List.length_cons] at short
      rw [List.cons_append] at found
      cases skip with
      | succ skip =>
          obtain ⟨rest, inner, rfl⟩ := Option.map_eq_some_iff.mp found
          exact moves (by omega) inner rfl
      | zero =>
          rw [readAnsiCSpan] at found
          split_ifs at found with closing escape
          · obtain rfl := Option.some.inj found
            exact .inl (by simp)
          · cases decoded : decodeEscape (front ++ ' ' :: ';' :: ' ' :: '$' ::
                '\'' :: tail) with
            | mk char advance =>
                rw [decoded] at found
                cases char with
                | none =>
                    obtain ⟨rest, inner, rfl⟩ := Option.map_eq_some_iff.mp found
                    exact moves (by omega) inner rfl
                | some char =>
                    have fits := decodeEscape_within decoded
                    obtain ⟨rest, inner, rfl⟩ := Option.map_eq_some_iff.mp found
                    exact moves (by omega) inner rfl
          · obtain ⟨rest, inner, rfl⟩ := Option.map_eq_some_iff.mp found
            exact moves (by omega) inner rfl

/-- The text of the span, behind its opening quote. -/
def spanBody : Str := "\\x72\\x6d' -rf ~".toList

theorem laterSpan_eq :
    laterSpan = ' ' :: ';' :: ' ' :: '$' :: '\'' :: spanBody := by
  decide

theorem ansiCStep_within (state : RewriteState) (byte : Char) (rest : Str)
    (closes : state.quotes.after (byte :: rest) = .closed)
    (keeps : RewriteKeeps ansiCStep state byte (rest ++ laterSpan)) :
    (ansiCStep state byte (rest ++ laterSpan)).2 ≤ rest.length := by
  rcases ansiCStep_cases state byte (rest ++ laterSpan) with
    copied | ⟨-, bytes, span, text, budget, shape, found, spliced⟩
  · rw [copied]
    exact Nat.zero_le _
  · have moves := congrArg Prod.snd spliced
    cases rest with
    | nil =>
        rw [List.nil_append, laterSpan_eq] at shape
        exact absurd (List.cons.inj shape).1 (by decide)
    | cons quote front =>
        obtain ⟨rfl, rfl⟩ := List.cons.inj shape
        rw [laterSpan_eq] at found
        rcases readAnsiCSpan_within (Nat.zero_le _) found with inside | past
        · rw [moves, List.length_cons]
          omega
        · -- the span would be closed by the quote that opens the later one
          have length : (ansiCStep state byte
              ('\'' :: front ++ laterSpan)).2 =
                ('\'' :: front ++ " ; $'".toList).length := by
            rw [moves, past]
            simp
          have split : '\'' :: front ++ laterSpan =
              ('\'' :: front ++ " ; $'".toList) ++ spanBody := by
            rw [laterSpan_eq]
            simp
          unfold RewriteKeeps at keeps
          simp only [length] at keeps
          rw [split, List.drop_left, List.take_left, ← List.cons_append,
            Quotes.after_append, closes] at keeps
          have opened := keeps (by simp) (by decide)
          exact absurd opened (by decide)

/-- A substitution that is read closes before a text without its closing
byte. -/
theorem spliceCandidate_within {byte : Char} {rest behind : Str}
    (noParen : ')' ∉ behind) (noTick : '`' ∉ behind)
    (noOpen : behind.head? ≠ some '(') {candidate : Str × Nat × Nat}
    (found : spliceCandidate byte (rest ++ behind) = some candidate) :
    candidate.2.1 ≤ rest.length := by
  unfold spliceCandidate at found
  split_ifs at found with paren tick
  · simp only [Option.bind_eq_bind, Option.bind_eq_some_iff, Option.pure_def,
      Option.some.injEq] at found
    obtain ⟨body, read, literal, -, rfl⟩ := found
    cases rest with
    | nil => exact absurd paren.2 noOpen
    | cons opener rest =>
        obtain ⟨later, shape, length⟩ := readParenBody_spec read
        obtain ⟨more, rfl, -⟩ := exists_of_append_eq noParen shape.symm
        simp only [length, List.length_cons, List.length_append]
        omega
  · simp only [Option.bind_eq_bind, Option.bind_eq_some_iff, Option.pure_def,
      Option.some.injEq] at found
    obtain ⟨body, read, literal, -, rfl⟩ := found
    obtain ⟨later, shape, length⟩ := readBacktickBody_spec read
    obtain ⟨more, rfl, -⟩ := exists_of_append_eq noTick shape.symm
    simp only [length, List.length_cons, List.length_append]
    omega

theorem echoStep_within (state : RewriteState) (byte : Char) (rest : Str) :
    (echoStep state byte (rest ++ laterRemoval)).2 ≤ rest.length := by
  rcases echoStep_cases state byte (rest ++ laterRemoval) with
    ⟨budget, copied⟩ | ⟨-, candidate, budget, found, spliced⟩
  · rw [copied]
    exact Nat.zero_le _
  · rw [spliced]
    exact spliceCandidate_within (by decide) (by decide) (by decide) found

/-! ### The passes over the line -/

theorem balanced_start (budget : Budget) {front : Str}
    (closed : Quotes.closed.after front = .closed) :
    Balanced (.start budget) (asBytes front) where
  written := rfl
  closes := (Quotes.closed.after_asBytes front).trans closed

theorem asBytes_laterSpan (front : Str) :
    asBytes (front ++ laterSpan) = asBytes front ++ laterSpan := by
  rw [asBytes_append, @asBytes_of_ascii laterSpan (by decide)]

theorem asBytes_laterRemoval (front : Str) :
    asBytes (front ++ laterRemoval) = asBytes front ++ laterRemoval := by
  rw [asBytes_append, @asBytes_of_ascii laterRemoval (by decide)]

/-- What the first pass has written and what is left close their quotes. -/
def JoinCloses (state : JoinState) (front : Str) : Prop :=
  (Quotes.closed.after state.out).after front = .closed

/-- A line continuation has no quotes. -/
theorem joinStep_within (state : JoinState) (byte : Char) (rest : Str)
    (closes : JoinCloses state (byte :: rest)) :
    (joinStep state byte (rest ++ laterSpan)).2 ≤ rest.length ∧
      JoinCloses (joinStep state byte (rest ++ laterSpan)).1
        (rest.drop (joinStep state byte (rest ++ laterSpan)).2) := by
  have pushed : 0 ≤ rest.length ∧
      JoinCloses (state.push byte) (rest.drop 0) := by
    refine ⟨Nat.zero_le _, ?_⟩
    rw [JoinCloses, JoinState.push, Quotes.after_append]
    exact closes
  unfold JoinCloses at closes
  unfold joinStep
  by_cases short : byte = '\\' ∧ (rest ++ laterSpan).head? = some '\n'
  · rw [if_pos short]
    rcases state.budget.allow (byteLen state.out) with ⟨allowed, budget⟩
    cases allowed
    · exact pushed
    · cases rest with
      | nil => exact absurd short.2 (by decide)
      | cons char rest =>
          obtain rfl : char = '\n' := Option.some.inj short.2
          refine ⟨by simp, ?_⟩
          rw [short.1, Quotes.after_cons, Quotes.toggle_of_plain _ (by decide),
            Quotes.after_cons, Quotes.toggle_of_plain _ (by decide)] at closes
          exact closes
  · rw [if_neg short]
    by_cases long : byte = '\\' ∧ (rest ++ laterSpan).head? = some '\r' ∧
        (rest ++ laterSpan).tail.head? = some '\n'
    · rw [if_pos long]
      rcases state.budget.allow (byteLen state.out) with ⟨allowed, budget⟩
      cases allowed
      · exact pushed
      · rcases rest with - | ⟨first, - | ⟨second, rest⟩⟩
        · exact absurd long.2.1 (by decide)
        · exact absurd long.2.2 (by simp [laterSpan_eq])
        · obtain rfl : first = '\r' := Option.some.inj long.2.1
          obtain rfl : second = '\n' := Option.some.inj long.2.2
          refine ⟨by simp, ?_⟩
          rw [long.1, Quotes.after_cons, Quotes.toggle_of_plain _ (by decide),
            Quotes.after_cons, Quotes.toggle_of_plain _ (by decide),
            Quotes.after_cons, Quotes.toggle_of_plain _ (by decide)] at closes
          exact closes
    · rw [if_neg long]
      exact pushed

theorem joinedLine_eq {leg : Str} (closed : Quotes.closed.after leg = .closed) :
    ∃ front, (joinedLine leg).1 = front ++ laterSpan ∧
      Quotes.closed.after front = .closed := by
  have escapes : ¬ '\\' ∉ spanLine leg := by
    rw [not_not]
    exact List.mem_append_right _ (by decide)
  have along : AlongWalk joinStep (fun _ _ _ => True)
      (asBytes leg ++ laterSpan) 0 { out := [], budget := Budget.fresh } :=
    AlongWalk.of_forall (fun _ _ _ => trivial) _ _ _
  have start : JoinCloses { out := [], budget := Budget.fresh } (asBytes leg) :=
    (Quotes.closed.after_asBytes leg).trans closed
  obtain ⟨next, walked, -, arrived⟩ := along.reach
    (fun state byte rest closes _ => joinStep_within state byte rest closes)
    start
  refine ⟨next.out, ?_, arrived⟩
  rw [joinedLine, joinLineContinuations, if_neg escapes, spanLine,
    asBytes_laterSpan, walked, walk_join (by decide)]

theorem quotes_foldl_copy (state : RewriteState) (text : Str) :
    (text.foldl RewriteState.copy state).quotes = state.quotes.after text := by
  induction text generalizing state with
  | nil => rfl
  | cons byte text induction =>
      rw [List.foldl_cons, induction, state.quotes_copy, Quotes.after_cons]

/-- Outside quotes and with budget left, the span is decoded. -/
theorem walk_laterSpan {state : RewriteState} (closed : state.quotes = .closed)
    (lasts : AlongWalk ansiCStep AnsiCAllows laterSpan 0 state) :
    (walk ansiCStep laterSpan 0 state).out = state.out ++ laterRemoval := by
  have split : laterSpan = " ; ".toList ++ ('$' :: '\'' :: spanBody) := by
    decide
  have copies : ∀ state, ∀ byte ∈ " ; ".toList, ∀ rest,
      ansiCStep state byte rest = (state.copy byte, 0) := by
    intro state byte member rest
    refine ansiCStep_copy fun dollar => ?_
    rw [dollar] at member
    exact absurd member (by decide)
  have arrived : walk ansiCStep
      (" ; ".toList ++ ('$' :: '\'' :: spanBody)) 0 state =
        walk ansiCStep ('$' :: '\'' :: spanBody) 0
          (" ; ".toList.foldl RewriteState.copy state) :=
    (walk_run (fun _ => True) RewriteState.copy
      (fun state _ byte member rest => ⟨copies state byte member rest, trivial⟩)
      _ trivial).1
  rw [split] at lasts ⊢
  rw [arrived]
  have allows := (AlongWalk.run RewriteState.copy copies lasts).1
  have written := RewriteState.foldl_copy_out state " ; ".toList
  have outside := quotes_foldl_copy state " ; ".toList
  rw [closed, Quotes.after_of_plain (by decide)] at outside
  generalize " ; ".toList.foldl _ state = next at allows written outside ⊢
  have noSingle : next.inSingle = false := congrArg Quotes.inSingle outside
  have noDouble : next.inDouble = false := congrArg Quotes.inDouble outside
  have opens : '$' = '$' ∧ ('\'' :: spanBody).head? = some '\'' ∧
      next.inSingle = false ∧ next.inDouble = false :=
    ⟨rfl, rfl, noSingle, noDouble⟩
  have reads : readAnsiCSpan spanBody 0 = some ("rm".toList, 9) := by decide
  obtain ⟨budget, answer⟩ : ∃ budget,
      allowSplice next "rm".toList 11 = (true, budget) :=
    ⟨_, Prod.ext (allows opens ("rm".toList, 9) reads) rfl⟩
  have stepped : ansiCStep next '$' ('\'' :: spanBody) =
      (next.splice "rm".toList budget, 10) := by
    rw [ansiCStep, if_pos opens, List.tail_cons, reads]
    simp only
    rw [answer]
  have behind : ('\'' :: spanBody).drop 10 = " -rf ~".toList := by decide
  rw [walk_cons_of_eq stepped, behind, walk_ansiC_noSpan (by decide),
    RewriteState.splice, written]
  simp only [List.append_assoc]
  exact congrArg (state.out ++ ·) (by decide)

theorem decodedLine_eq {leg front : Str} (lasts : BudgetLasts leg)
    (inStep : SpanInStep leg)
    (joined : (joinedLine leg).1 = front ++ laterSpan)
    (closed : Quotes.closed.after front = .closed) :
    ∃ written, (decodedLine leg).1 = written ++ laterRemoval ∧
      Quotes.closed.after written = .closed := by
  have spans : ¬ contains (joinedLine leg).1 "$'".toList = false := by
    rw [joined, Bool.not_eq_false, contains, decide_eq_true_iff, laterSpan_eq]
    exact ⟨front ++ " ; ".toList, spanBody, by simp⟩
  have along := inStep.ansiC.and lasts.spans
  rw [joined, asBytes_laterSpan] at along
  obtain ⟨next, walked, last, written, closes⟩ :=
    rewriter_reach ansiCStep_jumps ansiCStep_copiesBytes ansiCStep_within
      (by decide) (fun _ _ _ both => both.1) along (balanced_start _ closed)
  have outside : next.quotes = .closed := closes
  refine ⟨next.out, ?_, written.trans outside⟩
  rw [decodedLine, decodeAnsiC, if_neg spans, joined, asBytes_laterSpan]
  simp only
  rw [walked]
  exact walk_laterSpan outside (AlongWalk.mono (fun _ _ _ both => both.2) last)

theorem splicedLine_eq {leg front : Str} (inStep : SpanInStep leg)
    (decoded : (decodedLine leg).1 = front ++ laterRemoval)
    (closed : Quotes.closed.after front = .closed) :
    ∃ written, (splicedLine leg).1 = written ++ laterRemoval ∧
      Quotes.closed.after written = .closed := by
  have along := inStep.echo
  rw [decoded, asBytes_laterRemoval] at along
  obtain ⟨next, walked, -, written, closes⟩ :=
    rewriter_reach echoStep_jumps echoStep_copiesBytes
      (fun state byte rest _ _ => echoStep_within state byte rest)
      (by decide) (fun _ _ _ inStep => inStep) along (balanced_start _ closed)
  rw [splicedLine, spliceEchoSubstitution]
  split_ifs with unchanged
  · exact ⟨front, decoded, closed⟩
  · refine ⟨next.out, ?_, written.trans closes⟩
    rw [decoded, asBytes_laterRemoval]
    simp only
    rw [walked, walk_echo_noBody (noBody_of_not_mem (by decide) (by decide))]

section

variable [Base64Engine]

/-- Where every pass is in step, the removal behind the leg is blocked. -/
theorem evaluate_spanLine {leg : Str} (ascii : IsAscii leg)
    (lasts : BudgetLasts leg) (ends : EndsOutside leg)
    (inStep : SpanInStep leg) :
    (evaluate (spanLine leg) .default).tier = .block := by
  have asciiLine : IsAscii (spanLine leg) :=
    isAscii_append.mpr ⟨ascii, by decide⟩
  have view : splitView (spanLine leg) = Quotes.closed.marks (spanLine leg) :=
    (splitViewNested_iff asciiLine (Nat.lt_succ_self _)).2.mpr inStep.split
  have closed : Quotes.closed.after leg = .closed := by
    have outside : (splitView (spanLine leg))[leg.length]? = some true := ends
    have first : (Quotes.closed.marks leg).length ≤ leg.length := by simp
    rw [view, spanLine, Quotes.marks_append, List.getElem?_append_right first,
      Quotes.length_marks, Nat.sub_self, laterSpan_eq] at outside
    exact Quotes.isOutside_iff.mp (Option.some.inj outside)
  obtain ⟨joinedFront, joined, joinedClosed⟩ := joinedLine_eq closed
  obtain ⟨decodedFront, decoded, decodedClosed⟩ :=
    decodedLine_eq lasts inStep joined joinedClosed
  obtain ⟨front, spliced, frontClosed⟩ :=
    splicedLine_eq inStep decoded decodedClosed
  have input : (scanInput (spanLine leg) .default).command =
      front ++ laterRemoval := by
    rw [← spliced]
    exact congrArg Normalized.command (if_neg (Nat.not_lt.mpr lasts.short))
  have resplit := inStep.resplit
  rw [spliced] at resplit
  have enough : openers front < (front ++ laterRemoval).length + 1 := by
    have few := openers_le_length front
    rw [List.length_append]
    omega
  have surfaces : RemovalSurfaces front :=
    surfaces_of_inStep enough resplit frontClosed
  obtain ⟨hit, legHit, severe⟩ :=
    @RatedBlock.legHit _ removal (by decide) .default 0
  refine evaluate_default_block_iff.mpr ⟨hit, .leg ?_ legHit, severe⟩
  have same : asBytes removal = removal := asBytes_of_ascii (by decide)
  rw [input, ← same]
  exact mem_resolveAssignments_of_not_mem surfaces (by decide)

/-- The passes and the splitter take the same bytes of a command for quoted
exactly when no step reads a quote in its own way, and where no step does on
the line of a leg, the span behind the leg is decoded and blocked. -/
theorem quotes_and_span :
    (∀ command budget, IsAscii command →
      (QuotesAgree command budget ↔ InStep command budget)) ∧
    ∀ leg, IsAscii leg → BudgetLasts leg → EndsOutside leg → SpanInStep leg →
      (evaluate (spanLine leg) .default).tier = .block :=
  ⟨fun _ budget ascii => quotesAgree_iff ascii budget,
    fun _ ascii lasts ends inStep => evaluate_spanLine ascii lasts ends inStep⟩

end

instance decidableRewriteKeeps
    (step : RewriteState → Char → List Char → RewriteState × Nat)
    (state : RewriteState) (byte : Char) (rest : List Char) :
    Decidable (RewriteKeeps step state byte rest) :=
  inferInstanceAs (Decidable (_ → _ → _))

instance decidableRewriteCloses
    (step : RewriteState → Char → List Char → RewriteState × Nat)
    (state : RewriteState) (byte : Char) (rest : List Char) :
    Decidable (RewriteCloses step state byte rest) :=
  inferInstanceAs (Decidable (_ → _))

instance decidableRewriteInStep
    (step : RewriteState → Char → List Char → RewriteState × Nat)
    (state : RewriteState) (byte : Char) (rest : List Char) :
    Decidable (RewriteInStep step state byte rest) :=
  inferInstanceAs (Decidable (_ ∧ _))

instance decidableAnsiCAllows (state : RewriteState) (byte : Char)
    (rest : List Char) : Decidable (AnsiCAllows state byte rest) :=
  have : Decidable (∀ span ∈ readAnsiCSpan rest.tail 0,
      (allowSplice state span.1 (span.2 + 2)).1 = true) :=
    Option.decidableForallMem _
  inferInstanceAs (Decidable (_ → _))

def quotedLeg : Str := "echo 'a;b'".toList

theorem quotedLeg_spanInStep : SpanInStep quotedLeg where
  split := (splitViewNested_iff (by decide) (Nat.lt_succ_self _)).2.mp
    (by decide)
  ansiC := by decide
  echo := by decide
  resplit := (splitViewNested_iff (by decide) (Nat.lt_succ_self _)).2.mp
    (by decide)

theorem quotedLeg_blocked :
    EndsOutside quotedLeg ∧
      (@evaluate .standard (spanLine quotedLeg) .default).tier = .block := by
  have ends : EndsOutside quotedLeg := by
    unfold EndsOutside
    decide
  have lasts : BudgetLasts quotedLeg := ⟨by decide, by decide⟩
  exact ⟨ends, (@quotes_and_span .standard).2 quotedLeg (by decide) lasts ends
    quotedLeg_spanInStep⟩

/-! ### An escaped quote -/

theorem not_seesAs {marks : List (Option Bool)} {view : List Bool}
    {index : Nat} {seen outside : Bool}
    (marked : marks[index]? = some (some seen))
    (read : view[index]? = some outside) (differ : seen ≠ outside) :
    ¬ SeesAs marks view := by
  intro sees
  obtain ⟨within, mark⟩ := List.getElem?_eq_some_iff.mp marked
  obtain ⟨inside, byte⟩ := List.getElem?_eq_some_iff.mp read
  have same := (List.forall₂_iff_get.mp sees).2 index within inside
  simp only [List.get_eq_getElem, mark, byte] at same
  exact differ (same seen rfl)

def escapedLeg : Str := "echo \\'".toList

/-- The splitter takes the quote for escaped; the other walkers wait for its
end behind the leg and pass the span by. -/
theorem escapedLeg_allowed :
    IsAscii escapedLeg ∧ BudgetLasts escapedLeg ∧ EndsOutside escapedLeg ∧
      ¬ QuotesAgree (spanLine escapedLeg) Budget.fresh ∧
      (@evaluate .standard (spanLine escapedLeg) .default).tier = .allow := by
  refine ⟨by decide, ⟨by decide, by decide⟩, ?_, ?_, by decide⟩
  · unfold EndsOutside
    decide
  · rintro ⟨topLevel, -, -⟩
    have seen : (topLevelView (spanLine escapedLeg))[8]? =
        some (some false) := by
      decide
    have read : (splitView (spanLine escapedLeg))[8]? = some true := by decide
    exact not_seesAs seen read (by decide) topLevel

end TrustLayer.AgentGuard.Gate
