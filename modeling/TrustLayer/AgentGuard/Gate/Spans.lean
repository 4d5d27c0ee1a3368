import TrustLayer.AgentGuard.Gate.QuoteState
import TrustLayer.Library.Rewriting

/-!
# The spans that the rewriters replace

Each of the three passes, and the expansion of variables, replaces spans of the
bytes it reads and copies the rest byte by byte.
-/

namespace TrustLayer.AgentGuard.Gate

open TrustLayer.Library

/-! ## Spans -/

def Copied (span text : Str) : Prop :=
  text = span

/-- A span that the budget refuses is copied as the text it encodes. -/
def CopiedVerbatim (span text : Str) : Prop :=
  text = span ∨ fromUtf8 span = some text

/-- A line continuation is removed. -/
def Continuation (span text : Str) : Prop :=
  text = [] ∧ (span = ['\\', '\n'] ∨ span = ['\\', '\r', '\n'])

/-- `$'...'` is replaced by what it stands for. -/
def AnsiCSpan (span text : Str) : Prop :=
  ∃ body behind, span = '$' :: '\'' :: body ∧
    readAnsiCSpan (body ++ behind) 0 = some (text, body.length)

/-- A substitution that only prints is replaced by what it prints. -/
def EchoSubstitution (span text : Str) : Prop :=
  ∃ body, echoPrintfLiteral body = some text ∧
    (span = '$' :: '(' :: (body ++ [')']) ∨ span = '`' :: (body ++ ['`']))

/-- A reference to a bound variable is replaced by its value. -/
def Reference (vars : Vars) (span text : Str) : Prop :=
  ∃ name, vars.lookup name = some text ∧
    (span = '$' :: name ∨ span = '$' :: '{' :: (name ++ ['}']))

/-! ## The budget -/

/-- A splice is refused, or counted within the cap. -/
theorem Budget.allow_cases (budget : Budget) (newLen : Nat) :
    budget.allow newLen = (false, budget) ∨
      (budget.rewrites < maxRewrites ∧ budget.allow newLen =
        (true, { budget with rewrites := budget.rewrites + 1 })) := by
  unfold allow
  split_ifs with refused
  · exact .inl rfl
  · exact .inr ⟨by omega, rfl⟩

theorem allowSplice_cases (state : RewriteState) (text : Str)
    (sourceLen : Nat) :
    allowSplice state text sourceLen = (false, state.budget) ∨
      (state.budget.rewrites < maxRewrites ∧
        allowSplice state text sourceLen =
          (true,
            { state.budget with rewrites := state.budget.rewrites + 1 })) := by
  unfold allowSplice
  split_ifs
  · exact state.budget.allow_cases _
  · exact .inl rfl

/-! ## The three passes -/

theorem joinStep_emits :
    Emits Copied Continuation JoinState.out (fun state => state.budget.rewrites) 1
      joinStep := by
  intro state byte rest
  have copied : EmitsAt Copied Continuation JoinState.out
      (fun state => state.budget.rewrites) 1 state byte rest
      (state.push byte, 0) :=
    ⟨Nat.zero_le _, [byte], rfl, .inl ⟨rfl, rfl⟩⟩
  unfold joinStep
  split_ifs with short long
  · obtain ⟨rfl, next⟩ := short
    obtain ⟨later, rfl⟩ := List.head?_eq_some_iff.mp next
    rcases state.budget.allow_cases (byteLen state.out) with
      refused | ⟨-, allowed⟩
    · rw [refused]
      exact copied
    · rw [allowed]
      exact ⟨by simp, [], by simp, .inr ⟨⟨rfl, .inl rfl⟩, rfl⟩⟩
  · obtain ⟨rfl, first, second⟩ := long
    obtain ⟨more, rfl⟩ := List.head?_eq_some_iff.mp first
    obtain ⟨later, rfl⟩ := List.head?_eq_some_iff.mp second
    rcases state.budget.allow_cases (byteLen state.out) with
      refused | ⟨-, allowed⟩
    · rw [refused]
      exact copied
    · rw [allowed]
      exact ⟨by simp, [], by simp, .inr ⟨⟨rfl, .inr rfl⟩, rfl⟩⟩
  · exact copied

/-- An escape is replaced by the character it stands for. -/
def Escape (span text : Str) : Prop :=
  ∃ body behind char, span = '\\' :: body ∧ text = [char] ∧
    decodeEscape (body ++ behind) = (some char, body.length)

/-- The literal of a span is what stands before its closing quote, with the
escapes replaced. -/
theorem readAnsiCSpan_spec {bytes : List Char} {skip : Nat} {span : Str × Nat}
    (found : readAnsiCSpan bytes skip = some span) :
    ∃ front content behind escapes,
      bytes = front ++ content ++ '\'' :: behind ∧ front.length = skip ∧
      span.2 = skip + content.length + 1 ∧
      Rewritten Copied Escape escapes content span.1 := by
  induction bytes generalizing skip span with
  | nil => cases found
  | cons byte rest induction =>
      cases skip with
      | succ skip =>
          obtain ⟨later, read, rfl⟩ := Option.map_eq_some_iff.mp found
          obtain ⟨front, content, behind, escapes, rfl, length, size, rewritten⟩ :=
            induction read
          refine ⟨byte :: front, content, behind, escapes, rfl, ?_, ?_, rewritten⟩
          · rw [List.length_cons, length]
          · simp only [size]
            omega
      | zero =>
          rw [readAnsiCSpan] at found
          split_ifs at found with closing escaped
          · obtain rfl := Option.some.inj found
            exact ⟨[], [], rest, 0, by rw [closing]; rfl, rfl, rfl, .nil⟩
          · obtain ⟨rfl, -⟩ := escaped
            cases decoded : decodeEscape rest with
            | mk char advance =>
                rw [decoded] at found
                cases char with
                | none =>
                    obtain ⟨later, read, rfl⟩ := Option.map_eq_some_iff.mp found
                    obtain ⟨front, content, behind, escapes, rfl, length, size,
                      rewritten⟩ := induction read
                    obtain ⟨first, rfl⟩ := List.length_eq_one_iff.mp length
                    refine ⟨[], '\\' :: first :: content, behind, escapes, rfl,
                      rfl, ?_,
                      @Rewritten.keep _ _ _ _ _ ['\\', first] _ ['\\', first] _
                        rfl rewritten⟩
                    simp only [size, List.length_cons]
                    omega
                | some char =>
                    obtain ⟨later, read, rfl⟩ := Option.map_eq_some_iff.mp found
                    obtain ⟨front, content, behind, escapes, rfl, length, size,
                      rewritten⟩ := induction read
                    subst length
                    rw [List.append_assoc] at decoded
                    refine ⟨[], '\\' :: (front ++ content), behind, escapes + 1,
                      by simp, rfl, ?_,
                      @Rewritten.replace _ _ _ _ _ ('\\' :: front) _ [char] _
                        ⟨front, _, char, rfl, rfl, decoded⟩ rewritten⟩
                    simp only [size, List.length_cons, List.length_append]
                    omega
          · obtain ⟨later, read, rfl⟩ := Option.map_eq_some_iff.mp found
            obtain ⟨front, content, behind, escapes, rfl, length, size,
              rewritten⟩ := induction read
            obtain rfl := List.length_eq_zero_iff.mp length
            refine ⟨[], byte :: content, behind, escapes, rfl, rfl, ?_,
              @Rewritten.keep _ _ _ _ _ [byte] _ [byte] _ rfl rewritten⟩
            simp only [size, List.length_cons]
            omega

/-- What one step of the decoder does. -/
inductive AnsiCTurn (state : RewriteState) (byte : Char) (rest : List Char) :
    RewriteState × Nat → Prop where
  | copy : AnsiCTurn state byte rest (state.copy byte, 0)
  | decode {bytes : List Char} {span : Str × Nat} :
      byte = '$' → rest = '\'' :: bytes → readAnsiCSpan bytes 0 = some span →
      state.budget.rewrites < maxRewrites →
      AnsiCTurn state byte rest
        (state.splice span.1
          { state.budget with rewrites := state.budget.rewrites + 1 },
          span.2 + 1)
  | verbatim {bytes : List Char} {span : Str × Nat} :
      byte = '$' → rest = '\'' :: bytes → readAnsiCSpan bytes 0 = some span →
      AnsiCTurn state byte rest
        (state.splice ((fromUtf8 (byte :: rest.take (span.2 + 1))).getD
          (byte :: rest.take (span.2 + 1))) state.budget, span.2 + 1)

theorem ansiCStep_turn (state : RewriteState) (byte : Char)
    (rest : List Char) :
    AnsiCTurn state byte rest (ansiCStep state byte rest) := by
  unfold ansiCStep
  by_cases opens : byte = '$' ∧ rest.head? = some '\'' ∧
      state.inSingle = false ∧ state.inDouble = false
  · rw [if_pos opens]
    obtain ⟨bytes, rfl⟩ := List.head?_eq_some_iff.mp opens.2.1
    rw [List.tail_cons]
    cases found : readAnsiCSpan bytes 0 with
    | none => exact .copy
    | some span =>
        simp only
        rcases allowSplice_cases state span.1 (span.2 + 2) with
          refused | ⟨within, allowed⟩
        · rw [refused]
          exact .verbatim opens.1 rfl found
        · rw [allowed]
          exact .decode opens.1 rfl found within
  · rw [if_neg opens]
    exact .copy

theorem RewriteState.copy_budget (state : RewriteState) (byte : Char) :
    (state.copy byte).budget = state.budget := by
  unfold copy toggle push
  split_ifs <;> rfl

/-- A span is read from the bytes that the step consumes. -/
theorem readAnsiCSpan_take {bytes : List Char} {span : Str × Nat}
    (found : readAnsiCSpan bytes 0 = some span) :
    span.2 ≤ bytes.length ∧
      AnsiCSpan ('$' :: '\'' :: bytes.take span.2) span.1 := by
  obtain ⟨front, content, behind, -, shape, empty, size, -⟩ :=
    readAnsiCSpan_spec found
  obtain rfl := List.length_eq_zero_iff.mp empty
  have fits : span.2 ≤ bytes.length := by
    rw [shape, size]
    simp
  refine ⟨fits, bytes.take span.2, bytes.drop span.2, rfl, ?_⟩
  rw [List.take_append_drop, found, List.length_take_of_le fits]

theorem ansiCStep_emits :
    Emits CopiedVerbatim AnsiCSpan RewriteState.out
      (fun state => state.budget.rewrites) 1 ansiCStep := by
  intro state byte rest
  have turn := ansiCStep_turn state byte rest
  generalize ansiCStep state byte rest = result at turn ⊢
  cases turn with
  | copy =>
      exact ⟨Nat.zero_le _, [byte], state.copy_out byte,
        .inl ⟨.inl rfl, congrArg Budget.rewrites (state.copy_budget byte)⟩⟩
  | @decode bytes span opens shape found =>
      subst opens shape
      obtain ⟨fits, decoded⟩ := readAnsiCSpan_take found
      exact ⟨Nat.succ_le_succ fits, span.1, rfl, .inr ⟨decoded, rfl⟩⟩
  | @verbatim bytes span opens shape found =>
      subst opens shape
      obtain ⟨fits, -⟩ := readAnsiCSpan_take found
      refine ⟨Nat.succ_le_succ fits, _, rfl, .inl ⟨?_, rfl⟩⟩
      cases read : fromUtf8 ('$' :: ('\'' :: bytes).take (span.2 + 1)) with
      | none => exact .inl rfl
      | some text => exact .inr read

/-- What one step of the splicer does. -/
inductive EchoTurn (state : RewriteState) (byte : Char) (rest : List Char) :
    RewriteState × Nat → Prop where
  | copy : EchoTurn state byte rest (state.copy byte, 0)
  | splice {literal : Str} {skip sourceLen : Nat} :
      spliceCandidate byte rest = some (literal, skip, sourceLen) →
      state.budget.rewrites < maxRewrites →
      EchoTurn state byte rest
        (state.splice literal
          { state.budget with rewrites := state.budget.rewrites + 1 }, skip)

theorem echoStep_turn (state : RewriteState) (byte : Char)
    (rest : List Char) :
    EchoTurn state byte rest (echoStep state byte rest) := by
  unfold echoStep
  split_ifs with heads
  · cases found : spliceCandidate byte rest with
    | none => exact .copy
    | some candidate =>
        obtain ⟨literal, skip, sourceLen⟩ := candidate
        simp only
        rcases allowSplice_cases state literal sourceLen with
          refused | ⟨within, allowed⟩
        · rw [refused]
          exact .copy
        · rw [allowed]
          exact .splice found within
  · exact .copy

/-- A candidate replaces the bytes of the substitution it was read from. -/
theorem spliceCandidate_take {byte : Char} {rest : List Char} {literal : Str}
    {skip sourceLen : Nat}
    (found : spliceCandidate byte rest = some (literal, skip, sourceLen)) :
    skip ≤ rest.length ∧ EchoSubstitution (byte :: rest.take skip) literal := by
  unfold spliceCandidate at found
  split_ifs at found with paren tick
  · obtain ⟨rfl, next⟩ := paren
    obtain ⟨bytes, rfl⟩ := List.head?_eq_some_iff.mp next
    simp only [Option.bind_eq_bind, Option.bind_eq_some_iff, Option.pure_def,
      Option.some.injEq, Prod.mk.injEq] at found
    obtain ⟨body, read, printed, prints, rfl, rfl, -⟩ := found
    obtain ⟨later, shape, size⟩ := readParenBody_spec read
    rw [List.tail_cons] at shape
    subst shape
    refine ⟨by simp [size], body.1, prints, .inl ?_⟩
    simp [size, List.take_append]
  · subst tick
    simp only [Option.bind_eq_bind, Option.bind_eq_some_iff, Option.pure_def,
      Option.some.injEq, Prod.mk.injEq] at found
    obtain ⟨body, read, printed, prints, rfl, rfl, -⟩ := found
    obtain ⟨later, rfl, size⟩ := readBacktickBody_spec read
    refine ⟨by simp [size], body.1, prints, .inr ?_⟩
    simp [size, List.take_append]

theorem echoStep_emits :
    Emits Copied EchoSubstitution RewriteState.out
      (fun state => state.budget.rewrites) 1 echoStep := by
  intro state byte rest
  have turn := echoStep_turn state byte rest
  generalize echoStep state byte rest = result at turn ⊢
  cases turn with
  | copy =>
      exact ⟨Nat.zero_le _, [byte], state.copy_out byte,
        .inl ⟨rfl, congrArg Budget.rewrites (state.copy_budget byte)⟩⟩
  | splice found =>
      obtain ⟨fits, printed⟩ := spliceCandidate_take found
      exact ⟨fits, _, rfl, .inr ⟨printed, rfl⟩⟩

/-! ## Whole passes -/

/-- A pass returns its text as it is, or rewrites the bytes. -/
def PassRewrites (kept replaced : Str → Str → Prop) (spans : Nat)
    (before after : Str) : Prop :=
  (spans = 0 ∧ after = before) ∨
    Rewritten kept replaced spans (asBytes before) after

theorem joinLineContinuations_rewrites (text : Str) (budget : Budget) :
    ∃ spans,
      (joinLineContinuations text budget).2.rewrites =
        budget.rewrites + spans ∧
      PassRewrites Copied Continuation spans text
        (joinLineContinuations text budget).1 := by
  unfold joinLineContinuations
  split_ifs
  · obtain ⟨spans, emitted, out, spent, rewritten⟩ :=
      walk_rewritten joinStep_emits (asBytes text) { out := [], budget }
    rw [Nat.mul_one] at spent
    refine ⟨spans, spent, .inr ?_⟩
    simp only
    rw [out]
    exact rewritten
  · exact ⟨0, rfl, .inl ⟨rfl, rfl⟩⟩

/-- Both quote-tracking rewriters start alike. -/
theorem rewriter_rewrites {kept replaced : Str → Str → Prop}
    {step : RewriteState → Char → List Char → RewriteState × Nat}
    (emits : Emits kept replaced RewriteState.out
      (fun state => state.budget.rewrites) 1 step)
    (text : Str) (budget : Budget) :
    ∃ spans,
      (walk step (asBytes text) 0 (.start budget)).budget.rewrites =
        budget.rewrites + spans ∧
      PassRewrites kept replaced spans text
        (walk step (asBytes text) 0 (.start budget)).out := by
  obtain ⟨spans, emitted, out, spent, rewritten⟩ :=
    walk_rewritten emits (asBytes text) (.start budget)
  rw [Nat.mul_one] at spent
  exact ⟨spans, spent, .inr (out ▸ rewritten)⟩

theorem decodeAnsiC_rewrites (text : Str) (budget : Budget) :
    ∃ spans,
      (decodeAnsiC text budget).2.rewrites = budget.rewrites + spans ∧
      PassRewrites CopiedVerbatim AnsiCSpan spans text
        (decodeAnsiC text budget).1 := by
  unfold decodeAnsiC
  split_ifs
  · exact ⟨0, rfl, .inl ⟨rfl, rfl⟩⟩
  · exact rewriter_rewrites ansiCStep_emits text budget

theorem spliceEchoSubstitution_rewrites (text : Str) (budget : Budget) :
    ∃ spans,
      (spliceEchoSubstitution text budget).2.rewrites =
        budget.rewrites + spans ∧
      PassRewrites Copied EchoSubstitution spans text
        (spliceEchoSubstitution text budget).1 := by
  unfold spliceEchoSubstitution
  split_ifs
  · exact ⟨0, rfl, .inl ⟨rfl, rfl⟩⟩
  · exact rewriter_rewrites echoStep_emits text budget

/-! ## Variables -/

theorem takeWhile_to_brace {name : Str} (noBrace : '}' ∉ name) (rest : Str) :
    (name ++ '}' :: rest).takeWhile (fun byte => byte != '}') = name := by
  rw [List.takeWhile_append_of_pos, List.takeWhile_cons_of_neg (by simp),
    List.append_nil]
  intro char member
  have differs : char ≠ '}' := by
    rintro rfl
    exact noBrace member
  simpa using differs

/-- A reference is read from the bytes that the step consumes. -/
theorem variableReference_take {rest name : Str} {advanced : Nat}
    (found : variableReference rest = some (name, advanced)) :
    advanced ≤ rest.length ∧ (rest.take advanced = name ∨
      rest.take advanced = '{' :: (name ++ ['}'])) := by
  unfold variableReference at found
  split at found
  · cases found
  · rename_i rest
    split_ifs at found with closes
    obtain ⟨before, after, rfl, absent⟩ := List.eq_append_cons_of_mem closes
    rw [takeWhile_to_brace absent] at found
    simp only at found
    split_ifs at found
    obtain ⟨rfl, rfl⟩ := Prod.mk.inj (Option.some.inj found)
    refine ⟨by simp, .inr ?_⟩
    simp [List.take_append]
  · simp only at found
    split_ifs at found
    obtain ⟨rfl, rfl⟩ := Prod.mk.inj (Option.some.inj found)
    have front := List.takeWhile_prefix
      (fun byte => isAsciiAlphanumeric byte || byte == '_') (l := rest)
    exact ⟨front.length_le, .inl (List.prefix_iff_eq_take.mp front).symm⟩

theorem expandStep_emits (vars : Vars) :
    Emits Copied (Reference vars) id (fun _ => 0) 0 (expandStep vars) := by
  intro out byte rest
  have copied : EmitsAt Copied (Reference vars) id (fun _ => 0) 0 out byte rest
      (out ++ [byte], 0) :=
    ⟨Nat.zero_le _, [byte], rfl, .inl ⟨rfl, rfl⟩⟩
  unfold expandStep
  split_ifs with dollar
  · subst dollar
    cases found : variableReference rest with
    | none => exact copied
    | some reference =>
        obtain ⟨name, advanced⟩ := reference
        simp only
        cases bound : vars.lookup name with
        | none => exact copied
        | some value =>
            obtain ⟨fits, shape⟩ := variableReference_take found
            refine ⟨fits, value, rfl, .inr ⟨⟨name, bound, ?_⟩, rfl⟩⟩
            rcases shape with bare | braced
            · exact .inl (congrArg ('$' :: ·) bare)
            · exact .inr (congrArg ('$' :: ·) braced)
  · exact copied

theorem expandVars_rewrites (text : Str) (vars : Vars) :
    ∃ spans, Rewritten Copied (Reference vars) spans (asBytes text)
      (expandVars text vars) := by
  obtain ⟨spans, emitted, out, -, rewritten⟩ :=
    walk_rewritten (expandStep_emits vars) (asBytes text) []
  have same : expandVars text vars = emitted := out
  exact ⟨spans, same ▸ rewritten⟩

end TrustLayer.AgentGuard.Gate
