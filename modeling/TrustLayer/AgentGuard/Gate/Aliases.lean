import TrustLayer.AgentGuard.Gate.Printing
import TrustLayer.AgentGuard.Gate.Spans

/-!
# Aliases

`resolve_assignments` against the sequential execution of assignments.  A leg
is read as a list of tokens, and substitution replaces the references among
them.  Right-hand sides are bound as they are written, so one level of aliasing
is followed and no more.
-/

namespace TrustLayer.AgentGuard.Gate

open TrustLayer.Library

/-! ## Tokens -/

/-- `[A-Za-z_]`. -/
def isNameStart (char : Char) : Bool :=
  isAsciiAlphabetic char || char == '_'

/-- A character of a leg, or a reference to a variable. -/
inductive Token where
  | literal (char : Char)
  | bare (name : Str)
  | braced (name : Str)
  deriving DecidableEq

namespace Token

def source : Token → Str
  | literal char => [char]
  | bare name => '$' :: name
  | braced name => '$' :: '{' :: (name ++ ['}'])

def sourceAll (tokens : List Token) : Str :=
  tokens.flatMap source

end Token

/-- No reference is read after a dollar sign in front of the text. -/
def NoReference (text : Str) : Prop :=
  (∀ char ∈ text.head?, isNameStart char = false) ∧
    ∀ name, isValidVarName name = true → ¬ '{' :: (name ++ ['}']) <+: text

/-- The tokens that a text is read as: every reference is one token, and a
name that stands without braces is as long as it can be. -/
inductive Reads : List Token → Prop where
  | nil : Reads []
  | literal {char : Char} {tokens : List Token} :
      (char = '$' → NoReference (Token.sourceAll tokens)) →
      Reads tokens → Reads (.literal char :: tokens)
  | bare {name : Str} {tokens : List Token} :
      isValidVarName name = true →
      (∀ char ∈ (Token.sourceAll tokens).head?, isNameChar char = false) →
      Reads tokens → Reads (.bare name :: tokens)
  | braced {name : Str} {tokens : List Token} :
      isValidVarName name = true →
      Reads tokens → Reads (.braced name :: tokens)

/-! ## Sequential execution -/

/-- The values of the variables that are set. -/
abbrev Env := Str → Option Str

namespace Token

/-- A reference to a variable that is not set stays as it is. -/
def value (env : Env) : Token → Str
  | literal char => [char]
  | bare name => (env name).getD (bare name).source
  | braced name => (env name).getD (braced name).source

def valueAll (env : Env) (tokens : List Token) : Str :=
  tokens.flatMap (value env)

end Token

/-- Every reference of the text to a variable that is set is replaced by its
value, and nothing else is changed. -/
def Substitutes (env : Env) (text result : Str) : Prop :=
  ∃ tokens, Reads tokens ∧ Token.sourceAll tokens = text ∧
    Token.valueAll env tokens = result

/-- The right-hand side of an assignment is bound as it is written. -/
def AsWritten (_ : Env) (written value : Str) : Prop :=
  value = written

/-- The assignments among the legs are executed in order; `binds` says which
value a right-hand side is given. -/
inductive Executes (binds : Env → Str → Str → Prop) :
    Env → List Str → Env → Prop where
  | nil {env : Env} : Executes binds env [] env
  | assign {env last : Env} {leg name written value : Str} {legs : List Str} :
      parseAssignment leg = some (name, written) →
      binds env written value →
      Executes binds (Function.update env name (some value)) legs last →
      Executes binds env (leg :: legs) last
  | other {env last : Env} {leg : Str} {legs : List Str} :
      parseAssignment leg = none →
      Executes binds env legs last →
      Executes binds env (leg :: legs) last

/-- No variable is set. -/
def Env.empty : Env :=
  fun _ => none

/-- Every leg is returned as the bindings before it substitute it. -/
def ResolvesBy (binds : Env → Str → Str → Prop) (legs : List Str) : Prop :=
  ∀ before leg after env, legs = before ++ leg :: after → IsAscii leg →
    Executes binds .empty before env →
    ∀ result, Substitutes env leg result ↔
      (resolveAssignments legs)[before.length]? = some result

/-! ## Reading a text -/

theorem isNameChar_of_isNameStart {char : Char}
    (starts : isNameStart char = true) : isNameChar char = true := by
  simp only [isNameStart, isNameChar, isAsciiAlphanumeric, Bool.or_eq_true]
    at starts ⊢
  rcases starts with letter | underscore
  · exact .inl (.inl letter)
  · exact .inr underscore

theorem isValidVarName_cons {char : Char} {name : Str} :
    isValidVarName (char :: name) = true ↔
      isNameStart char = true ∧ ∀ char ∈ name, isNameChar char = true := by
  simp [isValidVarName, isNameStart, isNameChar]

theorem isNameChar_of_mem {name : Str} (valid : isValidVarName name = true) :
    ∀ char ∈ name, isNameChar char = true := by
  cases name with
  | nil => simp [isValidVarName] at valid
  | cons first name =>
      obtain ⟨starts, later⟩ := isValidVarName_cons.mp valid
      exact List.forall_mem_cons.mpr
        ⟨isNameChar_of_isNameStart starts, later⟩

/-- A name is read to its end. -/
theorem exists_name {first : Char} {text : Str}
    (starts : isNameStart first = true) :
    ∃ name behind, first :: text = name ++ behind ∧
      isValidVarName name = true ∧
      ∀ char ∈ behind.head?, isNameChar char = false := by
  refine ⟨first :: text.takeWhile isNameChar, text.dropWhile isNameChar, ?_,
    isValidVarName_cons.mpr ⟨starts, fun _ => List.mem_takeWhile_imp⟩, ?_⟩
  · rw [List.cons_append, List.takeWhile_append_dropWhile]
  · intro char head
    have stops := List.head?_dropWhile_not isNameChar text
    rw [Option.mem_def.mp head] at stops
    exact stops

/-- A text without a dollar sign holds no reference. -/
theorem reads_literals {text : Str} (noDollar : '$' ∉ text) :
    Reads (text.map .literal) := by
  induction text with
  | nil => exact .nil
  | cons char text induction =>
      obtain ⟨head, tail⟩ := not_or.mp (mt List.mem_cons.mpr noDollar)
      exact .literal (fun dollar => absurd dollar.symm head) (induction tail)

@[simp] theorem sourceAll_literals (text : Str) :
    Token.sourceAll (text.map .literal) = text := by
  simp [Token.sourceAll, List.flatMap_map, Token.source]

@[simp] theorem valueAll_literals (env : Env) (text : Str) :
    Token.valueAll env (text.map .literal) = text := by
  simp [Token.valueAll, List.flatMap_map, Token.value]

theorem substitutes_literal {text : Str} (noDollar : '$' ∉ text) (env : Env) :
    Substitutes env text text :=
  ⟨_, reads_literals noDollar, sourceAll_literals text,
    valueAll_literals env text⟩

/-- A reference in front of a text is substituted by itself. -/
theorem substitutes_bare {name text : Str} (valid : isValidVarName name = true)
    (stops : ∀ char ∈ text.head?, isNameChar char = false)
    (noDollar : '$' ∉ text) {env : Env} {value : Str}
    (bound : env name = some value) :
    Substitutes env ('$' :: (name ++ text)) (value ++ text) := by
  refine ⟨.bare name :: text.map .literal,
    .bare valid (by rwa [sourceAll_literals]) (reads_literals noDollar), ?_, ?_⟩
  · rw [Token.sourceAll, List.flatMap_cons]
    exact congrArg (('$' :: name) ++ ·) (sourceAll_literals text)
  · rw [Token.valueAll, List.flatMap_cons, Token.value, bound]
    exact congrArg (value ++ ·) (valueAll_literals env text)

/-- Every text can be read. -/
theorem exists_reads (text : Str) :
    ∃ tokens, Reads tokens ∧ Token.sourceAll tokens = text := by
  induction size : text.length using Nat.strong_induction_on
    generalizing text with
  | _ length induction =>
      cases text with
      | nil => exact ⟨[], .nil, rfl⟩
      | cons char rest =>
          have shorter : ∀ behind, behind <:+ rest →
              ∃ tokens, Reads tokens ∧ Token.sourceAll tokens = behind := by
            intro behind suffix
            have le := suffix.length_le
            rw [List.length_cons] at size
            exact induction behind.length (by omega) behind rfl
          by_cases literal : char = '$' → NoReference rest
          · obtain ⟨tokens, reads, rfl⟩ := shorter rest (List.suffix_refl _)
            exact ⟨_, .literal literal reads, rfl⟩
          · obtain ⟨rfl, reference⟩ := Classical.not_imp.mp literal
            rw [NoReference, not_and_or] at reference
            push Not at reference
            rcases reference with ⟨first, head, starts⟩ | ⟨name, valid, front⟩
            · obtain ⟨more, rfl⟩ := List.head?_eq_some_iff.mp head
              obtain ⟨name, behind, parts, valid, stops⟩ :=
                @exists_name first more (by simpa using starts)
              rw [parts] at shorter ⊢
              obtain ⟨tokens, reads, rfl⟩ :=
                shorter behind (List.suffix_append _ _)
              exact ⟨_, .bare valid stops reads, rfl⟩
            · obtain ⟨behind, rfl⟩ := front
              obtain ⟨tokens, reads, rfl⟩ :=
                shorter behind (List.suffix_append _ _)
              refine ⟨_, .braced valid reads, ?_⟩
              simp [Token.sourceAll, Token.source]

/-! ## The reader of the code -/

theorem dollar_not_mem_name {name : Str} (valid : isValidVarName name = true) :
    '$' ∉ name := by
  intro member
  exact absurd (isNameChar_of_mem valid '$' member) (by decide)

theorem brace_not_mem_name {name : Str} (valid : isValidVarName name = true) :
    '}' ∉ name := by
  intro member
  exact absurd (isNameChar_of_mem valid '}' member) (by decide)

theorem variableReference_braced {name : Str}
    (valid : isValidVarName name = true) (rest : Str) :
    variableReference ('{' :: (name ++ '}' :: rest)) =
      some (name, name.length + 2) := by
  simp [variableReference, takeWhile_to_brace (brace_not_mem_name valid), valid]

theorem variableReference_of_ne_brace {rest : Str}
    (noBrace : rest.head? ≠ some '{') :
    variableReference rest =
      if (rest.takeWhile isNameChar).isEmpty then none
      else some (rest.takeWhile isNameChar, (rest.takeWhile isNameChar).length) := by
  unfold variableReference
  split
  · rfl
  · simp at noBrace
  · rfl

theorem variableReference_bare {name : Str}
    (valid : isValidVarName name = true) {rest : Str}
    (stops : ∀ char ∈ rest.head?, isNameChar char = false) :
    variableReference (name ++ rest) = some (name, name.length) := by
  have names := isNameChar_of_mem valid
  cases name with
  | nil => simp [isValidVarName] at valid
  | cons first name =>
      have read : (first :: name ++ rest).takeWhile isNameChar =
          first :: name := by
        rw [List.takeWhile_append_of_pos names]
        cases rest with
        | nil => rw [List.takeWhile_nil, List.append_nil]
        | cons char rest =>
            rw [List.takeWhile_cons_of_neg
              (by simpa using stops char (by simp)), List.append_nil]
      rw [variableReference_of_ne_brace, read]
      · rfl
      · intro brace
        obtain rfl := Option.some.inj brace
        exact absurd (names '{' List.mem_cons_self) (by decide)

/-- Where no reference is read, the code finds no name that can be bound. -/
theorem variableReference_of_noReference {text name : Str} {advanced : Nat}
    (plain : NoReference text)
    (found : variableReference text = some (name, advanced)) :
    isValidVarName name = false := by
  obtain ⟨noStart, noBraces⟩ := plain
  by_cases brace : text.head? = some '{'
  · obtain ⟨rest, rfl⟩ := List.head?_eq_some_iff.mp brace
    simp only [variableReference] at found
    split_ifs at found with closes valid
    obtain ⟨before, after, rfl, absent⟩ := List.eq_append_cons_of_mem closes
    rw [takeWhile_to_brace absent] at valid
    refine absurd ?_ (noBraces before valid)
    exact ⟨after, by simp⟩
  · rw [variableReference_of_ne_brace brace] at found
    split_ifs at found with empty
    obtain ⟨rfl, -⟩ := Prod.mk.inj (Option.some.inj found)
    cases text with
    | nil => simp at empty
    | cons first text =>
        have noName := noStart first (by simp)
        by_cases later : isNameChar first = true
        · rw [List.takeWhile_cons_of_pos later, isValidVarName]
          exact Bool.and_eq_false_imp.mpr fun starts => absurd starts
            (by simpa [isNameStart] using noName)
        · rw [List.takeWhile_cons_of_neg later]
          rfl

/-! ## Substitution by the code -/

theorem expandStep_of_ne {byte : Char} (other : byte ≠ '$') (vars : Vars)
    (out rest : Str) : expandStep vars out byte rest = (out ++ [byte], 0) := by
  rw [expandStep, if_neg other]

/-- A text without a dollar sign is copied. -/
theorem walk_expand_copy {text : Str} (noDollar : '$' ∉ text) (vars : Vars)
    (out rest : Str) :
    walk (expandStep vars) (text ++ rest) 0 out =
      walk (expandStep vars) rest 0 (out ++ text) := by
  induction text generalizing out with
  | nil => simp
  | cons char text induction =>
      obtain ⟨head, tail⟩ := not_or.mp (mt List.mem_cons.mpr noDollar)
      rw [List.cons_append, walk_one (expandStep_of_ne (Ne.symm head) vars _ _),
        induction tail, List.append_assoc, List.singleton_append]

theorem walk_expand_reference {body name rest : Str}
    (found : variableReference (body ++ rest) = some (name, body.length))
    (noDollar : '$' ∉ body) (vars : Vars) (out : Str) :
    walk (expandStep vars) ('$' :: (body ++ rest)) 0 out =
      walk (expandStep vars) rest 0
        (out ++ (vars.lookup name).getD ('$' :: body)) := by
  cases bound : vars.lookup name with
  | none =>
      have kept : expandStep vars out '$' (body ++ rest) = (out ++ ['$'], 0) := by
        simp [expandStep, found, bound]
      rw [walk_one kept, walk_expand_copy noDollar]
      simp
  | some value =>
      have replaced : expandStep vars out '$' (body ++ rest) =
          (out ++ value, body.length) := by
        simp [expandStep, found, bound]
      rw [walk_cons_of_eq replaced, List.drop_left]
      rfl

/-- Only names of the right shape are bound. -/
def Vars.Named (vars : Vars) : Prop :=
  ∀ name, isValidVarName name = false → vars.lookup name = none

theorem walk_expand_literal {vars : Vars} (named : vars.Named) {char : Char}
    {rest : Str} (plain : char = '$' → NoReference rest) (out : Str) :
    walk (expandStep vars) (char :: rest) 0 out =
      walk (expandStep vars) rest 0 (out ++ [char]) := by
  apply walk_one
  by_cases dollar : char = '$'
  · rw [expandStep, if_pos dollar]
    cases found : variableReference rest with
    | none => rfl
    | some reference =>
        obtain ⟨name, advanced⟩ := reference
        have invalid := variableReference_of_noReference (plain dollar) found
        simp only [named name invalid]
  · exact expandStep_of_ne dollar vars out rest

/-- The code substitutes the tokens of a text one after the other. -/
theorem walk_expand {vars : Vars} (named : vars.Named) {tokens : List Token}
    (reads : Reads tokens) (out : Str) :
    walk (expandStep vars) (Token.sourceAll tokens) 0 out =
      out ++ Token.valueAll (fun name => vars.lookup name) tokens := by
  induction reads generalizing out with
  | nil => simp [Token.sourceAll, Token.valueAll]
  | @literal char tokens plain reads induction =>
      calc walk (expandStep vars) (char :: Token.sourceAll tokens) 0 out
          = walk (expandStep vars) (Token.sourceAll tokens) 0 (out ++ [char]) :=
            walk_expand_literal named plain out
        _ = out ++ [char] ++ Token.valueAll (fun name => vars.lookup name) tokens :=
            induction _
        _ = _ := by simp [Token.valueAll, Token.value]
  | @bare name tokens valid stops reads induction =>
      have step := walk_expand_reference (variableReference_bare valid stops)
        (dollar_not_mem_name valid) vars out
      calc walk (expandStep vars) ('$' :: (name ++ Token.sourceAll tokens)) 0 out
          = _ := step
        _ = _ := induction _
        _ = _ := by simp [Token.valueAll, Token.value, Token.source]
  | @braced name tokens valid reads induction =>
      have found := variableReference_braced valid (Token.sourceAll tokens)
      have step := @walk_expand_reference ('{' :: (name ++ ['}'])) name
        (Token.sourceAll tokens) (by simpa using found)
        (by simpa using dollar_not_mem_name valid) vars out
      calc walk (expandStep vars) (Token.sourceAll (.braced name :: tokens)) 0 out
          = _ := step
        _ = _ := induction _
        _ = _ := by simp [Token.valueAll, Token.value, Token.source]

theorem substitutes_iff {vars : Vars} (named : vars.Named) {text : Str}
    (ascii : IsAscii text) (result : Str) :
    Substitutes (fun name => vars.lookup name) text result ↔
      expandVars text vars = result := by
  rw [expandVars, asBytes_of_ascii ascii]
  constructor
  · rintro ⟨tokens, reads, rfl, rfl⟩
    exact walk_expand named reads []
  · rintro rfl
    obtain ⟨tokens, reads, rfl⟩ := exists_reads text
    exact ⟨tokens, reads, rfl, (walk_expand named reads []).symm⟩

/-! ## Bindings -/

theorem parseAssignment_eq_some_iff {leg name written : Str} :
    parseAssignment leg = some (name, written) ↔
      isValidVarName name = true ∧
        ∃ text, leg = name ++ '=' :: text ∧ written = stripQuotes text := by
  constructor
  · intro parsed
    rw [parseAssignment] at parsed
    cases found : splitFirst "=".toList leg with
    | none =>
        rw [found] at parsed
        cases parsed
    | some parts =>
        obtain ⟨before, text⟩ := parts
        simp only [found] at parsed
        split_ifs at parsed with valid
        obtain ⟨rfl, rfl⟩ := Prod.mk.inj (Option.some.inj parsed)
        exact ⟨valid, text, (splitFirst_eq_some_iff.mp found).2, rfl⟩
  · rintro ⟨valid, text, rfl, rfl⟩
    have noEquals : '=' ∉ name := fun member =>
      absurd (isNameChar_of_mem valid '=' member) (by decide)
    have found : splitFirst "=".toList (name ++ '=' :: text) = some (name, text) :=
      splitFirst_eq_some_iff.mpr ⟨noEquals, rfl⟩
    rw [parseAssignment, found]
    exact if_pos valid

theorem Vars.Named.nil : Vars.Named [] :=
  fun _ _ => rfl

theorem Vars.Named.cons {vars : Vars} (named : vars.Named) {name value : Str}
    (valid : isValidVarName name = true) : Vars.Named ((name, value) :: vars) := by
  intro other invalid
  have differs : (other == name) = false := by
    rw [beq_eq_false_iff_ne]
    rintro rfl
    rw [valid] at invalid
    exact absurd invalid (by decide)
  rw [List.lookup_cons, differs]
  exact named other invalid

theorem resolveStep_named {state : Vars × List Str} (named : state.1.Named)
    (leg : Str) : (resolveStep state leg).1.Named := by
  unfold resolveStep
  cases parsed : parseAssignment leg with
  | none => exact named
  | some binding =>
      obtain ⟨name, written⟩ := binding
      exact named.cons (parseAssignment_eq_some_iff.mp parsed).1

theorem resolve_named {state : Vars × List Str} (named : state.1.Named)
    (legs : List Str) : (legs.foldl resolveStep state).1.Named := by
  induction legs generalizing state with
  | nil => exact named
  | cons leg legs induction => exact induction (resolveStep_named named leg)

theorem lookup_binding (vars : Vars) (name value : Str) :
    (fun other => List.lookup other ((name, value) :: vars)) =
      Function.update (fun other => vars.lookup other) name (some value) := by
  funext other
  by_cases same : other = name
  · subst same
    simp
  · have differs : (other == name) = false := beq_eq_false_iff_ne.mpr same
    simp [List.lookup_cons, differs, same]

/-- The loop binds what the assignments bind as they are written. -/
theorem executes_asWritten_iff {legs : List Str} {state : Vars × List Str}
    {last : Env} :
    Executes AsWritten (fun name => state.1.lookup name) legs last ↔
      last = fun name => (legs.foldl resolveStep state).1.lookup name := by
  induction legs generalizing state with
  | nil =>
      constructor
      · rintro ⟨⟩
        rfl
      · rintro rfl
        exact .nil
  | cons leg legs induction =>
      rw [List.foldl_cons, ← induction]
      cases parsed : parseAssignment leg with
      | none =>
          have kept : (resolveStep state leg).1 = state.1 := by
            simp [resolveStep, parsed]
          rw [kept]
          constructor
          · intro executes
            cases executes with
            | assign assigned => rw [parsed] at assigned; cases assigned
            | other _ later => exact later
          · exact .other parsed
      | some binding =>
          obtain ⟨name, written⟩ := binding
          have bound : (resolveStep state leg).1 = (name, written) :: state.1 := by
            simp [resolveStep, parsed]
          rw [bound, lookup_binding]
          constructor
          · intro executes
            cases executes with
            | assign assigned binds later =>
                obtain ⟨rfl, rfl⟩ :=
                  Prod.mk.inj (Option.some.inj (parsed.symm.trans assigned))
                obtain rfl := binds
                exact later
            | other unbound => rw [parsed] at unbound; cases unbound
          · exact .assign parsed rfl

theorem resolve_front (legs : List Str) (state : Vars × List Str) :
    state.2 <+: (legs.foldl resolveStep state).2 := by
  induction legs generalizing state with
  | nil => exact List.prefix_rfl
  | cons leg legs induction =>
      exact (List.prefix_append _ _).trans (induction (resolveStep state leg))

theorem resolve_length (legs : List Str) (state : Vars × List Str) :
    (legs.foldl resolveStep state).2.length = state.2.length + legs.length := by
  induction legs generalizing state with
  | nil => rfl
  | cons leg legs induction =>
      rw [List.foldl_cons, induction, resolveStep, List.length_append,
        List.length_singleton, List.length_cons]
      omega

/-- Each leg is expanded with the bindings of the legs before it. -/
theorem resolveAssignments_getElem? (before : List Str) (leg : Str)
    (after : List Str) :
    (resolveAssignments (before ++ leg :: after))[before.length]? =
      some (expandVars leg (before.foldl resolveStep ([], [])).1) := by
  rw [resolveAssignments, List.foldl_append, List.foldl_cons]
  obtain ⟨later, shape⟩ := resolve_front after
    (resolveStep (before.foldl resolveStep ([], [])) leg)
  have length := resolve_length before ([], [])
  rw [← shape, resolveStep, List.append_assoc, List.getElem?_append_right
    (by simp [length])]
  simp [length]

theorem resolvesBy_asWritten (legs : List Str) : ResolvesBy AsWritten legs := by
  rintro before leg after env rfl ascii executes result
  obtain rfl := (@executes_asWritten_iff before ([], []) env).mp executes
  rw [resolveAssignments_getElem?, Option.some.injEq]
  exact substitutes_iff (resolve_named .nil before) ascii result

theorem exists_executes_asWritten (legs : List Str) :
    ∃ env, Executes AsWritten .empty legs env :=
  ⟨_, (@executes_asWritten_iff legs ([], []) _).mpr rfl⟩

/-! ## A removal behind an alias -/

/-- `NAME=rm; $NAME -rf ~`. -/
def aliased (name : Str) : Str :=
  (name ++ "=rm".toList) ++ ';' :: ' ' :: '$' :: (name ++ " -rf ~".toList)

theorem isAscii_of_isNameChar {name : Str}
    (named : ∀ char ∈ name, isNameChar char = true) : IsAscii name := by
  intro char member
  have named := named char member
  simp only [isNameChar, isAsciiAlphanumeric, isAsciiAlphabetic, isAsciiDigit,
    Bool.or_eq_true, Bool.and_eq_true, decide_eq_true_eq, beq_iff_eq,
    Char.le_def, UInt32.le_iff_toNat_le] at named
  rcases named with ((lower | upper) | digit) | rfl
  · exact Nat.lt_of_le_of_lt lower.2 (by decide)
  · exact Nat.lt_of_le_of_lt upper.2 (by decide)
  · exact Nat.lt_of_le_of_lt digit.2 (by decide)
  · decide

theorem isAscii_of_name {name : Str} (valid : isValidVarName name = true) :
    IsAscii name :=
  isAscii_of_isNameChar (isNameChar_of_mem valid)

theorem not_mem_name {name : Str} (valid : isValidVarName name = true)
    {char : Char} (special : isNameChar char = false) : char ∉ name := by
  intro member
  rw [isNameChar_of_mem valid char member] at special
  exact absurd special (by decide)

theorem not_mem_aliased {name : Str} (valid : isValidVarName name = true)
    {char : Char} (special : isNameChar char = false)
    (absent : char ∉ "=rm; $ -rf ~".toList) : char ∉ aliased name := by
  have noName := not_mem_name valid special
  simp at absent
  simp [aliased, noName, absent]

theorem scanInput_aliased {name : Str} (valid : isValidVarName name = true) :
    (scanInput (aliased name) .default).command = aliased name := by
  have absent : ∀ char ∈ ['\\', '\'', '`', '('], char ∉ aliased name := by
    intro char member
    refine not_mem_aliased valid ?_ ?_ <;> revert char <;> decide
  have noSpan : NoSpan (aliased name) :=
    noSpan_of_not_mem (absent _ (by decide))
  have noBody : NoBody (aliased name) :=
    noBody_of_not_mem (absent _ (by decide)) (absent _ (by decide))
  apply scanInput_eq_self
  · have ascii := isAscii_of_name valid
    simp [aliased, ascii]
  · exact noContinuation_of_not_mem (absent _ (by decide))
  · exact fun budget => walk_ansiC_noSpan noSpan (.start budget)
  · exact fun budget => walk_echo_noBody noBody (.start budget)

theorem trim_assignment {name : Str} (valid : isValidVarName name = true) :
    trim (name ++ "=rm".toList) = name ++ "=rm".toList := by
  apply trim_of_ends
  · have visible := isWhitespace_of_mem_varName valid
    intro char head
    cases name with
    | nil => simp [isValidVarName] at valid
    | cons first name =>
        obtain rfl := Option.some.inj head
        exact visible first List.mem_cons_self
  · rw [List.getLast?_append_of_ne_nil _ (by decide)]
    decide

theorem trim_removal (name : Str) :
    trim (' ' :: '$' :: (name ++ " -rf ~".toList)) =
      '$' :: (name ++ " -rf ~".toList) := by
  rw [trim_cons_of_isWhitespace (by decide)]
  apply trim_of_ends
  · intro char head
    obtain rfl := Option.some.inj head
    decide
  · rw [← List.cons_append, List.getLast?_append_of_ne_nil _ (by decide)]
    decide

theorem splitCompound_aliased {name : Str} (valid : isValidVarName name = true) :
    splitCompound (aliased name) =
      [name ++ "=rm".toList, '$' :: (name ++ " -rf ~".toList)] := by
  have plain : ∀ char ∈ name, char ∉ metacharacters := by
    intro char member special
    exact not_mem_name valid
      ((by decide : ∀ char ∈ metacharacters, isNameChar char = false) char special)
      member
  have front : ∀ char ∈ name ++ "=rm".toList, char ∉ metacharacters :=
    List.forall_mem_append.mpr ⟨plain, by decide⟩
  have back : ∀ char ∈ ' ' :: '$' :: (name ++ " -rf ~".toList),
      char ∉ metacharacters :=
    List.forall_mem_cons.mpr ⟨by decide, List.forall_mem_cons.mpr
      ⟨by decide, List.forall_mem_append.mpr ⟨plain, by decide⟩⟩⟩
  have ascii : IsAscii (aliased name) := by
    have ascii := isAscii_of_name valid
    simp [aliased, ascii]
  have start : SplitState.start.Outside := ⟨rfl, rfl⟩
  have assigned :
      (SplitState.start.pushAll (name ++ "=rm".toList)).Outside := start
  have separated :
      (SplitState.start.pushAll (name ++ "=rm".toList)).pushLeg.Outside := start
  have last := @walk_plain splitCompound _ _ [] separated back (by simp)
  rw [List.append_nil, walk_nil] at last
  rw [splitCompound_eq, asBytes_of_ascii ascii, aliased,
    walk_plain start front (by simp),
    walk_one (splitStep_separator assigned (by decide) (by simp)), last]
  have assignment := trim_assignment valid
  have removal := trim_removal name
  simp only [SplitState.pushLeg, SplitState.pushAll, SplitState.start,
    List.nil_append, assignment, removal]
  simp

/-- The alias is followed. -/
theorem resolveAssignments_aliased {name : Str}
    (valid : isValidVarName name = true) :
    "rm -rf ~".toList ∈
      resolveAssignments (splitCompound (aliased name)) := by
  have bound : parseAssignment (name ++ "=rm".toList) =
      some (name, "rm".toList) :=
    parseAssignment_eq_some_iff.mpr ⟨valid, "rm".toList, rfl, by decide⟩
  have executes : Executes AsWritten .empty [name ++ "=rm".toList]
      (Function.update Env.empty name (some "rm".toList)) :=
    .assign bound rfl .nil
  have ascii : IsAscii ('$' :: (name ++ " -rf ~".toList)) := by
    have ascii := isAscii_of_name valid
    simp [ascii]
  have value := @substitutes_bare name " -rf ~".toList valid (by decide)
    (by decide) _ "rm".toList (Function.update_self name _ Env.empty)
  rw [splitCompound_aliased valid]
  exact List.mem_of_getElem?
    ((resolvesBy_asWritten _ [_] _ [] _ rfl ascii executes _).mp value)

theorem evaluate_aliased [Base64Engine] {name : Str}
    (valid : isValidVarName name = true) :
    (evaluate (aliased name) .default).tier = .block := by
  obtain ⟨hit, legHit, severe⟩ :=
    @RatedBlock.legHit _ "rm -rf ~".toList (by decide) .default 0
  refine evaluate_default_block_iff.mpr ⟨hit, .leg ?_ legHit, severe⟩
  rw [scanInput_aliased valid]
  exact resolveAssignments_aliased valid

/-- Every leg is resolved by the last bindings before it, each as it was
written, and a removal behind one alias is blocked. -/
theorem resolveAssignments_followsOneAlias [Base64Engine] (legs : List Str) :
    ResolvesBy AsWritten legs ∧
      (∃ env, Executes AsWritten .empty legs env) ∧
      ∀ name, isValidVarName name = true →
        (evaluate (aliased name) .default).tier = .block :=
  ⟨resolvesBy_asWritten legs, exists_executes_asWritten legs,
    fun _ => evaluate_aliased⟩

/-! ## A removal behind two aliases -/

def chain : List Str :=
  ["a=rm".toList, "b=$a".toList, "$b -rf ~".toList]

/-- A shell runs `rm` for the last leg; the code leaves a reference in it. -/
theorem chain_not_expanded :
    ¬ ResolvesBy Substitutes chain ∧
      (@evaluate .standard "a=rm; b=$a; $b -rf ~".toList .default).tier =
        .allow := by
  refine ⟨?_, by decide +kernel⟩
  intro resolves
  let first : Env := Function.update Env.empty "a".toList (some "rm".toList)
  let second : Env := Function.update first "b".toList (some "rm".toList)
  have reference : Substitutes first "$a".toList "rm".toList :=
    @substitutes_bare "a".toList [] (by decide) (by decide) (by decide) first
      "rm".toList rfl
  have executes : Executes Substitutes .empty ["a=rm".toList, "b=$a".toList]
      second :=
    @Executes.assign _ _ _ _ "a".toList "rm".toList "rm".toList _ (by decide)
      (substitutes_literal (by decide) _)
      (@Executes.assign _ _ _ _ "b".toList "$a".toList "rm".toList _ (by decide)
        reference .nil)
  have value : Substitutes second "$b -rf ~".toList "rm -rf ~".toList :=
    @substitutes_bare "b".toList " -rf ~".toList (by decide) (by decide)
      (by decide) second "rm".toList rfl
  have resolved := (resolves ["a=rm".toList, "b=$a".toList] "$b -rf ~".toList []
    second rfl (by decide) executes "rm -rf ~".toList).mp value
  exact absurd resolved (by decide)

end TrustLayer.AgentGuard.Gate
