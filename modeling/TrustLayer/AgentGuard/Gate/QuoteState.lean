import TrustLayer.AgentGuard.Gate.Split
import TrustLayer.AgentGuard.Gate.Unchanged

/-!
# The quote states of the walkers

Three passes of normalization track quotes by bare toggling; the splitter also
honours backslashes and restarts in the body of a substitution.  They take the
same bytes for quoted exactly as long as no step reads a quote in its own way.
-/

namespace TrustLayer.AgentGuard.Gate

open TrustLayer.Library

/-! ## Bare toggling -/

/-- The two quote flags that every walker carries. -/
structure Quotes where
  inSingle : Bool
  inDouble : Bool
  deriving DecidableEq

namespace Quotes

/-- No quote is open. -/
def closed : Quotes :=
  { inSingle := false, inDouble := false }

def isOutside (quotes : Quotes) : Bool :=
  !quotes.inSingle && !quotes.inDouble

def toggle (quotes : Quotes) (byte : Char) : Quotes :=
  if byte = '\'' ∧ quotes.inDouble = false then
    { quotes with inSingle := !quotes.inSingle }
  else if byte = '"' ∧ quotes.inSingle = false then
    { quotes with inDouble := !quotes.inDouble }
  else quotes

/-- The flags behind a text of which every quote counts. -/
def after (quotes : Quotes) (text : Str) : Quotes :=
  text.foldl toggle quotes

/-- Which bytes of the text stand outside quotes. -/
def marks : Quotes → Str → List Bool
  | _, [] => []
  | quotes, byte :: rest => quotes.isOutside :: marks (quotes.toggle byte) rest

@[simp] theorem after_nil (quotes : Quotes) : quotes.after [] = quotes := rfl

@[simp] theorem after_cons (quotes : Quotes) (byte : Char) (rest : Str) :
    quotes.after (byte :: rest) = (quotes.toggle byte).after rest := rfl

theorem after_append (quotes : Quotes) (left right : Str) :
    quotes.after (left ++ right) = (quotes.after left).after right :=
  List.foldl_append

@[simp] theorem length_marks (quotes : Quotes) (text : Str) :
    (quotes.marks text).length = text.length := by
  induction text generalizing quotes with
  | nil => rfl
  | cons byte rest induction => simp [marks, induction]

theorem marks_append (quotes : Quotes) (left right : Str) :
    quotes.marks (left ++ right) =
      quotes.marks left ++ (quotes.after left).marks right := by
  induction left generalizing quotes with
  | nil => rfl
  | cons byte left induction => simp [marks, induction]

theorem isOutside_iff {quotes : Quotes} :
    quotes.isOutside = true ↔ quotes = closed := by
  cases quotes with
  | mk inSingle inDouble => cases inSingle <;> cases inDouble <;> decide

theorem toggle_of_plain (quotes : Quotes) {byte : Char}
    (plain : byte ≠ '\'' ∧ byte ≠ '"') : quotes.toggle byte = quotes := by
  simp [toggle, plain]

theorem after_of_plain {quotes : Quotes} {text : Str}
    (plain : ∀ char ∈ text, char ≠ '\'' ∧ char ≠ '"') :
    quotes.after text = quotes := by
  induction text with
  | nil => rfl
  | cons char text induction =>
      obtain ⟨head, tail⟩ := List.forall_mem_cons.mp plain
      rw [after_cons, toggle_of_plain _ head, induction tail]

/-- No byte of a wider character is a quote. -/
theorem after_asBytes (quotes : Quotes) (text : Str) :
    quotes.after (asBytes text) = quotes.after text := by
  induction text generalizing quotes with
  | nil => rfl
  | cons char text induction =>
      rw [asBytes_cons, after_append, induction, after_cons]
      congr 1
      by_cases ascii : char.toNat < 128
      · rw [asBytes_singleton_of_ascii ascii]
        rfl
      · have plain : ∀ byte : Char, 128 ≤ byte.toNat →
            byte ≠ '\'' ∧ byte ≠ '"' := by
          intro byte large
          constructor <;> rintro rfl <;> exact absurd large (by decide)
        rw [toggle_of_plain _ (plain char (Nat.le_of_not_lt ascii)),
          after_of_plain fun byte member =>
            plain byte (le_toNat_of_mem_asBytes ascii byte member)]

theorem marks_of_plain {quotes : Quotes} {text : Str}
    (plain : ∀ char ∈ text, char ≠ '\'' ∧ char ≠ '"') :
    quotes.marks text = text.map fun _ => quotes.isOutside := by
  induction text with
  | nil => rfl
  | cons char text induction =>
      obtain ⟨head, tail⟩ := List.forall_mem_cons.mp plain
      rw [marks, toggle_of_plain _ head, induction tail, List.map_cons]

/-- A byte that counts as a quote moves the flags across the outside. -/
theorem isOutside_toggle {quotes : Quotes} {byte : Char}
    (counts : quotes.toggle byte ≠ quotes) :
    (quotes.toggle byte).isOutside = !quotes.isOutside := by
  unfold toggle at counts ⊢
  split_ifs at counts ⊢ with single double
  · simp [isOutside, single.2]
  · simp [isOutside, double.2]
  · exact absurd rfl counts

end Quotes

/-! ## What the walkers take for outside -/

def LegState.quotes (state : LegState) : Quotes :=
  { inSingle := state.inSingle, inDouble := state.inDouble }

def RewriteState.quotes (state : RewriteState) : Quotes :=
  { inSingle := state.inSingle, inDouble := state.inDouble }

def SplitState.quotes (state : SplitState) : Quotes :=
  { inSingle := state.inSingle, inDouble := state.inDouble }

/-- Whether each byte stands outside quotes for `top_level_legs`. -/
def topLevelView (command : Str) : List (Option Bool) :=
  walkMarks topLevelStep (fun state _ _ => [some state.quotes.isOutside])
    (asBytes command) 0 .start

/-- A rewriter marks the bytes it stands at; those it jumps over are `none`. -/
def rewriteMark (step : RewriteState → Char → List Char → RewriteState × Nat)
    (state : RewriteState) (byte : Char) (rest : List Char) :
    List (Option Bool) :=
  some state.quotes.isOutside ::
    (rest.take (step state byte rest).2).map fun _ => none

def ansiCView (command : Str) (budget : Budget) : List (Option Bool) :=
  walkMarks ansiCStep (rewriteMark ansiCStep) (asBytes command) 0
    (.start budget)

def echoView (command : Str) (budget : Budget) : List (Option Bool) :=
  walkMarks echoStep (rewriteMark echoStep) (asBytes command) 0 (.start budget)

/-- A step that hands the body of a substitution to a recursive call. -/
def opensParen (state : SplitState) (byte : Char) (rest : List Char) : Prop :=
  state.quotes = .closed ∧ (byte = '$' ∨ byte = '<' ∨ byte = '>') ∧
    rest.head? = some '('

def opensTick (state : SplitState) (byte : Char) : Prop :=
  state.quotes = .closed ∧ byte = '`'

instance decidableOpensParen (state : SplitState) (byte : Char)
    (rest : List Char) : Decidable (opensParen state byte rest) :=
  inferInstanceAs (Decidable (_ ∧ _))

instance decidableOpensTick (state : SplitState) (byte : Char) :
    Decidable (opensTick state byte) :=
  inferInstanceAs (Decidable (_ ∧ _))

/-- The marks of one turn of the splitter; `view` marks the body of a
substitution as the recursive call reads it. -/
def splitMark (view : Str → List Bool) (state : SplitState) (byte : Char)
    (rest : List Char) : List Bool :=
  if opensParen state byte rest then
    let (inner, advanced) := extractParenBody rest.tail 1
    true :: (true :: (view inner ++ [true])).take (advanced + 1)
  else if opensTick state byte then
    let (inner, advanced) := extractBacktickBody rest
    true :: (view inner ++ [true]).take advanced
  else
    state.quotes.isOutside ::
      (rest.take (splitStep splitCompound [] state byte rest).2).map
        fun _ => state.quotes.isOutside

def splitViewNested : (nesting : Nat) → (command : Str) → List Bool
  | 0, _ => []
  | nesting + 1, command =>
      walkMarks (splitStep splitCompound [])
        (splitMark (splitViewNested nesting)) (asBytes command) 0 .start

/-- Whether each byte stands outside quotes for `split_compound` and the calls
it makes on the bodies of substitutions. -/
def splitView (command : Str) : List Bool :=
  splitViewNested (command.length + 1) command

/-- A walker takes every byte it stands at as the splitter does. -/
def SeesAs (marks : List (Option Bool)) (view : List Bool) : Prop :=
  List.Forall₂ (fun mark outside => ∀ seen ∈ mark, seen = outside) marks view

/-- The three passes take the bytes of the command for quoted as the splitter
does. -/
def QuotesAgree (command : Str) (budget : Budget) : Prop :=
  SeesAs (topLevelView command) (splitView command) ∧
    SeesAs (ansiCView command budget) (splitView command) ∧
    SeesAs (echoView command budget) (splitView command)

/-! ## Steps that read quotes alike -/

/-- A rewriter jumps over a text only if the quotes in it are closed again, or
if nothing follows. -/
def RewriteKeeps (step : RewriteState → Char → List Char → RewriteState × Nat)
    (state : RewriteState) (byte : Char) (rest : List Char) : Prop :=
  let skip := (step state byte rest).2
  skip ≠ 0 → rest.drop skip ≠ [] →
    state.quotes.after (byte :: rest.take skip) = .closed

/-- The splitter escapes a quote only at the end of the text, and a body that
it cuts out is in step itself and closes its quotes before it is closed. -/
def SplitKeeps (inStep : Str → Prop) (state : SplitState) (byte : Char)
    (rest : List Char) : Prop :=
  (∀ escaped later, state.inSingle = false → byte = '\\' →
    rest = escaped :: later → later ≠ [] →
      state.quotes.toggle escaped = state.quotes) ∧
  (opensParen state byte rest →
    let (inner, advanced) := extractParenBody rest.tail 1
    inStep inner ∧
      (inner.length < advanced → Quotes.closed.after inner = .closed)) ∧
  (opensTick state byte →
    let (inner, advanced) := extractBacktickBody rest
    inStep inner ∧
      (inner.length < advanced → Quotes.closed.after inner = .closed))

def splitInStepNested : (nesting : Nat) → (command : Str) → Prop
  | 0, _ => True
  | nesting + 1, command =>
      AlongWalk (splitStep splitCompound [])
        (SplitKeeps (splitInStepNested nesting)) (asBytes command) 0 .start

/-- No step of a walker over the command reads a quote in its own way. -/
structure InStep (command : Str) (budget : Budget) : Prop where
  split : splitInStepNested (command.length + 1) command
  ansiC : AlongWalk ansiCStep (RewriteKeeps ansiCStep) (asBytes command) 0
    (.start budget)
  echo : AlongWalk echoStep (RewriteKeeps echoStep) (asBytes command) 0
    (.start budget)

/-! ## The rewriters -/

@[simp] theorem RewriteState.quotes_copy (state : RewriteState) (byte : Char) :
    (state.copy byte).quotes = state.quotes.toggle byte := by
  unfold copy toggle push quotes Quotes.toggle
  split_ifs <;> rfl

/-- A step of a rewriter copies a byte, or jumps outside quotes. -/
def Jumps (step : RewriteState → Char → List Char → RewriteState × Nat) :
    Prop :=
  ∀ state byte rest,
    ((step state byte rest).1.quotes = state.quotes.toggle byte ∧
      (step state byte rest).2 = 0) ∨
    (state.quotes = .closed ∧ (step state byte rest).1.quotes = .closed ∧
      (step state byte rest).2 ≠ 0)

theorem RewriteState.quotes_closed {state : RewriteState}
    (noSingle : state.inSingle = false) (noDouble : state.inDouble = false) :
    state.quotes = .closed := by
  rw [quotes, noSingle, noDouble]
  rfl

/-- Decoding copies a byte, or replaces a span that opens outside quotes. -/
theorem ansiCStep_cases (state : RewriteState) (byte : Char)
    (rest : List Char) :
    ansiCStep state byte rest = (state.copy byte, 0) ∨
    (state.quotes = .closed ∧ ∃ bytes span text budget, rest = '\'' :: bytes ∧
      readAnsiCSpan bytes 0 = some span ∧
        ansiCStep state byte rest = (state.splice text budget, span.2 + 1)) := by
  unfold ansiCStep
  by_cases opens : byte = '$' ∧ rest.head? = some '\'' ∧
      state.inSingle = false ∧ state.inDouble = false
  · rw [if_pos opens]
    have closed := state.quotes_closed opens.2.2.1 opens.2.2.2
    obtain ⟨bytes, rfl⟩ := List.head?_eq_some_iff.mp opens.2.1
    rw [List.tail_cons]
    cases found : readAnsiCSpan bytes 0 with
    | none => exact .inl rfl
    | some span =>
        refine .inr ⟨closed, bytes, span, ?_⟩
        simp only
        rcases allowSplice state span.1 (span.2 + 2) with ⟨allowed, budget⟩
        cases allowed
        · exact ⟨_, budget, trivial, found, rfl⟩
        · exact ⟨_, budget, trivial, found, rfl⟩
  · rw [if_neg opens]
    exact .inl rfl

theorem ansiCStep_jumps : Jumps ansiCStep := by
  intro state byte rest
  rcases ansiCStep_cases state byte rest with
    copied | ⟨closed, bytes, span, text, budget, -, -, spliced⟩
  · rw [copied]
    exact .inl ⟨state.quotes_copy byte, rfl⟩
  · rw [spliced]
    exact .inr ⟨closed, closed, Nat.succ_ne_zero _⟩

theorem readParenBody_spec {bytes : List Char} {depth : Nat} {body : Str × Nat}
    (found : readParenBody bytes depth = some body) :
    ∃ later, bytes = body.1 ++ ')' :: later ∧ body.2 = body.1.length + 1 := by
  induction bytes generalizing depth body with
  | nil => cases found
  | cons byte rest induction =>
      rw [readParenBody] at found
      by_cases closing : byte = ')' ∧ depth = 1
      · rw [if_pos closing] at found
        obtain rfl := Option.some.inj found
        exact ⟨rest, by rw [closing.1]; rfl, rfl⟩
      · rw [if_neg closing] at found
        obtain ⟨inner, read, rfl⟩ := Option.map_eq_some_iff.mp found
        obtain ⟨later, rfl, length⟩ := induction read
        exact ⟨later, rfl, by rw [length]; rfl⟩

theorem readBacktickBody_spec {bytes : List Char} {body : Str × Nat}
    (found : readBacktickBody bytes = some body) :
    ∃ later, bytes = body.1 ++ '`' :: later ∧ body.2 = body.1.length + 1 := by
  induction bytes generalizing body with
  | nil => cases found
  | cons byte rest induction =>
      rw [readBacktickBody] at found
      split_ifs at found with closing
      · obtain rfl := Option.some.inj found
        exact ⟨rest, by rw [closing]; rfl, rfl⟩
      · obtain ⟨inner, read, rfl⟩ := Option.map_eq_some_iff.mp found
        obtain ⟨later, rfl, length⟩ := induction read
        exact ⟨later, rfl, by rw [length]; rfl⟩

theorem spliceCandidate_pos {byte : Char} {rest : List Char}
    {candidate : Str × Nat × Nat}
    (found : spliceCandidate byte rest = some candidate) :
    candidate.2.1 ≠ 0 := by
  unfold spliceCandidate at found
  split_ifs at found
  · simp only [Option.bind_eq_bind, Option.bind_eq_some_iff, Option.pure_def,
      Option.some.injEq] at found
    obtain ⟨body, -, literal, -, rfl⟩ := found
    exact Nat.succ_ne_zero _
  · simp only [Option.bind_eq_bind, Option.bind_eq_some_iff, Option.pure_def,
      Option.some.injEq] at found
    obtain ⟨body, read, literal, -, rfl⟩ := found
    obtain ⟨-, -, length⟩ := readBacktickBody_spec read
    exact length ▸ Nat.succ_ne_zero _

/-- Splicing copies a byte, or replaces a substitution outside quotes. -/
theorem echoStep_cases (state : RewriteState) (byte : Char)
    (rest : List Char) :
    (∃ budget, echoStep state byte rest =
      (({ state with budget } : RewriteState).copy byte, 0)) ∨
    (state.quotes = .closed ∧ ∃ candidate budget,
      spliceCandidate byte rest = some candidate ∧
        echoStep state byte rest =
          (state.splice candidate.1 budget, candidate.2.1)) := by
  unfold echoStep
  by_cases heads : state.inSingle = false ∧ state.inDouble = false ∧
      atLegHead state.out = true
  · rw [if_pos heads]
    have closed := state.quotes_closed heads.1 heads.2.1
    cases spliceCandidate byte rest with
    | none => exact .inl ⟨state.budget, rfl⟩
    | some found =>
        simp only
        rcases allowSplice state found.1 found.2.2 with ⟨allowed, budget⟩
        cases allowed
        · exact .inl ⟨budget, rfl⟩
        · exact .inr ⟨closed, found, budget, rfl, rfl⟩
  · rw [if_neg heads]
    exact .inl ⟨state.budget, rfl⟩

theorem echoStep_jumps : Jumps echoStep := by
  intro state byte rest
  rcases echoStep_cases state byte rest with
    ⟨budget, copied⟩ | ⟨closed, found, budget, candidate, spliced⟩
  · rw [copied]
    exact .inl ⟨RewriteState.quotes_copy _ byte, rfl⟩
  · rw [spliced]
    exact .inr ⟨closed, closed, spliceCandidate_pos candidate⟩

theorem seesAs_nones (items : List Char) (quotes : Quotes) :
    SeesAs (items.map fun _ => none) (quotes.marks items) := by
  induction items generalizing quotes with
  | nil => exact .nil
  | cons item items induction => exact .cons nofun (induction _)

theorem seesAs_append {first second : List (Option Bool)}
    {third fourth : List Bool} (same : first.length = third.length) :
    SeesAs (first ++ second) (third ++ fourth) ↔
      SeesAs first third ∧ SeesAs second fourth := by
  induction first generalizing third with
  | nil =>
      rw [List.eq_nil_of_length_eq_zero same.symm]
      exact ⟨fun both => ⟨.nil, both⟩, And.right⟩
  | cons mark first induction =>
      cases third with
      | nil => cases same
      | cons outside third =>
          have shorter := induction (Nat.succ.inj same)
          unfold SeesAs at shorter ⊢
          rw [List.cons_append, List.cons_append, List.forall₂_cons,
            List.forall₂_cons, shorter, and_assoc]

theorem not_seesAs_of_ne
    {step : RewriteState → Char → List Char → RewriteState × Nat}
    {items : List Char} {state : RewriteState} {quotes : Quotes}
    (nonempty : items ≠ [])
    (differ : ¬ state.quotes.isOutside = quotes.isOutside) :
    ¬ SeesAs (walkMarks step (rewriteMark step) items 0 state)
      (quotes.marks items) := by
  cases items with
  | nil => exact absurd rfl nonempty
  | cons byte rest =>
      rw [walkMarks_cons]
      intro sees
      exact differ ((List.forall₂_cons.mp sees).1 _ rfl)

/-- A rewriter and bare toggling agree at the bytes where it stands exactly as
long as it jumps over closed quotes only. -/
theorem rewrite_seesAs_iff
    {step : RewriteState → Char → List Char → RewriteState × Nat}
    (jumps : Jumps step) (items : List Char) (state : RewriteState) :
    SeesAs (walkMarks step (rewriteMark step) items 0 state)
        (state.quotes.marks items) ↔
      AlongWalk step (RewriteKeeps step) items 0 state := by
  induction size : items.length using Nat.strong_induction_on
    generalizing items state with
  | _ length induction =>
      cases items with
      | nil => exact ⟨fun _ => trivial, fun _ => .nil⟩
      | cons byte rest =>
          rw [walkMarks_cons, alongWalk_cons]
          have later := fun next : RewriteState =>
            induction (rest.drop (step state byte rest).2).length
              (by simp at size ⊢; omega) (rest.drop (step state byte rest).2)
              next rfl
          have cut : state.quotes.marks (byte :: rest) =
              state.quotes.marks (byte :: rest.take (step state byte rest).2) ++
                (state.quotes.after
                  (byte :: rest.take (step state byte rest).2)).marks
                    (rest.drop (step state byte rest).2) := by
            rw [← Quotes.marks_append, List.cons_append, List.take_append_drop]
          have here : SeesAs (rewriteMark step state byte rest)
              (state.quotes.marks
                (byte :: rest.take (step state byte rest).2)) :=
            .cons (by simp) (seesAs_nones _ _)
          have sizes := here.length_eq
          rw [cut, seesAs_append sizes, and_iff_right here]
          rcases jumps state byte rest with
            ⟨copied, stays⟩ | ⟨closed, stillClosed, moves⟩
          · have keeps : RewriteKeeps step state byte rest :=
              fun moves => absurd stays moves
            have same : state.quotes.after
                (byte :: rest.take (step state byte rest).2) =
                (step state byte rest).1.quotes := by
              rw [stays, copied]
              rfl
            rw [and_iff_right keeps, same]
            exact later _
          · rw [RewriteKeeps]
            by_cases ends : rest.drop (step state byte rest).2 = []
            · simp [ends, SeesAs, Quotes.marks, AlongWalk]
            · by_cases balanced : state.quotes.after
                  (byte :: rest.take (step state byte rest).2) = .closed
              · rw [and_iff_right fun _ _ => balanced, balanced, ← stillClosed]
                exact later _
              · have opened : ¬ (step state byte rest).1.quotes.isOutside =
                    (state.quotes.after (byte ::
                      rest.take (step state byte rest).2)).isOutside := by
                  rw [Quotes.isOutside_iff.mpr stillClosed, eq_comm,
                    Quotes.isOutside_iff]
                  exact balanced
                constructor
                · intro sees
                  exact absurd sees (not_seesAs_of_ne ends opened)
                · intro keeps
                  exact absurd (keeps.1 moves ends) balanced

/-! ## The plain walker -/

@[simp] theorem LegState.quotes_toggle (state : LegState) (byte : Char) :
    (state.toggle byte).quotes = state.quotes.toggle byte := by
  unfold toggle quotes Quotes.toggle
  split_ifs <;> rfl

/-- `top_level_legs` toggles barely. -/
theorem topLevel_marks (items : List Char) (state : LegState) :
    walkMarks topLevelStep (fun state _ _ => [some state.quotes.isOutside])
        items 0 state =
      (state.quotes.marks items).map some := by
  induction items generalizing state with
  | nil => rfl
  | cons byte rest induction =>
      have stays : (topLevelStep state byte rest).2 = 0 := by
        simp only [topLevelStep]
        split_ifs <;> rfl
      have toggled : (topLevelStep state byte rest).1.quotes =
          state.quotes.toggle byte := by
        rw [← LegState.quotes_toggle]
        simp only [topLevelStep]
        split_ifs <;> rfl
      rw [walkMarks_cons, stays, List.drop_zero, induction, toggled]
      rfl

theorem seesAs_map_some_iff {seen view : List Bool} :
    SeesAs (seen.map some) view ↔ view = seen := by
  unfold SeesAs
  rw [List.forall₂_map_left_iff]
  simp only [Option.mem_def, Option.some.injEq, forall_eq']
  rw [List.forall₂_eq_eq_eq]
  exact eq_comm

/-! ## The splitter -/

/-- A body runs to its closing parenthesis or to the end. -/
theorem extractParenBody_spec (bytes : List Char) (depth : Nat) :
    extractParenBody bytes depth = (bytes, bytes.length) ∨
      ∃ later, bytes = (extractParenBody bytes depth).1 ++ ')' :: later ∧
        (extractParenBody bytes depth).2 =
          (extractParenBody bytes depth).1.length + 1 := by
  fun_induction extractParenBody bytes depth <;> simp_all

theorem extractBacktickBody_spec (bytes : List Char) :
    extractBacktickBody bytes = (bytes, bytes.length) ∨
      ∃ later, bytes = (extractBacktickBody bytes).1 ++ '`' :: later ∧
        (extractBacktickBody bytes).2 =
          (extractBacktickBody bytes).1.length + 1 := by
  fun_induction extractBacktickBody bytes <;> simp_all

/-- What one turn of the splitter does to its quote flags. -/
inductive SplitTurn (state : SplitState) (byte : Char) (rest : List Char) :
    SplitState × Nat → Prop where
  | escape {escaped : Char} {later : List Char} {next : SplitState} :
      state.inSingle = false → byte = '\\' → rest = escaped :: later →
      next.quotes = state.quotes → SplitTurn state byte rest (next, 1)
  | paren {next : SplitState} {skip : Nat} :
      opensParen state byte rest → next.quotes = .closed →
      skip = (extractParenBody rest.tail 1).2 + 1 →
      SplitTurn state byte rest (next, skip)
  | tick {next : SplitState} {skip : Nat} :
      opensTick state byte → next.quotes = .closed →
      skip = (extractBacktickBody rest).2 →
      SplitTurn state byte rest (next, skip)
  | double {later : List Char} {next : SplitState} :
      (byte = '&' ∨ byte = '|') → rest = byte :: later →
      next.quotes = state.quotes → SplitTurn state byte rest (next, 1)
  | single {next : SplitState} :
      ¬ (state.inSingle = false ∧ byte = '\\' ∧ rest ≠ []) →
      ¬ opensParen state byte rest → ¬ opensTick state byte →
      next.quotes = state.quotes.toggle byte →
      SplitTurn state byte rest (next, 0)

theorem splitStep_turn (split : Str → List Str) (state : SplitState)
    (byte : Char) (rest : List Char) :
    SplitTurn state byte rest (splitStep split [] state byte rest) := by
  unfold splitStep
  by_cases escapes : state.inSingle = false ∧ byte = '\\' ∧ rest ≠ []
  · rw [if_pos escapes]
    obtain ⟨escaped, later, shape⟩ := List.exists_cons_of_ne_nil escapes.2.2
    exact .escape escapes.1 escapes.2.1 shape rfl
  rw [if_neg escapes]
  by_cases quotes : (byte = '"' ∧ state.inSingle = false) ∨
      (byte = '\'' ∧ state.inDouble = false)
  · have notParen : ¬ opensParen state byte rest := by
      rintro ⟨-, rfl | rfl | rfl, -⟩ <;> simp at quotes
    have notTick : ¬ opensTick state byte := by
      rintro ⟨-, rfl⟩
      simp at quotes
    rcases quotes with ⟨rfl, noSingle⟩ | ⟨rfl, noDouble⟩
    · rw [if_pos ⟨rfl, noSingle⟩]
      exact .single escapes notParen notTick
        (by simp [SplitState.quotes, SplitState.push, Quotes.toggle, noSingle])
    · rw [if_neg (by simp), if_pos ⟨rfl, noDouble⟩]
      exact .single escapes notParen notTick
        (by simp [SplitState.quotes, SplitState.push, Quotes.toggle, noDouble])
  obtain ⟨noDoubleQuote, noSingleQuote⟩ := not_or.mp quotes
  have kept : state.quotes = state.quotes.toggle byte := by
    show state.quotes =
      if byte = '\'' ∧ state.inDouble = false then _
      else if byte = '"' ∧ state.inSingle = false then _ else state.quotes
    rw [if_neg noSingleQuote, if_neg noDoubleQuote]
  rw [if_neg noDoubleQuote, if_neg noSingleQuote]
  by_cases outside : state.inDouble = false ∧ state.inSingle = false
  · have closed : state.quotes = .closed := by
      rw [SplitState.quotes, outside.1, outside.2]
      rfl
    rw [if_pos outside]
    by_cases paren : (byte = '$' ∨ byte = '<' ∨ byte = '>') ∧
        rest.head? = some '('
    · rw [if_pos paren]
      exact .paren ⟨closed, paren⟩ closed rfl
    rw [if_neg paren]
    by_cases tick : byte = '`'
    · rw [if_pos tick]
      exact .tick ⟨closed, tick⟩ closed rfl
    have notParen : ¬ opensParen state byte rest := fun opens => paren opens.2
    have notTick : ¬ opensTick state byte := fun opens => tick opens.2
    rw [if_neg tick]
    by_cases doubled : (byte = '&' ∧ rest.head? = some '&') ∨
        (byte = '|' ∧ rest.head? = some '|')
    · rw [if_pos doubled]
      rcases doubled with ⟨rfl, next⟩ | ⟨rfl, next⟩
      · obtain ⟨later, shape⟩ := List.head?_eq_some_iff.mp next
        exact .double (.inl rfl) shape rfl
      · obtain ⟨later, shape⟩ := List.head?_eq_some_iff.mp next
        exact .double (.inr rfl) shape rfl
    rw [if_neg doubled]
    split_ifs <;> exact .single escapes notParen notTick kept
  · have quoted : state.quotes ≠ .closed := fun closed =>
      outside ⟨congrArg Quotes.inDouble closed,
        congrArg Quotes.inSingle closed⟩
    have notParen : ¬ opensParen state byte rest := fun opens => quoted opens.1
    have notTick : ¬ opensTick state byte := fun opens => quoted opens.1
    rw [if_neg outside]
    exact .single escapes notParen notTick kept

section

variable {view : Str → List Bool} {inStep : Str → Prop} {state : SplitState}
  {byte : Char} {rest : List Char}

theorem splitMark_of_plain (notParen : ¬ opensParen state byte rest)
    (notTick : ¬ opensTick state byte) :
    splitMark view state byte rest =
      state.quotes.isOutside ::
        (rest.take (splitStep splitCompound [] state byte rest).2).map
          fun _ => state.quotes.isOutside := by
  rw [splitMark, if_neg notParen, if_neg notTick]

theorem splitMark_head :
    ∃ later, splitMark view state byte rest =
      state.quotes.isOutside :: later := by
  unfold splitMark
  by_cases paren : opensParen state byte rest
  · rw [if_pos paren, paren.1]
    exact ⟨_, rfl⟩
  rw [if_neg paren]
  by_cases tick : opensTick state byte
  · rw [if_pos tick, tick.1]
    exact ⟨_, rfl⟩
  rw [if_neg tick]
  exact ⟨_, rfl⟩

theorem splitMarks_ne {items : List Char} {quotes : Quotes}
    (nonempty : items ≠ [])
    (differ : ¬ state.quotes.isOutside = quotes.isOutside) :
    walkMarks (splitStep splitCompound []) (splitMark view) items 0 state ≠
      quotes.marks items := by
  cases items with
  | nil => exact absurd rfl nonempty
  | cons byte rest =>
      obtain ⟨later, head⟩ := @splitMark_head view state byte rest
      rw [walkMarks_cons, head]
      intro same
      exact differ (List.cons.inj same).1

/-- Marks of a body and of what follows its closing byte. -/
theorem body_marks_iff {seen remaining : List Bool} {inner later : Str}
    (length : seen.length = inner.length) (plain : byte ≠ '\'' ∧ byte ≠ '"') :
    seen ++ true :: remaining = Quotes.closed.marks (inner ++ byte :: later) ↔
      (seen = Quotes.closed.marks inner ∧ Quotes.closed.after inner = .closed) ∧
        remaining = Quotes.closed.marks later := by
  rw [Quotes.marks_append, Quotes.marks, Quotes.toggle_of_plain _ plain]
  constructor
  · intro same
    obtain ⟨body, later⟩ := List.append_inj same (by simp [length])
    obtain ⟨outside, remaining⟩ := List.cons.inj later
    have closed := Quotes.isOutside_iff.mp outside.symm
    rw [closed] at remaining
    exact ⟨⟨body, closed⟩, remaining⟩
  · rintro ⟨⟨rfl, closed⟩, rfl⟩
    rw [closed]
    rfl

/-- The splitter marks every byte of the text, and marks them as bare toggling
does exactly as long as its steps are in step. -/
def MarksAgree (view : Str → List Bool) (inStep : Str → Prop)
    (items : List Char) (state : SplitState) : Prop :=
  (walkMarks (splitStep splitCompound []) (splitMark view) items 0
      state).length = items.length ∧
    (walkMarks (splitStep splitCompound []) (splitMark view) items 0 state =
        state.quotes.marks items ↔
      AlongWalk (splitStep splitCompound []) (SplitKeeps inStep) items 0 state)

variable {next : SplitState} {later : List Char}

theorem marksAgree_escape {escaped : Char} (noSingle : state.inSingle = false)
    (kept : next.quotes = state.quotes)
    (stepped : splitStep splitCompound [] state '\\' (escaped :: later) =
      (next, 1))
    (agree : MarksAgree view inStep later next) :
    MarksAgree view inStep ('\\' :: escaped :: later) state := by
  have notParen : ¬ opensParen state '\\' (escaped :: later) := by
    rintro ⟨-, opener, -⟩
    exact absurd opener (by decide)
  have notTick : ¬ opensTick state '\\' := fun opens =>
    absurd opens.2 (by decide)
  have mark := @splitMark_of_plain view state _ _ notParen notTick
  rw [stepped] at mark
  unfold MarksAgree
  rw [walkMarks_cons, alongWalk_cons, mark, stepped]
  refine ⟨by simpa using agree.1, ?_⟩
  have marks : state.quotes.marks ('\\' :: escaped :: later) =
      state.quotes.isOutside :: state.quotes.isOutside ::
        (state.quotes.toggle escaped).marks later := by
    rw [Quotes.marks, Quotes.marks, Quotes.toggle_of_plain _ (by decide)]
  rw [marks]
  by_cases counts : state.quotes.toggle escaped = state.quotes
  · have keeps : SplitKeeps inStep state '\\' (escaped :: later) := by
      refine ⟨?_, fun opens => absurd opens notParen,
        fun opens => absurd opens notTick⟩
      rintro other more - - shape -
      obtain ⟨rfl, -⟩ := List.cons.inj shape
      exact counts
    rw [and_iff_right keeps, counts, ← kept]
    simpa using agree.2
  · by_cases ends : later = []
    · have keeps : SplitKeeps inStep state '\\' (escaped :: later) := by
        refine ⟨?_, fun opens => absurd opens notParen,
          fun opens => absurd opens notTick⟩
        rintro other more - - shape follows
        obtain ⟨-, rfl⟩ := List.cons.inj shape
        exact absurd ends follows
      rw [and_iff_right keeps, ends]
      simp [Quotes.marks, AlongWalk]
    · have flips : ¬ next.quotes.isOutside =
          (state.quotes.toggle escaped).isOutside := by
        rw [Quotes.isOutside_toggle counts, kept]
        simp
      constructor
      · intro same
        have tails := (List.cons.inj (List.cons.inj same).2).2
        exact absurd tails (splitMarks_ne ends flips)
      · intro keeps
        exact absurd (keeps.1.1 escaped later noSingle rfl rfl ends) counts

theorem marksAgree_double (operator : byte = '&' ∨ byte = '|')
    (kept : next.quotes = state.quotes)
    (stepped : splitStep splitCompound [] state byte (byte :: later) = (next, 1))
    (agree : MarksAgree view inStep later next) :
    MarksAgree view inStep (byte :: byte :: later) state := by
  have notParen : ¬ opensParen state byte (byte :: later) := by
    rintro ⟨-, opener, -⟩
    rcases operator with rfl | rfl <;> exact absurd opener (by decide)
  have notTick : ¬ opensTick state byte := by
    rintro ⟨-, rfl⟩
    exact absurd operator (by decide)
  have mark := @splitMark_of_plain view state _ _ notParen notTick
  rw [stepped] at mark
  have plain : byte ≠ '\'' ∧ byte ≠ '"' := by
    rcases operator with rfl | rfl <;> decide
  have keeps : SplitKeeps inStep state byte (byte :: later) := by
    refine ⟨?_, fun opens => absurd opens notParen,
      fun opens => absurd opens notTick⟩
    rintro escaped more - rfl
    exact absurd operator (by decide)
  unfold MarksAgree
  rw [walkMarks_cons, alongWalk_cons, mark, stepped, and_iff_right keeps]
  refine ⟨by simpa using agree.1, ?_⟩
  rw [Quotes.marks, Quotes.marks, Quotes.toggle_of_plain _ plain,
    Quotes.toggle_of_plain _ plain, ← kept]
  simpa using agree.2

theorem marksAgree_single
    (unescaped : ¬ (state.inSingle = false ∧ byte = '\\' ∧ later ≠ []))
    (notParen : ¬ opensParen state byte later)
    (notTick : ¬ opensTick state byte)
    (toggled : next.quotes = state.quotes.toggle byte)
    (stepped : splitStep splitCompound [] state byte later = (next, 0))
    (agree : MarksAgree view inStep later next) :
    MarksAgree view inStep (byte :: later) state := by
  have mark := @splitMark_of_plain view state _ _ notParen notTick
  rw [stepped] at mark
  have keeps : SplitKeeps inStep state byte later := by
    refine ⟨?_, fun opens => absurd opens notParen,
      fun opens => absurd opens notTick⟩
    rintro escaped more noSingle escapes rfl
    exact absurd ⟨noSingle, escapes, List.cons_ne_nil _ _⟩ unescaped
  unfold MarksAgree
  rw [walkMarks_cons, alongWalk_cons, mark, stepped, and_iff_right keeps,
    Quotes.marks, ← toggled]
  exact ⟨by simpa using agree.1, by simpa using agree.2⟩

/-- A body that is closed: the recursive call reads it, and the walker goes on
behind its closing byte. -/
theorem marksAgree_closed {front inner : Str} {closing : Char}
    (closed : state.quotes = .closed)
    (shape : byte :: rest = front ++ (inner ++ closing :: later))
    (opening : ∀ char ∈ front, char ≠ '\'' ∧ char ≠ '"')
    (plain : closing ≠ '\'' ∧ closing ≠ '"')
    (body : (view inner).length = inner.length ∧
      (view inner = Quotes.closed.marks inner ↔ inStep inner))
    (mark : splitMark view state byte rest =
      front.map (fun _ => true) ++ (view inner ++ [true]))
    (passed : rest.drop (splitStep splitCompound [] state byte rest).2 = later)
    (nextClosed :
      (splitStep splitCompound [] state byte rest).1.quotes = .closed)
    (keeps : SplitKeeps inStep state byte rest ↔
      inStep inner ∧ Quotes.closed.after inner = .closed)
    (agree : MarksAgree view inStep later
      (splitStep splitCompound [] state byte rest).1) :
    MarksAgree view inStep (byte :: rest) state := by
  unfold MarksAgree at agree ⊢
  rw [walkMarks_cons, alongWalk_cons, mark, passed, keeps, closed, shape]
  rw [nextClosed] at agree
  constructor
  · simp only [List.length_append, List.length_map, body.1, agree.1,
      List.length_cons, List.length_nil]
    omega
  · have front_marks := @Quotes.marks_of_plain .closed front opening
    rw [Quotes.marks_append, front_marks, Quotes.after_of_plain opening,
      List.append_assoc]
    have whole : ∀ first second third : List Bool,
        first ++ second = first ++ third ↔ second = third :=
      fun first second third => List.append_right_inj first
    have outside : Quotes.closed.isOutside = true := rfl
    rw [outside, whole, List.append_assoc, List.singleton_append,
      body_marks_iff body.1 plain, body.2, agree.2]

/-- A body that is never closed runs to the end of the text. -/
theorem marksAgree_open {front inner : Str} (closed : state.quotes = .closed)
    (shape : byte :: rest = front ++ inner)
    (opening : ∀ char ∈ front, char ≠ '\'' ∧ char ≠ '"')
    (body : (view inner).length = inner.length ∧
      (view inner = Quotes.closed.marks inner ↔ inStep inner))
    (mark : splitMark view state byte rest =
      front.map (fun _ => true) ++ view inner)
    (passed : rest.drop (splitStep splitCompound [] state byte rest).2 = [])
    (keeps : SplitKeeps inStep state byte rest ↔ inStep inner) :
    MarksAgree view inStep (byte :: rest) state := by
  unfold MarksAgree
  rw [walkMarks_cons, alongWalk_cons, mark, passed, keeps, closed, shape,
    walkMarks_nil, List.append_nil]
  constructor
  · simp [body.1]
  · have front_marks := @Quotes.marks_of_plain .closed front opening
    have outside : Quotes.closed.isOutside = true := rfl
    rw [Quotes.marks_append, front_marks, Quotes.after_of_plain opening, outside,
      List.append_right_inj, body.2]
    simp [AlongWalk]

theorem splitKeeps_paren_iff (opens : opensParen state byte rest) :
    SplitKeeps inStep state byte rest ↔
      inStep (extractParenBody rest.tail 1).1 ∧
        ((extractParenBody rest.tail 1).1.length <
            (extractParenBody rest.tail 1).2 →
          Quotes.closed.after (extractParenBody rest.tail 1).1 = .closed) := by
  have notEscape : byte ≠ '\\' := by
    rintro rfl
    exact absurd opens.2.1 (by decide)
  have notTick : ¬ opensTick state byte := by
    rintro ⟨-, rfl⟩
    exact absurd opens.2.1 (by decide)
  simp [SplitKeeps, opens, notTick, notEscape]

theorem splitKeeps_tick_iff (opens : opensTick state byte) :
    SplitKeeps inStep state byte rest ↔
      inStep (extractBacktickBody rest).1 ∧
        ((extractBacktickBody rest).1.length < (extractBacktickBody rest).2 →
          Quotes.closed.after (extractBacktickBody rest).1 = .closed) := by
  have notEscape : byte ≠ '\\' := by
    rintro rfl
    exact absurd opens.2 (by decide)
  have notParen : ¬ opensParen state byte rest := by
    rintro ⟨-, opener, -⟩
    rw [opens.2] at opener
    exact absurd opener (by decide)
  simp [SplitKeeps, opens, notParen, notEscape]

/-- What is known of the bodies and of the rest when a text is read. -/
structure Shorter (view : Str → List Bool) (inStep : Str → Prop)
    (items : List Char) : Prop where
  body : ∀ inner : Str, inner <:+: items → inner.length < items.length →
    (view inner).length = inner.length ∧
      (view inner = Quotes.closed.marks inner ↔ inStep inner)
  rest : ∀ later : Str, later <:+: items → later.length < items.length →
    ∀ next, MarksAgree view inStep later next

theorem marksAgree_paren (opens : opensParen state byte rest)
    (nextClosed :
      (splitStep splitCompound [] state byte rest).1.quotes = .closed)
    (skipped : (splitStep splitCompound [] state byte rest).2 =
      (extractParenBody rest.tail 1).2 + 1)
    (shorter : Shorter view inStep (byte :: rest)) :
    MarksAgree view inStep (byte :: rest) state := by
  obtain ⟨bytes, rfl⟩ := List.head?_eq_some_iff.mp opens.2.2
  have keeps := @splitKeeps_paren_iff inStep state _ _ opens
  have mark : splitMark view state byte ('(' :: bytes) =
      true :: (true :: (view (extractParenBody bytes 1).1 ++ [true])).take
        ((extractParenBody bytes 1).2 + 1) := by
    rw [splitMark, if_pos opens]
    rfl
  have opening : ∀ char ∈ [byte, '('], char ≠ '\'' ∧ char ≠ '"' := by
    rcases opens.2.1 with rfl | rfl | rfl <;> decide
  have within : bytes <:+: byte :: '(' :: bytes :=
    ((List.suffix_cons _ _).trans (List.suffix_cons _ _)).isInfix
  rw [List.tail_cons] at keeps skipped
  rcases extractParenBody_spec bytes 1 with whole | ⟨later, shape, length⟩
  · rw [whole] at keeps skipped mark
    have body := shorter.body bytes within
      (by simp only [List.length_cons]; omega)
    refine @marksAgree_open _ _ _ _ _ [byte, '('] bytes opens.1 rfl opening body
      ?_ ?_ (keeps.trans (by simp))
    · rw [mark]
      simp [body.1]
    · rw [skipped]
      simp
  · rw [length] at keeps skipped mark
    generalize extractParenBody bytes 1 = cut at shape keeps skipped mark
    obtain ⟨inner, advanced⟩ := cut
    subst shape
    have body := shorter.body inner
      ((List.prefix_append inner (')' :: later)).isInfix.trans within)
      (by simp only [List.length_cons, List.length_append]; omega)
    have rest := shorter.rest later
      ((((List.suffix_cons ')' later).trans
        (List.suffix_append inner _)).isInfix).trans within)
      (by simp only [List.length_cons, List.length_append]; omega)
    refine @marksAgree_closed _ _ _ _ _ later [byte, '('] inner ')' opens.1 rfl
      opening (by decide) body ?_ ?_ nextClosed
      (keeps.trans (by simp)) (rest _)
    · rw [mark]
      simp [body.1]
    · rw [skipped]
      simp

theorem marksAgree_tick (opens : opensTick state byte)
    (nextClosed :
      (splitStep splitCompound [] state byte rest).1.quotes = .closed)
    (skipped : (splitStep splitCompound [] state byte rest).2 =
      (extractBacktickBody rest).2)
    (shorter : Shorter view inStep (byte :: rest)) :
    MarksAgree view inStep (byte :: rest) state := by
  have keeps := @splitKeeps_tick_iff inStep state _ rest opens
  have notParen : ¬ opensParen state byte rest := by
    rintro ⟨-, opener, -⟩
    rw [opens.2] at opener
    exact absurd opener (by decide)
  have mark : splitMark view state byte rest =
      true :: (view (extractBacktickBody rest).1 ++ [true]).take
        (extractBacktickBody rest).2 := by
    rw [splitMark, if_neg notParen, if_pos opens]
  have opening : ∀ char ∈ [byte], char ≠ '\'' ∧ char ≠ '"' := by
    rw [opens.2]
    decide
  have within : rest <:+: byte :: rest := (List.suffix_cons _ _).isInfix
  rcases extractBacktickBody_spec rest with whole | ⟨later, shape, length⟩
  · rw [whole] at keeps skipped mark
    have body := shorter.body rest within (by simp)
    refine @marksAgree_open _ _ _ _ _ [byte] rest opens.1 rfl opening body
      ?_ ?_ (keeps.trans (by simp))
    · rw [mark]
      simp [body.1]
    · rw [skipped]
      simp
  · rw [length] at keeps skipped mark
    generalize extractBacktickBody rest = cut at shape keeps skipped mark
    obtain ⟨inner, advanced⟩ := cut
    subst shape
    have body := shorter.body inner
      ((List.prefix_append inner ('`' :: later)).isInfix.trans within)
      (by simp only [List.length_cons, List.length_append]; omega)
    have rest := shorter.rest later
      ((((List.suffix_cons '`' later).trans
        (List.suffix_append inner _)).isInfix).trans within)
      (by simp only [List.length_cons, List.length_append]; omega)
    refine @marksAgree_closed _ _ _ _ _ later [byte] inner '`' opens.1 rfl
      opening (by decide) body ?_ ?_ nextClosed
      (keeps.trans (by simp)) (rest _)
    · rw [mark]
      simp [body.1]
    · rw [skipped]
      simp

/-- The splitter and bare toggling agree on a text exactly as long as the steps
are in step, given that for the shorter bodies. -/
theorem marksAgree {items : List Char}
    (bodies : ∀ inner : Str, inner <:+: items → inner.length < items.length →
      (view inner).length = inner.length ∧
        (view inner = Quotes.closed.marks inner ↔ inStep inner))
    (state : SplitState) : MarksAgree view inStep items state := by
  induction size : items.length using Nat.strong_induction_on
    generalizing items state with
  | _ length induction =>
      cases items with
      | nil => exact ⟨rfl, fun _ => trivial, fun _ => rfl⟩
      | cons byte rest =>
          have shorter : Shorter view inStep (byte :: rest) := by
            refine ⟨bodies, fun later within less next => ?_⟩
            refine induction later.length (by omega) ?_ next rfl
            intro inner inside below
            exact bodies inner (inside.trans within) (below.trans less)
          have turn := splitStep_turn splitCompound state byte rest
          rcases stepped : splitStep splitCompound [] state byte rest with
            ⟨next, skip⟩
          rw [stepped] at turn
          cases turn with
          | escape noSingle escapes shape kept =>
              subst escapes shape
              exact marksAgree_escape noSingle kept stepped
                (shorter.rest _ ((List.suffix_cons _ _).trans
                  (List.suffix_cons _ _)).isInfix
                  (by simp only [List.length_cons]; omega) next)
          | paren opens closed skipped =>
              exact marksAgree_paren opens (by rw [stepped]; exact closed)
                (by rw [stepped]; exact skipped) shorter
          | tick opens closed skipped =>
              exact marksAgree_tick opens (by rw [stepped]; exact closed)
                (by rw [stepped]; exact skipped) shorter
          | double operator shape kept =>
              subst shape
              exact marksAgree_double operator kept stepped
                (shorter.rest _ ((List.suffix_cons _ _).trans
                  (List.suffix_cons _ _)).isInfix
                  (by simp only [List.length_cons]; omega) next)
          | single unescaped notParen notTick toggled =>
              exact marksAgree_single unescaped notParen notTick toggled stepped
                (shorter.rest _ (List.suffix_cons _ _).isInfix (by simp) next)

end

theorem splitViewNested_iff {nesting : Nat} {command : Str}
    (ascii : IsAscii command) (enough : command.length < nesting) :
    (splitViewNested nesting command).length = command.length ∧
      (splitViewNested nesting command = Quotes.closed.marks command ↔
        splitInStepNested nesting command) := by
  induction nesting generalizing command with
  | zero => omega
  | succ nesting induction =>
      have agree := @marksAgree (splitViewNested nesting)
        (splitInStepNested nesting) command
        (fun inner within less => induction
          (fun char member => ascii char (within.subset member)) (by omega))
        .start
      rw [splitViewNested, splitInStepNested, asBytes_of_ascii ascii]
      exact agree

/-! ## Agreement -/

/-- The passes of normalization and the splitter take the same bytes of a
command for quoted exactly when no step reads a quote in its own way. -/
theorem quotesAgree_iff {command : Str} (ascii : IsAscii command)
    (budget : Budget) : QuotesAgree command budget ↔ InStep command budget := by
  have split := (splitViewNested_iff ascii (Nat.lt_succ_self _)).2
  have topLevel := topLevel_marks command .start
  have ansiC := rewrite_seesAs_iff ansiCStep_jumps command (.start budget)
  have echo := rewrite_seesAs_iff echoStep_jumps command (.start budget)
  unfold QuotesAgree topLevelView ansiCView echoView splitView
  rw [asBytes_of_ascii ascii, topLevel, seesAs_map_some_iff]
  constructor
  · rintro ⟨same, decoding, splicing⟩
    have view : splitViewNested (command.length + 1) command =
        Quotes.closed.marks command := same
    rw [view] at decoding splicing
    refine ⟨split.mp view, ?_, ?_⟩
    · rw [asBytes_of_ascii ascii]
      exact ansiC.mp decoding
    · rw [asBytes_of_ascii ascii]
      exact echo.mp splicing
  · rintro ⟨splits, decodes, splices⟩
    have view := split.mpr splits
    rw [asBytes_of_ascii ascii] at decodes splices
    rw [view]
    exact ⟨rfl, ansiC.mpr decodes, echo.mpr splices⟩

end TrustLayer.AgentGuard.Gate
