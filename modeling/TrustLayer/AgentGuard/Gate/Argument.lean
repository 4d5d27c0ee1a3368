import TrustLayer.AgentGuard.Gate.Printing
import TrustLayer.AgentGuard.Gate.Unchanged

/-!
# Double-quoted arguments

The text of a double-quoted argument, as the walkers read it: they take the
quotes inside a substitution for the end of the argument, so what stands
between those must be plain.
-/

namespace TrustLayer.AgentGuard.Gate

open TrustLayer.Library

/-- A text that stays between double quotes: its escapes are complete and hide
no quote. -/
def isQuotedText : Str → Bool
  | [] => true
  | byte :: rest =>
      if byte = '"' then false
      else if byte = '\\' then
        match rest with
        | [] => false
        | escaped :: rest => escaped != '"' && isQuotedText rest
      else isQuotedText rest

/-- A part of an argument, with or without double quotes of its own. -/
inductive Segment where
  | bare (text : Str)
  | quoted (text : Str)
  deriving DecidableEq

namespace Segment

def render : Segment → Str
  | bare text => text
  | quoted text => '"' :: (text ++ ['"'])

def Plain : Segment → Prop
  | bare text => isQuotedText text = true
  | quoted text => ∀ char ∈ text, char ∉ metacharacters

end Segment

def Argument (text : Str) : Prop :=
  ∃ segments : List Segment,
    (∀ segment ∈ segments, segment.Plain) ∧ segments.flatMap Segment.render = text

theorem not_mem_of_isQuotedText {text : Str} (quotable : isQuotedText text = true) :
    '"' ∉ text := by
  fun_induction isQuotedText text with
  | case1 => simp
  | case2 => simp at quotable
  | case3 => simp at quotable
  | case4 escaped rest notQuote induction =>
      simp only [Bool.and_eq_true, bne_iff_ne, ne_eq] at quotable
      simp [induction quotable.2, Ne.symm quotable.1]
  | case5 byte rest notQuote notEscape induction =>
      simp [induction quotable, Ne.symm notQuote]

theorem isQuotedText_of_not_mem {text : Str}
    (plain : ∀ char ∈ text, char ∉ ['"', '\\']) : isQuotedText text = true := by
  induction text with
  | nil => rfl
  | cons char text induction =>
      obtain ⟨head, tail⟩ := List.forall_mem_cons.mp plain
      simp only [List.mem_cons, List.not_mem_nil, or_false, not_or] at head
      rw [isQuotedText.eq_def]
      simp only [head, if_false]
      exact induction tail

namespace Argument

theorem bare {text : Str} (quotable : isQuotedText text = true) : Argument text := by
  refine ⟨[.bare text], ?_, by simp [Segment.render]⟩
  simpa [Segment.Plain] using quotable

theorem quoted {text : Str} (plain : ∀ char ∈ text, char ∉ metacharacters) :
    Argument ('"' :: (text ++ ['"'])) := by
  refine ⟨[.quoted text], ?_, by simp [Segment.render]⟩
  simpa [Segment.Plain] using plain

theorem append {left right : Str} (first : Argument left)
    (second : Argument right) : Argument (left ++ right) := by
  obtain ⟨firsts, firstPlain, rfl⟩ := first
  obtain ⟨seconds, secondPlain, rfl⟩ := second
  refine ⟨firsts ++ seconds, ?_, List.flatMap_append⟩
  exact List.forall_mem_append.mpr ⟨firstPlain, secondPlain⟩

theorem flatMap {α : Type} {items : List α} {render : α → Str}
    (arguments : ∀ item ∈ items, Argument (render item)) :
    Argument (items.flatMap render) := by
  induction items with
  | nil => exact ⟨[], by simp, rfl⟩
  | cons item items induction =>
      obtain ⟨head, tail⟩ := List.forall_mem_cons.mp arguments
      exact head.append (induction tail)

theorem substitution {body : Str} (argument : Argument body) :
    Argument (Gate.substitution body) :=
  (bare (by decide : isQuotedText ['$', '('] = true)).append
    (argument.append (bare (by decide : isQuotedText [')'] = true)))

end Argument

theorem SimpleCommand.argument {command : Str} (simple : SimpleCommand command) :
    Argument command := by
  obtain ⟨pieces, plain, rfl⟩ := simple.pieces
  apply Argument.flatMap
  intro piece among
  have piecePlain := plain piece among
  cases piece with
  | word text =>
      refine .bare (isQuotedText_of_not_mem fun char member special => ?_)
      exact piecePlain char member
        ((by decide : ['"', '\\'] ⊆ metacharacters) special)
  | single text =>
      refine .bare (isQuotedText_of_not_mem fun char member special => ?_)
      simp only [Piece.render, List.mem_cons, List.mem_append, List.not_mem_nil,
        or_false] at member
      rcases member with rfl | member | rfl
      · exact absurd special (by decide)
      · exact piecePlain char member
          ((by decide : ['"', '\\'] ⊆ ['\'', '"', '\\', '`', '(', ')']) special)
      · exact absurd special (by decide)
  | double text => exact .quoted piecePlain

/-! ## Walkers inside an argument -/

section

variable {split : Str → List Str} {state : SplitState}

theorem walk_quotedText {text : Str} (quoted : state.InDouble)
    (quotable : isQuotedText text = true) (rest : Str) :
    walk (splitStep split []) (text ++ rest) 0 state =
      walk (splitStep split []) rest 0 (state.pushAll text) := by
  fun_induction isQuotedText text generalizing state with
  | case1 => simp
  | case2 => simp at quotable
  | case3 => simp at quotable
  | case4 escaped text notQuote induction =>
      simp only [Bool.and_eq_true] at quotable
      have step : splitStep split [] state '\\' (escaped :: (text ++ rest)) =
          ((state.push '\\').push escaped, 1) := by
        simp [splitStep, quoted.2]
      have still : ((state.push '\\').push escaped).InDouble := quoted
      rw [List.cons_append, List.cons_append, walk_cons_of_eq step]
      simp only [List.drop_succ_cons, List.drop_zero]
      rw [induction still quotable.2]
      simp
  | case5 byte text notQuote notEscape induction =>
      have still : (state.push byte).InDouble := quoted
      rw [List.cons_append,
        walk_one (splitStep_double quoted ⟨notQuote, notEscape⟩),
        induction still quotable, SplitState.push_pushAll]

theorem walk_segment {segment : Segment} (quoted : state.InDouble)
    (plain : segment.Plain) (rest : Str) :
    walk (splitStep split []) (segment.render ++ rest) 0 state =
      walk (splitStep split []) rest 0 (state.pushAll segment.render) := by
  obtain ⟨result, current, inDouble, inSingle⟩ := state
  obtain ⟨rfl, rfl⟩ : inDouble = true ∧ inSingle = false := quoted
  cases segment with
  | bare text => exact walk_quotedText ⟨rfl, rfl⟩ plain rest
  | quoted text =>
      simp only [Segment.render, List.cons_append, List.append_assoc,
        List.nil_append]
      rw [walk_closeDouble ⟨rfl, rfl⟩, walk_plain ⟨rfl, rfl⟩ plain (by simp),
        walk_openDouble ⟨rfl, rfl⟩]
      simp [SplitState.pushAll, SplitState.push]

/-- Inside double quotes the splitter copies an argument. -/
theorem Argument.walk {text : Str} (argument : Argument text)
    (quoted : state.InDouble) (rest : Str) :
    Library.walk (splitStep split []) (text ++ rest) 0 state =
      Library.walk (splitStep split []) rest 0 (state.pushAll text) := by
  obtain ⟨segments, plain, rfl⟩ := argument
  induction segments generalizing state with
  | nil => simp
  | cons segment segments induction =>
      obtain ⟨head, tail⟩ := List.forall_mem_cons.mp plain
      have still : (state.pushAll segment.render).InDouble := quoted
      rw [List.flatMap_cons, List.append_assoc, walk_segment quoted head,
        induction still tail, SplitState.pushAll_pushAll]

end

section

variable {step : RewriteState → Char → List Char → RewriteState × Nat}
  {state : RewriteState}

theorem Rewrites.walk_segment (rewrites : Rewrites step) {segment : Segment}
    (quoted : state.inDouble = true) (noSingle : state.inSingle = false)
    (plain : segment.Plain) (rest : Str) :
    walk step (segment.render ++ rest) 0 state =
      walk step rest 0 (state.pushAll segment.render) := by
  obtain ⟨out, inSingle, inDouble, budget⟩ := state
  obtain rfl : inDouble = true := quoted
  obtain rfl : inSingle = false := noSingle
  cases segment with
  | bare text =>
      exact rewrites.walk_inDouble rfl (not_mem_of_isQuotedText plain) rest
  | quoted text =>
      have inert : ∀ char ∈ text, char ∉ ['`', '\'', '"', '('] :=
        fun char member special => plain char member
          ((by decide : ['`', '\'', '"', '('] ⊆ metacharacters) special)
      simp only [Segment.render, List.cons_append, List.append_assoc,
        List.nil_append]
      rw [rewrites.walk_quote rfl, rewrites.walk_plain inert (by simp),
        rewrites.walk_quote rfl]
      simp [RewriteState.pushAll]

/-- Inside double quotes the rewriters copy an argument. -/
theorem Argument.walkRewriter {text : Str} (argument : Argument text)
    (rewrites : Rewrites step) (quoted : state.inDouble = true)
    (noSingle : state.inSingle = false) (rest : Str) :
    Library.walk step (text ++ rest) 0 state =
      Library.walk step rest 0 (state.pushAll text) := by
  obtain ⟨segments, plain, rfl⟩ := argument
  induction segments generalizing state with
  | nil => simp
  | cons segment segments induction =>
      obtain ⟨head, tail⟩ := List.forall_mem_cons.mp plain
      have stillQuoted : (state.pushAll segment.render).inDouble = true := quoted
      have stillOpen : (state.pushAll segment.render).inSingle = false := noSingle
      rw [List.flatMap_cons, List.append_assoc,
        rewrites.walk_segment quoted noSingle head,
        induction stillQuoted stillOpen tail, RewriteState.pushAll_pushAll]

end

/-! ## Printing commands with one quoted argument -/

/-- The words of a printing command before its quoted argument. -/
structure PrintingHead (head : Str) : Prop where
  ascii : IsAscii head
  plain : ∀ char ∈ head, char ∉ '$' :: metacharacters
  front : ∀ char ∈ head.head?, isWhitespace char = false
  printing : isNonExecutingVerb head = true

/-- `head "argument"`. -/
def quote (head argument : Str) : Str :=
  head ++ ' ' :: '"' :: (argument ++ ['"'])

namespace PrintingHead

variable {head : Str}

theorem not_mem (printing : PrintingHead head) {char : Char}
    (special : char ∈ '$' :: metacharacters) : char ∉ head :=
  fun member => printing.plain char member special

/-- The head and the blank after it avoid what the head avoids. -/
theorem not_mem_words (printing : PrintingHead head) {specials : List Char}
    (among : specials ⊆ '$' :: metacharacters) :
    ∀ char ∈ head ++ [' '], char ∉ specials := by
  intro char member special
  rcases List.mem_append.mp member with inHead | inTail
  · exact printing.plain char inHead (among special)
  · obtain rfl := List.mem_singleton.mp inTail
    exact absurd (among special) (by decide)

theorem leg (printing : PrintingHead head) (rest : Str) :
    isNonExecutingVerb (head ++ ' ' :: rest) = true :=
  isNonExecutingVerb_append printing.printing (by decide) rest

theorem nonempty (printing : PrintingHead head) : head ≠ [] := by
  rintro rfl
  exact absurd printing.printing (by decide)

/-- A leg that starts with a printing head and ends with a quote is trimmed. -/
theorem trim_eq (printing : PrintingHead head) (middle : Str) :
    trim (head ++ (middle ++ ['"'])) = head ++ (middle ++ ['"']) := by
  apply trim_of_ends
  · rw [List.head?_append_of_ne_nil _ printing.nonempty]
    exact printing.front
  · simp only [← List.append_assoc, List.getLast?_concat, Option.mem_def,
      Option.some.injEq]
    rintro _ rfl
    decide

theorem walk (printing : PrintingHead head) {split : Str → List Str}
    {state : SplitState} (outside : state.Outside) (rest : Str) :
    Library.walk (splitStep split []) (head ++ ' ' :: '"' :: rest) 0 state =
      Library.walk (splitStep split []) ('"' :: rest) 0
        (state.pushAll (head ++ [' '])) := by
  have plain := printing.not_mem_words (List.subset_cons_self '$' metacharacters)
  have run := @walk_plain split state _ ('"' :: rest) outside plain (by simp)
  rwa [List.append_assoc] at run

theorem asBytes_quote (printing : PrintingHead head) (argument : Str) :
    asBytes (quote head argument) = quote head (asBytes argument) := by
  have blank : asBytes [' ', '"'] = [' ', '"'] := by decide
  have shape : ∀ argument : Str,
      quote head argument = head ++ ([' ', '"'] ++ (argument ++ ['"'])) :=
    fun _ => rfl
  rw [shape, shape, asBytes_append, asBytes_append, asBytes_append, blank,
    asBytes_of_ascii printing.ascii]
  rfl

/-- The whole command is one leg. -/
theorem splitCompound_quote (printing : PrintingHead head) {text : Str}
    (argument : Argument (asBytes text)) :
    splitCompound (quote head text) = [quote head (asBytes text)] := by
  have trimmed : trim (quote head (asBytes text)) = quote head (asBytes text) :=
    printing.trim_eq (' ' :: '"' :: asBytes text)
  rw [Gate.splitCompound_eq, printing.asBytes_quote]
  nth_rewrite 1 [quote]
  rw [printing.walk ⟨rfl, rfl⟩, walk_openDouble ⟨rfl, rfl⟩,
    argument.walk ⟨rfl, rfl⟩, walk_closeDouble ⟨rfl, rfl⟩, walk_nil]
  have leg : head ++ [' '] ++ ['"'] ++ asBytes text ++ ['"'] =
      quote head (asBytes text) := by
    simp [quote]
  have visible : (quote head (asBytes text)).isEmpty = false := by
    simp [quote]
  simp only [SplitState.pushLeg, SplitState.pushAll, SplitState.push,
    SplitState.start, List.nil_append, leg, trimmed, visible]
  simp

theorem walkRewriter (printing : PrintingHead head)
    {step : RewriteState → Char → List Char → RewriteState × Nat}
    (rewrites : Rewrites step) {text : Str} (argument : Argument text)
    (budget : Budget) :
    (Library.walk step (quote head text) 0 (.start budget)).out =
      quote head text := by
  have words := printing.not_mem_words
    (by decide : ['`', '\'', '"', '('] ⊆ '$' :: metacharacters)
  have shape : quote head text = (head ++ [' ']) ++ '"' :: (text ++ ['"']) := by
    simp [quote]
  rw [shape, rewrites.walk_plain words (by simp), rewrites.walk_quote rfl,
    argument.walkRewriter rewrites rfl rfl, rewrites.walk_quote rfl, walk_nil]
  simp [RewriteState.pushAll, RewriteState.start]

theorem noContinuation_quote (printing : PrintingHead head) {text : Str}
    (unbroken : NoContinuation text) : NoContinuation (quote head text) := by
  have words : NoContinuation (head ++ [' ', '"']) := by
    apply noContinuation_of_not_mem
    simp only [List.mem_append, not_or]
    exact ⟨printing.not_mem (by decide), by decide⟩
  have shape : quote head text = (head ++ [' ', '"']) ++ (text ++ ['"']) := by
    simp [quote]
  rw [shape]
  refine List.isChain_append.mpr ⟨words,
    List.isChain_append.mpr ⟨unbroken, by decide, ?_⟩, ?_⟩
  · rintro last - next nextEq -
    obtain rfl := Option.some.inj nextEq
    decide
  · intro last lastEq next _ escape
    rw [List.getLast?_append] at lastEq
    obtain rfl := Option.some.inj lastEq
    exact absurd escape (by decide)

theorem scanInput_quote (printing : PrintingHead head) {text : Str}
    (ascii : IsAscii text) (unbroken : NoContinuation text)
    (argument : Argument text) :
    (scanInput (quote head text) .default).command = quote head text := by
  have allAscii : IsAscii (quote head text) := by
    simp [quote, printing.ascii, ascii]
  exact scanInput_eq_self allAscii (printing.noContinuation_quote unbroken)
    (printing.walkRewriter ansiCStep_rewrites argument)
    (printing.walkRewriter echoStep_rewrites argument)

theorem liveSubstitutionBodies_quote (printing : PrintingHead head)
    {bodies : List Str} (ascii : ∀ body ∈ bodies, IsAscii body)
    (balanced : ∀ body ∈ bodies, parenDepth 1 body = some 1)
    (few : bodies.length ≤ maxSubstBodies) :
    liveSubstitutionBodies (quote head (bodies.flatMap substitution)) =
      bodies := by
  have prints : isNonExecutingVerb
      (quote head (bodies.flatMap substitution)) = true :=
    printing.leg _
  have shape : quote head (bodies.flatMap substitution) =
      (head ++ [' ']) ++ '"' :: (bodies.flatMap substitution ++ ['"']) := by
    simp [quote]
  have words := printing.not_mem_words
    (by decide : ['\\', '"', '\''] ⊆ '$' :: metacharacters)
  have inner : IsAscii (bodies.flatMap substitution) := by
    intro char member
    obtain ⟨body, among, within⟩ := List.mem_flatMap.mp member
    have bodyAscii : IsAscii (substitution body) := by
      simp [substitution, ascii body among]
    exact bodyAscii char within
  have allAscii : IsAscii ((head ++ [' ']) ++
      '"' :: (bodies.flatMap substitution ++ ['"'])) := by
    simp [printing.ascii, inner]
  rw [liveSubstitutionBodies_of_printing prints, shape]
  exact extractDoubleQuotedSubstitutions_eq allAscii words balanced few

end PrintingHead

theorem printingHead_echo : PrintingHead "echo".toList :=
  ⟨by decide, by decide, by decide, by decide⟩

end TrustLayer.AgentGuard.Gate
