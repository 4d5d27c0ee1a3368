import TrustLayer.AgentGuard.Gate.Split
import Mathlib.Algebra.Ring.Nat

/-!
# The splitter over a grammar of commands

Commands are built from plain leaves by the separators and the wrappers.  The
splitter answers with the bytes of their leaves, in order; every level of
substitution reads the bytes of the level above as characters again.
-/

namespace TrustLayer.AgentGuard.Gate

open TrustLayer.Library

/-! ## The grammar -/

inductive Separator where
  | and
  | or
  | semicolon
  | pipe
  | background
  | newline
  deriving DecidableEq

def Separator.text : Separator → Str
  | .and => ['&', '&']
  | .or => ['|', '|']
  | .semicolon => [';']
  | .pipe => ['|']
  | .background => ['&']
  | .newline => ['\n']

inductive Wrapper where
  | command
  | input
  | output
  | group
  | backtick
  deriving DecidableEq

namespace Wrapper

def opening : Wrapper → Str
  | command => ['$', '(']
  | input => ['<', '(']
  | output => ['>', '(']
  | group => ['(']
  | backtick => ['`']

def closing : Wrapper → Str
  | backtick => ['`']
  | _ => [')']

end Wrapper

/-- A wrapper stands between two commands, which may be empty leaves. -/
inductive Command where
  | leaf (text : Str)
  | separated (left : Command) (separator : Separator) (right : Command)
  | wrapped (left : Command) (wrapper : Wrapper) (body right : Command)

namespace Command

def render : Command → Str
  | leaf text => text
  | separated left separator right =>
      left.render ++ (separator.text ++ right.render)
  | wrapped left wrapper body right =>
      left.render ++ (wrapper.opening ++
        (body.render ++ (wrapper.closing ++ right.render)))

def leaves : Command → List Str
  | leaf text => [text]
  | separated left _ right => left.leaves ++ right.leaves
  | wrapped left _ body right => left.leaves ++ (body.leaves ++ right.leaves)

def mapLeaves (f : Str → Str) : Command → Command
  | leaf text => leaf (f text)
  | separated left separator right =>
      separated (left.mapLeaves f) separator (right.mapLeaves f)
  | wrapped left wrapper body right =>
      wrapped (left.mapLeaves f) wrapper (body.mapLeaves f) (right.mapLeaves f)

def NoBacktick : Command → Prop
  | leaf _ => True
  | separated left _ right => left.NoBacktick ∧ right.NoBacktick
  | wrapped left wrapper body right =>
      left.NoBacktick ∧ wrapper ≠ .backtick ∧ body.NoBacktick ∧ right.NoBacktick

end Command

/-- Nothing in the text means anything to the splitter. -/
def PlainText (text : Str) : Prop :=
  ∀ char ∈ text, char ∉ ['$', '<', '>'] ++ metacharacters

instance (text : Str) : Decidable (PlainText text) :=
  inferInstanceAs (Decidable (∀ char ∈ text, char ∉ ['$', '<', '>'] ++ metacharacters))

/-- Leaves are plain and backticks hold no backticks. -/
def Command.WellFormed : Command → Prop
  | .leaf text => PlainText text
  | .separated left _ right => left.WellFormed ∧ right.WellFormed
  | .wrapped left wrapper body right =>
      left.WellFormed ∧ (wrapper = .backtick → body.NoBacktick) ∧
        body.WellFormed ∧ right.WellFormed

/-! ## Bytes of a command -/

theorem PlainText.asBytes {text : Str} (plain : PlainText text) :
    PlainText (asBytes text) := by
  intro byte member special
  have ascii : byte.toNat < 128 := by
    have all : ∀ char ∈ ['$', '<', '>'] ++ metacharacters,
        char.toNat < 128 := by
      decide
    exact all byte special
  exact plain byte ((mem_asBytes_iff ascii).mp member) special

namespace Command

theorem asBytes_render (command : Command) :
    asBytes command.render = (command.mapLeaves asBytes).render := by
  induction command with
  | leaf text => rfl
  | separated left separator right leftInduction rightInduction =>
      have ascii : asBytes separator.text = separator.text :=
        asBytes_of_ascii (by cases separator <;> decide)
      simp only [render, mapLeaves, asBytes_append, leftInduction,
        rightInduction, ascii]
  | wrapped left wrapper body right leftInduction bodyInduction rightInduction =>
      have opening : asBytes wrapper.opening = wrapper.opening :=
        asBytes_of_ascii (by cases wrapper <;> decide)
      have closing : asBytes wrapper.closing = wrapper.closing :=
        asBytes_of_ascii (by cases wrapper <;> decide)
      simp only [render, mapLeaves, asBytes_append, leftInduction,
        bodyInduction, rightInduction, opening, closing]

theorem mapLeaves_mapLeaves (f g : Str → Str) (command : Command) :
    (command.mapLeaves f).mapLeaves g = command.mapLeaves (g ∘ f) := by
  induction command with
  | leaf text => rfl
  | separated left separator right leftInduction rightInduction =>
      simp only [mapLeaves, leftInduction, rightInduction]
  | wrapped left wrapper body right leftInduction bodyInduction rightInduction =>
      simp only [mapLeaves, leftInduction, bodyInduction, rightInduction]

theorem NoBacktick.mapLeaves {command : Command} (clean : command.NoBacktick)
    (f : Str → Str) : (command.mapLeaves f).NoBacktick := by
  induction command with
  | leaf text => trivial
  | separated left separator right leftInduction rightInduction =>
      exact ⟨leftInduction clean.1, rightInduction clean.2⟩
  | wrapped left wrapper body right leftInduction bodyInduction rightInduction =>
      exact ⟨leftInduction clean.1, clean.2.1, bodyInduction clean.2.2.1,
        rightInduction clean.2.2.2⟩

theorem WellFormed.mapLeaves {command : Command} (wellFormed : command.WellFormed)
    {f : Str → Str} (keeps : ∀ text, PlainText text → PlainText (f text)) :
    (command.mapLeaves f).WellFormed := by
  induction command with
  | leaf text => exact keeps text wellFormed
  | separated left separator right leftInduction rightInduction =>
      exact ⟨leftInduction wellFormed.1, rightInduction wellFormed.2⟩
  | wrapped left wrapper body right leftInduction bodyInduction rightInduction =>
      obtain ⟨leftFormed, clean, bodyFormed, rightFormed⟩ := wellFormed
      exact ⟨leftInduction leftFormed, fun tick => (clean tick).mapLeaves f,
        bodyInduction bodyFormed, rightInduction rightFormed⟩

end Command

/-! ## Bodies -/

theorem Separator.bare (separator : Separator) :
    ∀ char ∈ separator.text, char ∉ ['\\', '(', ')'] := by
  cases separator <;> decide

/-- Parentheses in a command close. -/
theorem Command.parenDepth_render {command : Command}
    (wellFormed : command.WellFormed) {depth : Nat} (inside : 0 < depth) :
    parenDepth depth command.render = some depth := by
  induction command generalizing depth with
  | leaf text =>
      apply parenDepth_of_bare
      intro char member special
      have all : ∀ char ∈ ['\\', '(', ')'],
          char ∈ ['$', '<', '>'] ++ metacharacters := by
        decide
      exact wellFormed char member (all char special)
  | separated left separator right leftInduction rightInduction =>
      rw [render, parenDepth_append (leftInduction wellFormed.1 inside),
        parenDepth_append (parenDepth_of_bare separator.bare depth)]
      exact rightInduction wellFormed.2 inside
  | wrapped left wrapper body right leftInduction bodyInduction rightInduction =>
      obtain ⟨leftFormed, _, bodyFormed, rightFormed⟩ := wellFormed
      rw [render, parenDepth_append (leftInduction leftFormed inside)]
      by_cases tick : wrapper = .backtick
      · subst tick
        change parenDepth depth ('`' :: (body.render ++ '`' :: right.render)) = _
        rw [parenDepth_copy (by decide),
          parenDepth_append (bodyInduction bodyFormed inside),
          parenDepth_copy (by decide)]
        exact rightInduction rightFormed inside
      · have opened : parenDepth depth wrapper.opening = some (depth + 1) := by
          cases wrapper with
          | backtick => exact absurd rfl tick
          | group => simp [Wrapper.opening]
          | _ =>
              rw [Wrapper.opening, parenDepth_copy (by decide)]
              simp
        have closed : wrapper.closing = [')'] := by
          cases wrapper with
          | backtick => exact absurd rfl tick
          | _ => rfl
        rw [parenDepth_append opened, parenDepth_append
          (bodyInduction bodyFormed (show 0 < depth + 1 by omega)), closed,
          List.singleton_append, parenDepth_close (by omega),
          Nat.add_sub_cancel]
        exact rightInduction rightFormed inside

theorem Command.not_mem_render {command : Command}
    (wellFormed : command.WellFormed) :
    '\\' ∉ command.render ∧ (command.NoBacktick → '`' ∉ command.render) := by
  induction command with
  | leaf text =>
      exact ⟨fun member => wellFormed _ member (by decide),
        fun _ member => wellFormed _ member (by decide)⟩
  | separated left separator right leftInduction rightInduction =>
      have leftPart := leftInduction wellFormed.1
      have rightPart := rightInduction wellFormed.2
      have between : '\\' ∉ separator.text ∧ '`' ∉ separator.text := by
        cases separator <;> decide
      simp only [render, List.mem_append, not_or, NoBacktick]
      exact ⟨⟨leftPart.1, between.1, rightPart.1⟩, fun clean =>
        ⟨leftPart.2 clean.1, between.2, rightPart.2 clean.2⟩⟩
  | wrapped left wrapper body right leftInduction bodyInduction rightInduction =>
      have leftPart := leftInduction wellFormed.1
      have bodyPart := bodyInduction wellFormed.2.2.1
      have rightPart := rightInduction wellFormed.2.2.2
      have escapes : '\\' ∉ wrapper.opening ∧ '\\' ∉ wrapper.closing := by
        cases wrapper <;> decide
      have ticks : wrapper ≠ .backtick →
          '`' ∉ wrapper.opening ∧ '`' ∉ wrapper.closing := by
        cases wrapper <;> decide
      simp only [render, List.mem_append, not_or, NoBacktick]
      refine ⟨⟨leftPart.1, escapes.1, bodyPart.1, escapes.2, rightPart.1⟩, ?_⟩
      rintro ⟨leftClean, notTick, bodyClean, rightClean⟩
      exact ⟨leftPart.2 leftClean, (ticks notTick).1, bodyPart.2 bodyClean,
        (ticks notTick).2, rightPart.2 rightClean⟩

/-- A backtick body without escapes ends at the next backtick. -/
theorem extractBacktickBody_closed {text : List Char} (escapes : '\\' ∉ text)
    (ticks : '`' ∉ text) (rest : List Char) :
    extractBacktickBody (text ++ '`' :: rest) = (text, text.length + 1) := by
  induction text with
  | nil =>
      rw [List.nil_append, extractBacktickBody.eq_def]
      simp
  | cons char text induction =>
      simp only [List.mem_cons, not_or] at escapes ticks
      rw [List.cons_append, extractBacktickBody.eq_def]
      simp [Ne.symm escapes.1, Ne.symm ticks.1, induction escapes.2 ticks.2]

section

variable {split : Str → List Str} {state : SplitState}

theorem walk_backtick {body : Str} (outside : state.Outside)
    (escapes : '\\' ∉ body) (ticks : '`' ∉ body) (rest : Str) :
    walk (splitStep split []) ('`' :: (body ++ '`' :: rest)) 0 state =
      walk (splitStep split []) rest 0 (state.pushLeg.extend (split body)) := by
  obtain ⟨noDouble, noSingle⟩ := outside
  have step : splitStep split [] state '`' (body ++ '`' :: rest) =
      (state.pushLeg.extend (split body), body.length + 1) := by
    simp [splitStep, noDouble, noSingle, extractBacktickBody_closed escapes ticks]
  rw [walk_cons_of_eq step]
  simp

/-! ## Separators -/

/-- What a leg adds to the result. -/
def legOf (text : Str) : List Str :=
  if (trim text).isEmpty then [] else [trim text]

theorem pushLeg_eq (state : SplitState) :
    state.pushLeg = { state with
      result := state.result ++ legOf state.current
      current := [] } := by
  rw [SplitState.pushLeg, legOf]
  split_ifs <;> simp

theorem Outside.pushLeg (outside : state.Outside) : state.pushLeg.Outside :=
  outside

theorem pushLeg_pushLeg (state : SplitState) :
    state.pushLeg.pushLeg = state.pushLeg := by
  simp [pushLeg_eq, legOf, trim, trimStart]

theorem walk_doubled {char : Char} (outside : state.Outside)
    (doubles : char ∈ ['&', '|']) (rest : Str) :
    walk (splitStep split []) (char :: char :: rest) 0 state =
      walk (splitStep split []) rest 0 state.pushLeg := by
  obtain ⟨noDouble, noSingle⟩ := outside
  have step : splitStep split [] state char (char :: rest) = (state.pushLeg, 1) := by
    simp only [List.mem_cons, List.not_mem_nil, or_false] at doubles
    rcases doubles with rfl | rfl <;> simp [splitStep, noDouble, noSingle]
  rw [walk_cons_of_eq step, List.drop_succ_cons, List.drop_zero]

/-- A separator ends the leg, whatever separators follow it. -/
theorem walk_separating {char : Char} (outside : state.Outside)
    (separator : char ∈ [';', '|', '&', '\n', '(', ')']) (rest : Str) :
    walk (splitStep split []) (char :: rest) 0 state =
      walk (splitStep split []) rest 0 state.pushLeg := by
  induction rest generalizing state with
  | nil =>
      exact walk_one (splitStep_separator outside separator (by simp))
  | cons next rest induction =>
      by_cases doubled : next = char ∧ char ∈ ['&', '|']
      · obtain ⟨rfl, doubles⟩ := doubled
        rw [walk_doubled outside doubles,
          induction (Outside.pushLeg outside), pushLeg_pushLeg]
      · refine walk_one (splitStep_separator outside separator ?_)
        simp only [List.head?_cons, Option.some.injEq]
        rintro (⟨rfl, rfl⟩ | ⟨rfl, rfl⟩)
        · exact doubled ⟨rfl, by simp⟩
        · exact doubled ⟨rfl, by simp⟩

theorem walk_separator (outside : state.Outside) (separator : Separator)
    (rest : Str) :
    walk (splitStep split []) (separator.text ++ rest) 0 state =
      walk (splitStep split []) rest 0 state.pushLeg := by
  cases separator with
  | and => exact walk_doubled outside (by simp) rest
  | or => exact walk_doubled outside (by simp) rest
  | semicolon => exact walk_separating outside (by simp) rest
  | pipe => exact walk_separating outside (by simp) rest
  | background => exact walk_separating outside (by simp) rest
  | newline => exact walk_separating outside (by simp) rest

end

/-! ## The walk over a command -/

/-- The legs of a command whose first leaf follows `current`. -/
def Command.legsAfter (split : Str → List Str) : (current : Str) → Command →
    List Str
  | current, leaf text => legOf (current ++ text)
  | current, separated left _ right =>
      left.legsAfter split current ++ right.legsAfter split []
  | current, wrapped left wrapper body right =>
      left.legsAfter split current ++
        ((if wrapper = .group then body.legsAfter split []
          else split body.render) ++ right.legsAfter split [])

section

variable {split : Str → List Str} {state : SplitState}

theorem walk_plainText {text : Str} (outside : state.Outside)
    (plain : PlainText text) (rest : Str) :
    walk (splitStep split []) (text ++ rest) 0 state =
      walk (splitStep split []) rest 0 (state.pushAll text) := by
  have run := walk_run SplitState.Outside SplitState.push
    (fun state holds item member rest => by
      have special := plain item member
      rw [List.mem_append, not_or] at special
      exact ⟨@splitStep_copy split state item rest holds special.2
        (fun opens => absurd opens special.1), holds⟩) rest outside
  rw [run.1, SplitState.foldl_push]

theorem walk_substituted {body : Command} {wrapper : Wrapper}
    (outside : state.Outside) (substitutes : wrapper ≠ .group)
    (clean : wrapper = .backtick → body.NoBacktick)
    (wellFormed : body.WellFormed) (rest : Str) :
    walk (splitStep split [])
        (wrapper.opening ++ (body.render ++ (wrapper.closing ++ rest))) 0 state =
      walk (splitStep split []) rest 0
        (state.pushLeg.extend (split body.render)) := by
  have balanced := body.parenDepth_render wellFormed Nat.one_pos
  have absent := body.not_mem_render wellFormed
  cases wrapper with
  | group => exact absurd rfl substitutes
  | command => exact walk_substitution outside (by simp) balanced rest
  | input => exact walk_substitution outside (by simp) balanced rest
  | output => exact walk_substitution outside (by simp) balanced rest
  | backtick => exact walk_backtick outside absent.1 (absent.2 (clean rfl)) rest

/-- Reading a command leaves a leg that, once pushed, completes its legs. -/
theorem walk_render {command : Command} (wellFormed : command.WellFormed)
    (outside : state.Outside) (rest : Str) :
    ∃ next : SplitState,
      walk (splitStep split []) (command.render ++ rest) 0 state =
          walk (splitStep split []) rest 0 next ∧
        next.Outside ∧
        next.pushLeg = { state with
          result := state.result ++ command.legsAfter split state.current
          current := [] } := by
  induction command generalizing state rest with
  | leaf text =>
      refine ⟨state.pushAll text, walk_plainText outside wellFormed rest,
        outside, ?_⟩
      rw [pushLeg_eq]
      rfl
  | separated left separator right leftInduction rightInduction =>
      obtain ⟨middle, leftWalk, middleOutside, leftLegs⟩ :=
        leftInduction wellFormed.1 outside
          (separator.text ++ (right.render ++ rest))
      obtain ⟨last, rightWalk, lastOutside, rightLegs⟩ :=
        rightInduction wellFormed.2 (Outside.pushLeg middleOutside) rest
      refine ⟨last, ?_, lastOutside, ?_⟩
      · rw [Command.render, List.append_assoc, List.append_assoc, leftWalk,
          walk_separator middleOutside, rightWalk]
      · rw [rightLegs, leftLegs, Command.legsAfter, List.append_assoc]
  | wrapped left wrapper body right leftInduction bodyInduction rightInduction =>
      obtain ⟨leftFormed, clean, bodyFormed, rightFormed⟩ := wellFormed
      obtain ⟨middle, leftWalk, middleOutside, leftLegs⟩ :=
        leftInduction leftFormed outside (wrapper.opening ++
          (body.render ++ (wrapper.closing ++ (right.render ++ rest))))
      have cut : (Command.wrapped left wrapper body right).render ++ rest =
          left.render ++ (wrapper.opening ++
            (body.render ++ (wrapper.closing ++ (right.render ++ rest)))) := by
        simp only [Command.render, List.append_assoc]
      by_cases group : wrapper = .group
      · subst group
        obtain ⟨inner, bodyWalk, innerOutside, bodyLegs⟩ :=
          bodyInduction bodyFormed (Outside.pushLeg middleOutside)
            (')' :: (right.render ++ rest))
        obtain ⟨last, rightWalk, lastOutside, rightLegs⟩ :=
          rightInduction rightFormed (Outside.pushLeg innerOutside) rest
        refine ⟨last, ?_, lastOutside, ?_⟩
        · rw [cut, leftWalk]
          change walk (splitStep split []) ('(' ::
            (body.render ++ ')' :: (right.render ++ rest))) 0 middle = _
          rw [walk_separating middleOutside (by simp), bodyWalk,
            walk_separating innerOutside (by simp), rightWalk]
        · rw [rightLegs, bodyLegs, leftLegs, Command.legsAfter, if_pos rfl]
          simp only [List.append_assoc]
      · obtain ⟨last, rightWalk, lastOutside, rightLegs⟩ :=
          @rightInduction (middle.pushLeg.extend (split body.render)) rightFormed
            (Outside.pushLeg middleOutside) rest
        refine ⟨last, ?_, lastOutside, ?_⟩
        · rw [cut, leftWalk, walk_substituted middleOutside group clean
            bodyFormed, rightWalk]
        · rw [rightLegs, leftLegs, Command.legsAfter, if_neg group]
          simp only [SplitState.extend, List.append_assoc]

end

/-- The splitter answers with the legs of the bytes. -/
theorem splitCompound_render {command : Command}
    (wellFormed : command.WellFormed) :
    splitCompound command.render =
      (command.mapLeaves asBytes).legsAfter splitCompound [] := by
  have formed := wellFormed.mapLeaves fun _ => PlainText.asBytes
  have outside : SplitState.start.Outside := ⟨rfl, rfl⟩
  obtain ⟨last, walked, _, legs⟩ :=
    @walk_render splitCompound SplitState.start _ formed outside []
  rw [splitCompound_eq, Command.asBytes_render, ← List.append_nil
    (command.mapLeaves asBytes).render, walked, walk_nil, legs]
  rfl

/-! ## Legs and leaves -/

/-- The trimmed texts that are not empty. -/
def legsOf (texts : List Str) : List Str :=
  (texts.map trim).filter fun leg => !leg.isEmpty

/-- What is read of every leaf: its bytes, read as characters once more at
every level of substitution. -/
def Command.readLeaves : (f : Str → Str) → Command → List Str
  | f, leaf text => [asBytes (f text)]
  | f, separated left _ right => left.readLeaves f ++ right.readLeaves f
  | f, wrapped left wrapper body right =>
      left.readLeaves f ++
        (body.readLeaves (if wrapper = .group then f else asBytes ∘ f) ++
          right.readLeaves f)

theorem legsOf_append (left right : List Str) :
    legsOf (left ++ right) = legsOf left ++ legsOf right := by
  simp [legsOf]

theorem legOf_eq (text : Str) : legOf text = legsOf [text] := by
  rw [legOf, legsOf]
  by_cases empty : (trim text).isEmpty = true <;> simp [empty]

theorem Command.legsAfter_mapLeaves {command : Command}
    (wellFormed : command.WellFormed) {f : Str → Str}
    (keeps : ∀ text, PlainText text → PlainText (f text)) :
    (command.mapLeaves (asBytes ∘ f)).legsAfter splitCompound [] =
      legsOf (command.readLeaves f) := by
  induction command generalizing f with
  | leaf text => exact legOf_eq _
  | separated left separator right leftInduction rightInduction =>
      rw [mapLeaves, legsAfter, readLeaves, legsOf_append,
        leftInduction wellFormed.1 keeps, rightInduction wellFormed.2 keeps]
  | wrapped left wrapper body right leftInduction bodyInduction rightInduction =>
      obtain ⟨leftFormed, _, bodyFormed, rightFormed⟩ := wellFormed
      rw [mapLeaves, legsAfter, readLeaves, legsOf_append, legsOf_append,
        leftInduction leftFormed keeps, rightInduction rightFormed keeps]
      by_cases group : wrapper = .group
      · rw [if_pos group, if_pos group, bodyInduction bodyFormed keeps]
      · have deeper : ∀ text, PlainText text → PlainText ((asBytes ∘ f) text) :=
          fun text plain => (keeps text plain).asBytes
        rw [if_neg group, if_neg group,
          splitCompound_render (bodyFormed.mapLeaves deeper),
          mapLeaves_mapLeaves, bodyInduction bodyFormed deeper]

/-- The legs of a command are the bytes of its leaves. -/
theorem splitCompound_eq_readLeaves {command : Command}
    (wellFormed : command.WellFormed) :
    splitCompound command.render = legsOf (command.readLeaves id) := by
  rw [splitCompound_render wellFormed]
  exact command.legsAfter_mapLeaves wellFormed fun _ plain => plain

/-! ## What reading bytes as characters adds -/

/-- A measure that trimming keeps and that grows whenever a character outside
ASCII is read as its bytes. -/
def weight (char : Char) : Nat :=
  if char.toNat < 128 ∨ isWhitespace char = true then 0
  else if char.toNat = 0xC3 then 3
  else if 0xC4 ≤ char.toNat ∧ char.toNat ≤ 0xF4 then 2
  else 1

def textWeight (text : Str) : Nat :=
  (text.map weight).sum

def totalWeight (texts : List Str) : Nat :=
  (texts.map textWeight).sum

theorem weight_of_isWhitespace {char : Char} (space : isWhitespace char = true) :
    weight char = 0 :=
  if_pos (Or.inr space)

theorem weight_of_ascii {char : Char} (ascii : char.toNat < 128) :
    weight char = 0 :=
  if_pos (Or.inl ascii)

theorem weight_le_one {char : Char} (wide : 0xF4 < char.toNat) :
    weight char ≤ 1 := by
  unfold weight
  split_ifs <;> omega

/-- The weight of a byte, written with its value. -/
theorem weight_byteChar (byte : UInt8) :
    weight (byteChar byte) =
      if byte.toNat < 128 ∨ byte.toNat = 0x85 ∨ byte.toNat = 0xA0 then 0
      else if byte.toNat = 0xC3 then 3
      else if 0xC4 ≤ byte.toNat ∧ byte.toNat ≤ 0xF4 then 2
      else 1 := by
  have small := byte.toNat_lt
  have blank : (byte.toNat < 128 ∨ isWhitespace (byteChar byte) = true) ↔
      byte.toNat < 128 ∨ byte.toNat = 0x85 ∨ byte.toNat = 0xA0 := by
    simp only [isWhitespace, toNat_byteChar, Bool.or_eq_true, Bool.and_eq_true,
      decide_eq_true_eq, beq_iff_eq]
    omega
  unfold weight
  rw [toNat_byteChar]
  simp only [blank]

/-- The first byte of a long encoding outweighs its character. -/
theorem weight_lt_of_lead {char : Char} {lead : UInt8} {later : List Char}
    (wide : 0xF4 < char.toNat) (first : 0xC4 ≤ lead.toNat ∧ lead.toNat ≤ 0xF4) :
    weight char < textWeight (byteChar lead :: later) := by
  have light := weight_le_one wide
  have heavy : weight (byteChar lead) = 2 := by
    rw [weight_byteChar, if_neg (by omega), if_neg (by omega), if_pos first]
  simp only [textWeight, List.map_cons, List.sum_cons, heavy]
  omega

theorem weight_lt_of_two {char : Char} (wide : 128 ≤ char.toNat)
    (two : char.toNat ≤ 0x7ff) :
    weight char < textWeight ([UInt8.ofNat (char.toNat / 64 % 0x20 + 0xc0),
      UInt8.ofNat (char.toNat % 0x40 + 0x80)].map byteChar) := by
  have blank : isWhitespace char = true ↔
      char.toNat = 0x85 ∨ char.toNat = 0xA0 := by
    simp only [isWhitespace, Bool.or_eq_true, Bool.and_eq_true,
      decide_eq_true_eq, beq_iff_eq]
    omega
  by_cases latin : char.toNat ≤ 0xFF
  · simp only [textWeight, List.map_cons, List.map_nil, List.sum_cons,
      List.sum_nil, weight_byteChar, UInt8.toNat_ofNat']
    simp only [weight, blank]
    split_ifs <;> omega
  · refine weight_lt_of_lead (by omega) ?_
    simp only [UInt8.toNat_ofNat']
    omega

theorem weight_lt_asBytes {char : Char} (wide : 128 ≤ char.toNat) :
    weight char < textWeight (asBytes [char]) := by
  have encoded : asBytes [char] = (String.utf8EncodeChar char).map byteChar := by
    simp [asBytes, utf8Bytes]
  have bound : char.toNat < 0x110000 := by
    rcases char.valid with small | large <;> simp only [Char.toNat] <;> omega
  rw [encoded]
  unfold String.utf8EncodeChar
  dsimp only
  have value : char.val.toNat = char.toNat := rfl
  rw [value, if_neg (by omega)]
  by_cases two : char.toNat ≤ 0x7ff
  · rw [if_pos two]
    exact weight_lt_of_two wide two
  · rw [if_neg two]
    by_cases three : char.toNat ≤ 0xffff
    · rw [if_pos three]
      refine weight_lt_of_lead (by omega) ?_
      simp only [UInt8.toNat_ofNat']
      omega
    · rw [if_neg three]
      refine weight_lt_of_lead (by omega) ?_
      simp only [UInt8.toNat_ofNat']
      omega

@[simp] theorem textWeight_append (left right : Str) :
    textWeight (left ++ right) = textWeight left + textWeight right := by
  simp [textWeight]

theorem textWeight_le_asBytes (text : Str) :
    textWeight text ≤ textWeight (asBytes text) ∧
      (¬ IsAscii text → textWeight text < textWeight (asBytes text)) := by
  induction text with
  | nil => simp [textWeight]
  | cons char text induction =>
      have single : textWeight (char :: text) = weight char + textWeight text := by
        simp [textWeight]
      rw [single, asBytes_cons, textWeight_append, isAscii_cons, not_and_or]
      by_cases ascii : char.toNat < 128
      · have same : textWeight (asBytes [char]) = weight char := by
          simp [asBytes_singleton_of_ascii ascii, textWeight]
        rw [same]
        refine ⟨by omega, fun wide => ?_⟩
        have := induction.2 (wide.resolve_left (not_not_intro ascii))
        omega
      · have grows := weight_lt_asBytes (Nat.le_of_not_lt ascii)
        exact ⟨by omega, fun _ => by omega⟩

theorem isAscii_of_asBytes {text : Str} (ascii : IsAscii (asBytes text)) :
    IsAscii text := by
  by_contra wide
  have grown := (textWeight_le_asBytes text).2 wide
  have light : textWeight (asBytes text) = 0 := by
    rw [textWeight, List.sum_eq_zero_iff_forall_eq_nat]
    intro heavy member
    obtain ⟨byte, among, rfl⟩ := List.mem_map.mp member
    exact weight_of_ascii (ascii byte among)
  omega

theorem textWeight_trim (text : Str) : textWeight (trim text) = textWeight text := by
  have front : ∀ text : Str, textWeight (trimStart text) = textWeight text := by
    intro text
    induction text with
    | nil => rfl
    | cons char text induction =>
        by_cases space : isWhitespace char = true
        · rw [trimStart, List.dropWhile_cons_of_pos space]
          exact induction.trans (by
            simp [textWeight, weight_of_isWhitespace space])
        · rw [trimStart, List.dropWhile_cons_of_neg space]
  have back : ∀ text : Str,
      textWeight (text.rdropWhile isWhitespace) = textWeight text := by
    intro text
    induction text using List.reverseRecOn with
    | nil => rfl
    | append_singleton text char induction =>
        by_cases space : isWhitespace char = true
        · rw [List.rdropWhile_concat_pos _ _ _ space, induction,
            textWeight_append]
          simp [textWeight, weight_of_isWhitespace space]
        · rw [List.rdropWhile_concat_neg _ _ _ space]
  rw [trim, back, front]

theorem totalWeight_append (left right : List Str) :
    totalWeight (left ++ right) = totalWeight left + totalWeight right := by
  simp [totalWeight]

theorem totalWeight_legsOf (texts : List Str) :
    totalWeight (legsOf texts) = totalWeight texts := by
  induction texts with
  | nil => rfl
  | cons text texts induction =>
      have split : legsOf (text :: texts) = legOf text ++ legsOf texts := by
        rw [legOf_eq, ← legsOf_append]
        rfl
      have leg : totalWeight (legOf text) = textWeight text := by
        rw [legOf]
        by_cases empty : (trim text).isEmpty = true
        · rw [if_pos empty, ← textWeight_trim, List.isEmpty_iff.mp empty]
          rfl
        · rw [if_neg empty, ← textWeight_trim text]
          simp [totalWeight]
      simp only [totalWeight, List.map_append, List.sum_append, List.map_cons,
        List.sum_cons, split] at leg induction ⊢
      omega

theorem Command.totalWeight_readLeaves {command : Command} {f : Str → Str}
    (grows : ∀ text, textWeight text ≤ textWeight (f text))
    (reflects : ∀ text, IsAscii (f text) → IsAscii text) :
    totalWeight command.leaves ≤ totalWeight (command.readLeaves f) ∧
      ((∃ text ∈ command.leaves, ¬ IsAscii text) →
        totalWeight command.leaves < totalWeight (command.readLeaves f)) := by
  induction command generalizing f with
  | leaf text =>
      have read := textWeight_le_asBytes (f text)
      have mapped := grows text
      simp only [leaves, readLeaves, totalWeight, List.map_cons, List.map_nil,
        List.sum_cons, List.sum_nil, List.mem_singleton, exists_eq_left]
      refine ⟨by omega, fun wide => ?_⟩
      have := read.2 (mt (reflects text) wide)
      omega
  | separated left separator right leftInduction rightInduction =>
      obtain ⟨leftLe, leftLt⟩ := leftInduction grows reflects
      obtain ⟨rightLe, rightLt⟩ := rightInduction grows reflects
      rw [leaves, readLeaves, totalWeight_append, totalWeight_append]
      refine ⟨by omega, ?_⟩
      rintro ⟨text, member, wide⟩
      rcases List.mem_append.mp member with inLeft | inRight
      · have := leftLt ⟨text, inLeft, wide⟩
        omega
      · have := rightLt ⟨text, inRight, wide⟩
        omega
  | wrapped left wrapper body right leftInduction bodyInduction rightInduction =>
      have deeper : ∀ text, textWeight text ≤
          textWeight ((if wrapper = .group then f else asBytes ∘ f) text) := by
        intro text
        split_ifs
        · exact grows text
        · exact (grows text).trans (textWeight_le_asBytes (f text)).1
      obtain ⟨leftLe, leftLt⟩ := leftInduction grows reflects
      have deeperReflects : ∀ text, IsAscii
          ((if wrapper = .group then f else asBytes ∘ f) text) →
            IsAscii text := by
        intro text
        split_ifs
        · exact reflects text
        · exact fun ascii => reflects text (isAscii_of_asBytes ascii)
      obtain ⟨bodyLe, bodyLt⟩ := bodyInduction deeper deeperReflects
      obtain ⟨rightLe, rightLt⟩ := rightInduction grows reflects
      rw [leaves, readLeaves, totalWeight_append, totalWeight_append,
        totalWeight_append, totalWeight_append]
      refine ⟨by omega, ?_⟩
      rintro ⟨text, member, wide⟩
      rcases List.mem_append.mp member with inLeft | inRest
      · have := leftLt ⟨text, inLeft, wide⟩
        omega
      · rcases List.mem_append.mp inRest with inBody | inRight
        · have := bodyLt ⟨text, inBody, wide⟩
          omega
        · have := rightLt ⟨text, inRight, wide⟩
          omega

theorem Command.readLeaves_of_ascii {command : Command} {f : Str → Str}
    (fixes : ∀ text, IsAscii text → f text = text)
    (ascii : ∀ text ∈ command.leaves, IsAscii text) :
    command.readLeaves f = command.leaves := by
  induction command generalizing f with
  | leaf text =>
      have same := ascii text (by simp [leaves])
      rw [readLeaves, fixes text same, asBytes_of_ascii same, leaves]
  | separated left separator right leftInduction rightInduction =>
      rw [leaves, List.forall_mem_append] at ascii
      rw [readLeaves, leftInduction fixes ascii.1, rightInduction fixes ascii.2,
        leaves]
  | wrapped left wrapper body right leftInduction bodyInduction rightInduction =>
      rw [leaves, List.forall_mem_append, List.forall_mem_append] at ascii
      obtain ⟨leftAscii, bodyAscii, rightAscii⟩ := ascii
      have deeper : ∀ text, IsAscii text →
          (if wrapper = .group then f else asBytes ∘ f) text = text := by
        intro text textAscii
        split_ifs
        · exact fixes text textAscii
        · rw [Function.comp_apply, fixes text textAscii,
            asBytes_of_ascii textAscii]
      rw [readLeaves, leftInduction fixes leftAscii,
        bodyInduction deeper bodyAscii, rightInduction fixes rightAscii, leaves]

/-! ## The load-bearing invariant -/

/-- Every leaf surfaces, and the legs are the leaves in order. -/
def Surfaces (command : Command) : Prop :=
  (∀ text ∈ command.leaves, trim text ≠ [] →
      trim text ∈ splitCompound command.render) ∧
    splitCompound command.render = legsOf command.leaves

theorem surfaces_iff {command : Command} (wellFormed : command.WellFormed) :
    Surfaces command ↔ ∀ text ∈ command.leaves, IsAscii text := by
  constructor
  · rintro ⟨_, same⟩
    by_contra wide
    have some : ∃ text ∈ command.leaves, ¬ IsAscii text := by
      by_contra none
      exact wide fun text member => not_not.mp fun notAscii =>
        none ⟨text, member, notAscii⟩
    have grown := (@Command.totalWeight_readLeaves command id
      (fun text => Nat.le_refl (textWeight text)) fun _ ascii => ascii).2 some
    rw [splitCompound_eq_readLeaves wellFormed] at same
    have equal := congrArg totalWeight same
    rw [totalWeight_legsOf, totalWeight_legsOf] at equal
    exact absurd equal.symm (Nat.ne_of_lt grown)
  · intro ascii
    have same : splitCompound command.render = legsOf command.leaves := by
      rw [splitCompound_eq_readLeaves wellFormed,
        @Command.readLeaves_of_ascii command id (fun _ _ => rfl) ascii]
    refine ⟨fun text member visible => ?_, same⟩
    rw [same, legsOf, List.mem_filter]
    exact ⟨List.mem_map_of_mem member, by simpa using visible⟩

/-- `$(ls; (rm -rf ~)) && pwd`. -/
def nestedCommand : Command :=
  .separated
    (.wrapped (.leaf []) .command
      (.separated (.leaf "ls".toList) .semicolon
        (.wrapped (.leaf []) .group (.leaf "rm -rf ~".toList) (.leaf [])))
      (.leaf []))
    .and (.leaf " pwd".toList)

theorem surfaces_iff_nested :
    nestedCommand.WellFormed ∧
      (Surfaces nestedCommand ↔
        ∀ text ∈ nestedCommand.leaves, IsAscii text) := by
  have plain : ∀ text ∈ nestedCommand.leaves, PlainText text := by
    decide
  have formed : nestedCommand.WellFormed :=
    ⟨⟨plain _ (by decide), nofun, ⟨plain _ (by decide), ⟨plain _ (by decide),
      nofun, plain _ (by decide), plain _ (by decide)⟩⟩, plain _ (by decide)⟩,
      plain _ (by decide)⟩
  exact ⟨formed, surfaces_iff formed⟩

/-- A leaf outside ASCII comes back as the text of its bytes. -/
theorem wideLeaf_not_surfaces :
    (Command.leaf "ls é".toList).WellFormed ∧
      ¬ Surfaces (Command.leaf "ls é".toList) := by
  have plain : PlainText "ls é".toList := by decide
  refine ⟨plain, fun surfaces => ?_⟩
  have found := surfaces.1 "ls é".toList List.mem_cons_self (by decide)
  revert found
  decide

end TrustLayer.AgentGuard.Gate
