import Mathlib.Algebra.Group.Nat.Even
import TrustLayer.AgentGuard.Gate.Argument

/-!
# Nested substitutions

A command under any number of double-quoted substitutions of printing
commands.  The quotes of neighbouring layers pair up, so the splitter itself
opens every second substitution; the quoted-argument scan is left with at most
one layer.
-/

namespace TrustLayer.AgentGuard.Gate

open TrustLayer.Library

/-- `head "$(command)"`, once for every head, the first one outermost. -/
def nest : (heads : List Str) → (command : Str) → Str
  | [], command => command
  | head :: heads, command => quote head (substitution (nest heads command))

def opening (heads : List Str) : Str :=
  heads.flatMap fun head => head ++ [' ', '"', '$', '(']

def closing (heads : List Str) : Str :=
  heads.flatMap fun _ => [')', '"']

theorem nest_eq (heads : List Str) (command : Str) :
    nest heads command = opening heads ++ (command ++ closing heads) := by
  have shifted : ∀ heads : List Str, closing heads ++ [')', '"'] =
      [')', '"'] ++ closing heads := by
    intro heads
    induction heads with
    | nil => rfl
    | cons head heads induction =>
        simp only [closing, List.flatMap_cons, List.append_assoc] at induction ⊢
        rw [induction]
  induction heads with
  | nil => simp [nest, opening, closing]
  | cons head heads induction =>
      rw [nest, induction]
      have flipped := shifted heads
      simp only [opening, closing, List.flatMap_cons, List.append_assoc] at flipped ⊢
      simp [quote, substitution, flipped]

section

variable {heads : List Str} {command : Str}

theorem isAscii_opening (printing : ∀ head ∈ heads, PrintingHead head) :
    IsAscii (opening heads) := by
  intro char member
  obtain ⟨head, among, within⟩ := List.mem_flatMap.mp member
  rcases List.mem_append.mp within with inHead | inTail
  · exact (printing head among).ascii char inHead
  · exact (by decide : IsAscii [' ', '"', '$', '(']) char inTail

theorem isAscii_closing : IsAscii (closing heads) := by
  intro char member
  obtain ⟨-, -, within⟩ := List.mem_flatMap.mp member
  exact (by decide : IsAscii [')', '"']) char within

theorem isAscii_nest (printing : ∀ head ∈ heads, PrintingHead head)
    (ascii : IsAscii command) : IsAscii (nest heads command) := by
  simp [nest_eq, isAscii_opening printing, isAscii_closing, ascii]

theorem not_mem_opening (printing : ∀ head ∈ heads, PrintingHead head)
    {char : Char} (special : char ∈ ['\\', '\'', '`']) :
    char ∉ opening heads := by
  intro member
  obtain ⟨head, among, within⟩ := List.mem_flatMap.mp member
  rcases List.mem_append.mp within with inHead | inTail
  · exact (printing head among).plain char inHead
      ((by decide : ['\\', '\'', '`'] ⊆ '$' :: metacharacters) special)
  · exact (by decide : ∀ char ∈ ['\\', '\'', '`'], char ∉ [' ', '"', '$', '('])
      char special inTail

theorem not_mem_closing {char : Char} (other : char ∉ [')', '"']) :
    char ∉ closing heads := by
  intro member
  obtain ⟨-, -, within⟩ := List.mem_flatMap.mp member
  exact other within

/-! ## Normalization -/

theorem noSpan_nest (printing : ∀ head ∈ heads, PrintingHead head)
    (simple : SimpleCommand command) : NoSpan (nest heads command) := by
  have last : (opening heads).getLast? = some '$' → False := by
    rcases heads.eq_nil_or_concat with rfl | ⟨init, head, rfl⟩
    · simp [opening]
    · simp [opening]
  rw [nest_eq]
  refine noSpan_append ?_ (noSpan_append simple.noSpan ?_ ?_) ?_
  · exact noSpan_of_not_mem (not_mem_opening printing (by simp))
  · exact noSpan_of_not_mem (not_mem_closing (by decide))
  · intro _ quote
    exact not_mem_closing (by decide) (List.mem_of_mem_head? quote)
  · exact fun dollar => (last dollar).elim

/-- No substitution of the nest stands at the head of a leg: a quote comes
before it. -/
theorem walk_echo_opening (printing : ∀ head ∈ heads, PrintingHead head)
    (rest : Str) {state : RewriteState} (noSingle : state.inSingle = false) :
    ∃ next : RewriteState, next.out = state.out ++ opening heads ∧
      walk echoStep (opening heads ++ rest) 0 state =
        walk echoStep rest 0 next := by
  induction heads generalizing state with
  | nil => exact ⟨state, by simp [opening], rfl⟩
  | cons head heads induction =>
      obtain ⟨first, later⟩ := List.forall_mem_cons.mp printing
      have words := first.not_mem_words
        (by decide : ['`', '\'', '"', '('] ⊆ '$' :: metacharacters)
      let quoted : RewriteState :=
        { (state.pushAll (head ++ [' '])).pushAll ['"'] with
          inDouble := !state.inDouble }
      have ends : atLegHead quoted.out = false := by
        simp [quoted, RewriteState.pushAll, atLegHead]
      have held : ∀ rest, echoStep quoted '$' rest = (quoted.copy '$', 0) :=
        fun rest => echoStep_copy (.inr (.inl ends))
      have opened : ∀ rest, walk echoStep ('$' :: '(' :: rest) 0 quoted =
          walk echoStep rest 0 ((quoted.copy '$').copy '(') := by
        intro rest
        rw [walk_one (held _),
          walk_one (echoStep_rewrites.plain _ '(' _ (by decide)
            fun dollar => absurd dollar (by decide))]
      have copied : (quoted.copy '$').copy '(' = quoted.pushAll ['$', '('] := by
        rw [RewriteState.copy_of_plain (by decide),
          RewriteState.copy_of_plain (by decide), RewriteState.pushAll_pushAll]
        rfl
      have still : (quoted.pushAll ['$', '(']).inSingle = false := noSingle
      obtain ⟨next, output, reached⟩ := induction later still
      refine ⟨next, ?_, ?_⟩
      · rw [output]
        simp [quoted, opening, RewriteState.pushAll]
      · have unfolded : opening (head :: heads) ++ rest =
            (head ++ [' ']) ++ '"' :: '$' :: '(' :: (opening heads ++ rest) := by
          simp [opening]
        have unquoted : (state.pushAll (head ++ [' '])).inSingle = false :=
          noSingle
        rw [unfolded, echoStep_rewrites.walk_plain words (by simp),
          echoStep_rewrites.walk_quote unquoted]
        exact (opened _).trans (copied ▸ reached)

theorem scanInput_nest (printing : ∀ head ∈ heads, PrintingHead head)
    (simple : SimpleCommand command) :
    (scanInput (nest heads command) .default).command = nest heads command := by
  have inert : NoBody (command ++ closing heads) := by
    apply noBody_of_not_mem <;> simp only [List.mem_append, not_or]
    · exact ⟨simple.not_mem (by simp), not_mem_closing (by decide)⟩
    · exact ⟨simple.not_mem (by simp), not_mem_closing (by decide)⟩
  refine scanInput_eq_self (isAscii_nest printing simple.ascii) ?_ ?_ ?_
  · apply noContinuation_of_not_mem
    rw [nest_eq]
    simp only [List.mem_append, not_or]
    exact ⟨not_mem_opening printing (by simp), simple.not_mem (by simp),
      not_mem_closing (by decide)⟩
  · intro budget
    exact walk_ansiC_noSpan (noSpan_nest printing simple) _
  · intro budget
    obtain ⟨next, output, reached⟩ :=
      walk_echo_opening printing (command ++ closing heads)
        (rfl : (RewriteState.start budget).inSingle = false)
    rw [nest_eq, reached, walk_echo_noBody inert, output]
    rfl

/-! ## Legs -/

theorem parenDepth_nest (printing : ∀ head ∈ heads, PrintingHead head)
    (simple : SimpleCommand command) (depth : Nat) :
    parenDepth (depth + 1) (nest heads command) = some (depth + 1) := by
  induction heads generalizing depth with
  | nil => exact simple.parenDepth_eq _
  | cons head heads induction =>
      obtain ⟨first, later⟩ := List.forall_mem_cons.mp printing
      have bare := first.not_mem_words
        (by decide : ['\\', '(', ')'] ⊆ '$' :: metacharacters)
      have shape : nest (head :: heads) command = (head ++ [' ']) ++
          '"' :: '$' :: '(' :: (nest heads command ++ [')', '"']) := by
        simp [nest, quote, substitution]
      rw [shape, parenDepth_append (parenDepth_of_bare bare _),
        parenDepth_copy (by decide),
        parenDepth_copy (by decide), parenDepth_open,
        parenDepth_append (induction later _), parenDepth_close (by omega),
        parenDepth_copy (by decide)]
      rfl

/-- The leg that two layers leave behind. -/
def layerLeg (outer inner : Str) : Str :=
  outer ++ ' ' :: '"' :: '$' :: '(' :: (inner ++ [' ', '"'])

theorem splitCompound_nest_two {outer inner : Str}
    (printing : ∀ head ∈ outer :: inner :: heads, PrintingHead head)
    (simple : SimpleCommand command) :
    splitCompound (nest (outer :: inner :: heads) command) =
      layerLeg outer inner ::
        (splitCompound (nest heads command) ++ [['"', ')', '"']]) := by
  obtain ⟨outerPrints, innerPrinting⟩ := List.forall_mem_cons.mp printing
  obtain ⟨innerPrints, others⟩ := List.forall_mem_cons.mp innerPrinting
  have shape : nest (outer :: inner :: heads) command =
      outer ++ ' ' :: '"' :: (('$' :: '(' :: (inner ++ [' '])) ++
        '"' :: '$' :: '(' :: (nest heads command ++
          ')' :: '"' :: ([')'] ++ '"' :: []))) := by
    simp [nest, quote, substitution]
  have argument : ∀ char ∈ '$' :: '(' :: (inner ++ [' ']),
      char ≠ '"' ∧ char ≠ '\\' := by
    intro char member
    simp only [List.mem_cons, List.mem_append, List.not_mem_nil, or_false]
      at member
    rcases member with rfl | rfl | member | rfl
    · decide
    · decide
    · constructor <;> rintro rfl <;>
        exact innerPrints.not_mem (by simp [metacharacters]) member
    · decide
  have legTrim : trim (layerLeg outer inner) = layerLeg outer inner := by
    have trimmed :=
      outerPrints.trim_eq (' ' :: '"' :: '$' :: '(' :: (inner ++ [' ']))
    simpa [layerLeg] using trimmed
  rw [Gate.splitCompound_eq, asBytes_of_ascii (isAscii_nest printing simple.ascii),
    shape, outerPrints.walk ⟨rfl, rfl⟩, walk_quoted ⟨rfl, rfl⟩ argument,
    walk_substitution ⟨rfl, rfl⟩ (by simp) (parenDepth_nest others simple 0),
    walk_quoted ⟨rfl, rfl⟩ (by decide), walk_nil]
  have leg : outer ++ [' '] ++ '"' :: ('$' :: '(' :: (inner ++ [' ']) ++ ['"']) =
      layerLeg outer inner := by
    simp [layerLeg]
  have last : trim ['"', ')', '"'] = ['"', ')', '"'] := by decide
  have visible : (layerLeg outer inner).isEmpty = false := by
    simp [layerLeg]
  simp only [SplitState.pushLeg, SplitState.extend, SplitState.pushAll,
    SplitState.start, List.nil_append, leg, legTrim, visible]
  simp [last]

/-- One layer is a single leg, and its command is live. -/
theorem splitCompound_nest_one {head : Str} (printing : PrintingHead head)
    (simple : SimpleCommand command) :
    splitCompound (nest [head] command) = [nest [head] command] := by
  have bytes : asBytes (substitution command) = substitution command :=
    asBytes_of_ascii (by simp [substitution, simple.ascii])
  rw [nest, nest, printing.splitCompound_quote
    (bytes.symm ▸ simple.argument.substitution), bytes]

theorem liveSubstitutionBodies_nest_one {head : Str}
    (printing : PrintingHead head) (simple : SimpleCommand command) :
    liveSubstitutionBodies (nest [head] command) = [command] := by
  have single : nest [head] command =
      quote head ([command].flatMap substitution) := by
    simp [nest]
  rw [single]
  exact printing.liveSubstitutionBodies_quote (by simpa using simple.ascii)
    (by simpa using simple.parenDepth_eq 1)
    (by decide : 1 ≤ maxSubstBodies)

/-! ## The hidden leg -/

section

variable [Base64Engine]

/-- Some leg of the nest is rated for Block, and only printing legs come
before it.  Two layers at a time reduce the nest to its command or to a single
quoted layer around it. -/
private theorem nest_surfaces (simple : SimpleCommand command)
    (rated : RatedBlock command) :
    (heads : List Str) → (∀ head ∈ heads, PrintingHead head) →
    isNonExecutingVerb command = false ∨ Even heads.length →
    ∃ before leg after,
      splitCompound (nest heads command) = before ++ leg :: after ∧
      (∀ leg ∈ before, parseAssignment leg = none) ∧ IsAscii leg ∧
      ∃ hit, LegHit .default leg 0 hit ∧ 8 ≤ hit.severity
  | [], _, _ =>
      ⟨[], command, [], simple.splitCompound_eq, by simp, simple.ascii,
        rated.legHit .default 0⟩
  | [head], printing, executes => by
      have prints := printing head List.mem_cons_self
      have executing : isNonExecutingVerb command = false := by
        rcases executes with executing | even
        · exact executing
        · exact absurd even Nat.not_even_one
      obtain ⟨hit, bodyHit, severe⟩ :=
        BodyHit.of_ratedBlock simple rated executing 1
      refine ⟨[], _, [], splitCompound_nest_one prints simple, by simp,
        isAscii_nest printing simple.ascii, hit, ?_, severe⟩
      refine .live (by decide) ?_ bodyHit
      rw [liveSubstitutionBodies_nest_one prints simple]
      exact List.mem_singleton_self command
  | outer :: inner :: heads, printing, executes => by
      have others : ∀ head ∈ heads, PrintingHead head := fun head member =>
        printing head (List.mem_cons_of_mem _ (List.mem_cons_of_mem _ member))
      have parity : isNonExecutingVerb command = false ∨ Even heads.length :=
        executes.imp_right fun even => by
          simpa [Nat.even_add_one] using even
      obtain ⟨before, leg, after, split, unbound, ascii, blocks⟩ :=
        nest_surfaces simple rated heads others parity
      refine ⟨layerLeg outer inner :: before, leg, after ++ [['"', ')', '"']],
        ?_, ?_, ascii, blocks⟩
      · rw [splitCompound_nest_two printing simple, split]
        simp
      · refine List.forall_mem_cons.mpr ⟨?_, unbound⟩
        have prints := printing outer List.mem_cons_self
        exact parseAssignment_of_printing (prints.leg _)

/-- No number of layers hides a simple command that the taxonomy rates for
Block, unless it only prints and the layers are odd in number. -/
theorem evaluate_nest_block (heads : List Str) (command : Str)
    (printing : ∀ head ∈ heads, PrintingHead head)
    (simple : SimpleCommand command) (rated : RatedBlock command)
    (executes : isNonExecutingVerb command = false ∨ Even heads.length) :
    (evaluate (nest heads command) .default).tier = .block := by
  obtain ⟨before, leg, after, split, unbound, ascii, blocks⟩ :=
    nest_surfaces simple rated heads printing executes
  rw [← scanInput_nest printing simple] at split
  rw [← asBytes_of_ascii ascii] at blocks
  exact evaluate_block_of_leg split unbound blocks

end

end

theorem evaluate_nest_block_rm :
    (@evaluate .standard
      (nest ["echo".toList, "git commit -m".toList, "printf".toList]
        "rm -rf ~".toList) .default).tier = .block :=
  @evaluate_nest_block .standard
    ["echo".toList, "git commit -m".toList, "printf".toList] "rm -rf ~".toList
    (by
      simp only [List.forall_mem_cons, List.not_mem_nil, false_implies,
        implies_true, and_true]
      exact ⟨⟨by decide, by decide, by decide, by decide⟩,
        ⟨by decide, by decide, by decide, by decide⟩,
        ⟨by decide, by decide, by decide, by decide⟩⟩)
    (.of_words (by decide) (by decide) (by decide) (by decide))
    (by decide +kernel) (.inl (by decide))

/-- What a printing command is given may not run, so a leg that prints is not
rated in the body of a substitution. -/
theorem nest_one_hides_printing :
    (SimpleCommand "echo rm -rf ~".toList ∧ RatedBlock "echo rm -rf ~".toList ∧
      (@evaluate .standard (nest ["echo".toList] "echo rm -rf ~".toList)
        .default).tier = .allow) ∧
    (SimpleCommand "echo x > /dev/sda".toList ∧
      RatedBlock "echo x > /dev/sda".toList ∧
      (@evaluate .standard (nest ["echo".toList] "echo x > /dev/sda".toList)
        .default).tier = .allow) := by
  refine ⟨⟨?_, by decide +kernel, by decide +kernel⟩,
    ⟨?_, by decide +kernel, by decide +kernel⟩⟩
  · exact .of_words (by decide) (by decide) (by decide) (by decide)
  · exact .of_words (by decide) (by decide) (by decide) (by decide)

end TrustLayer.AgentGuard.Gate
