import Mathlib.Data.List.Chain
import TrustLayer.AgentGuard.Gate.Evaluate
import TrustLayer.AgentGuard.Gate.Split

/-!
# Simple commands

A simple command is a run of words and quoted arguments that the splitter
reads as one leg, both outside quotes and inside a double-quoted argument.
-/

namespace TrustLayer.AgentGuard.Gate

open TrustLayer.Library

/-- A part of a simple command. -/
inductive Piece where
  | word (text : Str)
  | single (text : Str)
  | double (text : Str)
  deriving DecidableEq

namespace Piece

def render : Piece → Str
  | word text => text
  | single text => '\'' :: (text ++ ['\''])
  | double text => '"' :: (text ++ ['"'])

/-- Separators stand only between single quotes, and nothing is escaped or
grouped. -/
def Plain : Piece → Prop
  | word text => ∀ char ∈ text, char ∉ metacharacters
  | single text => ∀ char ∈ text, char ∉ ['\'', '"', '\\', '`', '(', ')']
  | double text => ∀ char ∈ text, char ∉ metacharacters

instance : DecidablePred Plain
  | word text =>
      inferInstanceAs (Decidable (∀ char ∈ text, char ∉ metacharacters))
  | single text =>
      inferInstanceAs
        (Decidable (∀ char ∈ text, char ∉ ['\'', '"', '\\', '`', '(', ')']))
  | double text =>
      inferInstanceAs (Decidable (∀ char ∈ text, char ∉ metacharacters))

theorem not_mem_render {piece : Piece} (plain : piece.Plain) {char : Char}
    (special : char ∈ ['\\', '`', '(', ')']) : char ∉ piece.render := by
  intro member
  have special' : char ∈ metacharacters :=
    (by decide : ['\\', '`', '(', ')'] ⊆ metacharacters) special
  have quoted : char ∈ ['\'', '"', '\\', '`', '(', ')'] :=
    (by decide : ['\\', '`', '(', ')'] ⊆ ['\'', '"', '\\', '`', '(', ')'])
      special
  cases piece with
  | word text => exact plain char member special'
  | single text =>
      simp only [render, List.mem_cons, List.mem_append, List.not_mem_nil,
        or_false] at member
      rcases member with rfl | member | rfl
      · exact absurd special (by decide)
      · exact plain char member quoted
      · exact absurd special (by decide)
  | double text =>
      simp only [render, List.mem_cons, List.mem_append, List.not_mem_nil,
        or_false] at member
      rcases member with rfl | member | rfl
      · exact absurd special (by decide)
      · exact plain char member special'
      · exact absurd special (by decide)

end Piece

/-- No `$'` occurs in the text. -/
def NoSpan (text : Str) : Prop :=
  text.IsChain fun first second => ¬ (first = '$' ∧ second = '\'')

instance (text : Str) : Decidable (NoSpan text) :=
  inferInstanceAs (Decidable (text.IsChain _))

theorem noSpan_append {left right : Str} (leftFree : NoSpan left)
    (rightFree : NoSpan right)
    (joint : left.getLast? = some '$' → right.head? ≠ some '\'') :
    NoSpan (left ++ right) := by
  refine List.isChain_append.mpr ⟨leftFree, rightFree, ?_⟩
  rintro last lastEq first firstEq ⟨rfl, rfl⟩
  exact joint lastEq firstEq

theorem noSpan_of_not_mem {text : Str} (noQuote : '\'' ∉ text) : NoSpan text := by
  induction text with
  | nil => exact .nil
  | cons char text induction =>
      have tail := induction fun member => noQuote (List.mem_cons_of_mem _ member)
      refine List.isChain_cons.mpr ⟨?_, tail⟩
      rintro next first ⟨-, rfl⟩
      exact noQuote (List.mem_cons_of_mem _ (List.mem_of_mem_head? first))

structure SimpleCommand (command : Str) : Prop where
  ascii : IsAscii command
  nonempty : command ≠ []
  trimmed : trim command = command
  noSpan : NoSpan command
  pieces : ∃ pieces : List Piece,
    (∀ piece ∈ pieces, piece.Plain) ∧ pieces.flatMap Piece.render = command

/-- The built-in taxonomy rates the command as a leg for Block. -/
def RatedBlock (command : Str) : Prop :=
  ∃ rule ∈ rules,
    8 ≤ rule.severity ∧ rule.matcher (effectiveMatchText command) = true

instance (command : Str) : Decidable (RatedBlock command) :=
  inferInstanceAs (Decidable (∃ rule ∈ rules,
    8 ≤ rule.severity ∧ rule.matcher (effectiveMatchText command) = true))

/-- Words alone make a simple command. -/
theorem SimpleCommand.of_words {command : Str} (ascii : IsAscii command)
    (nonempty : command ≠ []) (trimmed : trim command = command)
    (plain : ∀ char ∈ command, char ∉ metacharacters) : SimpleCommand command where
  ascii := ascii
  nonempty := nonempty
  trimmed := trimmed
  noSpan := noSpan_of_not_mem fun member => plain _ member (by decide)
  pieces := by
    refine ⟨[.word command], ?_, by simp [Piece.render]⟩
    simpa [Piece.Plain] using plain

/-! ## One leg -/

section

variable {split : Str → List Str} {state : SplitState}

theorem walk_plain {text rest : Str} (outside : state.Outside)
    (plain : ∀ char ∈ text, char ∉ metacharacters)
    (noOpen : rest.head? ≠ some '(') :
    walk (splitStep split []) (text ++ rest) 0 state =
      walk (splitStep split []) rest 0 (state.pushAll text) := by
  induction text generalizing state with
  | nil => simp
  | cons char text induction =>
      obtain ⟨head, tail⟩ := List.forall_mem_cons.mp plain
      have closed : (text ++ rest).head? ≠ some '(' := by
        cases text with
        | nil => exact noOpen
        | cons next text =>
            have inert := tail next List.mem_cons_self
            intro opens
            simp at opens
            simp [opens, metacharacters] at inert
      have step := @splitStep_copy split state char (text ++ rest) outside head
        fun _ => closed
      have pushed : (state.push char).Outside := outside
      rw [List.cons_append, walk_one step, induction pushed tail,
        SplitState.push_pushAll]

theorem walk_single {text : Str} (quoted : state.inSingle = true)
    (plain : '\'' ∉ text) (noDouble : state.inDouble = false) (rest : Str) :
    walk (splitStep split []) (text ++ rest) 0 state =
      walk (splitStep split []) rest 0 (state.pushAll text) := by
  have copied : ∀ state : SplitState,
      state.inSingle = true ∧ state.inDouble = false →
      ∀ char ∈ text, ∀ rest,
        splitStep split [] state char rest = (state.push char, 0) ∧
          ((state.push char).inSingle = true ∧
            (state.push char).inDouble = false) := by
    intro state holds char member rest
    have other : char ≠ '\'' := fun same => plain (same ▸ member)
    refine ⟨?_, holds⟩
    simp [splitStep, holds.1, holds.2, other]
  have run := walk_run _ _ copied rest ⟨quoted, noDouble⟩
  rw [run.1, SplitState.foldl_push]

theorem walk_toggleSingle (noDouble : state.inDouble = false) (rest : Str) :
    walk (splitStep split []) ('\'' :: rest) 0 state =
      walk (splitStep split []) rest 0
        { state.push '\'' with inSingle := !state.inSingle } := by
  apply walk_one
  simp [splitStep, noDouble]

/-- Outside single quotes the splitter copies a plain piece. -/
theorem walk_piece {piece : Piece} {rest : Str} (plain : piece.Plain)
    (noSingle : state.inSingle = false) (noOpen : rest.head? ≠ some '(') :
    walk (splitStep split []) (piece.render ++ rest) 0 state =
      walk (splitStep split []) rest 0 (state.pushAll piece.render) := by
  obtain ⟨result, current, inDouble, inSingle⟩ := state
  obtain rfl : inSingle = false := noSingle
  cases piece with
  | word text =>
      cases inDouble with
      | false => exact walk_plain ⟨rfl, rfl⟩ plain noOpen
      | true =>
          refine walk_double ⟨rfl, rfl⟩ (fun char member => ?_) rest
          have inert := plain char member
          simp only [metacharacters, List.mem_cons, not_or] at inert
          exact ⟨inert.2.1, inert.1⟩
  | single text =>
      cases inDouble with
      | false =>
          simp only [Piece.render, List.cons_append, List.append_assoc,
            List.nil_append]
          rw [walk_toggleSingle rfl, walk_single rfl
              (fun member => plain _ member (by simp)) rfl,
            walk_toggleSingle rfl]
          simp [SplitState.pushAll, SplitState.push]
      | true =>
          refine walk_double ⟨rfl, rfl⟩ (fun char member => ?_) rest
          simp only [Piece.render, List.mem_cons, List.mem_append,
            List.not_mem_nil, or_false] at member
          rcases member with rfl | member | rfl
          · decide
          · have inert := plain char member
            simp only [List.mem_cons, not_or] at inert
            exact ⟨inert.2.1, inert.2.2.1⟩
          · decide
  | double text =>
      have inert : ∀ char ∈ text, char ≠ '"' ∧ char ≠ '\\' := by
        intro char member
        have inert := plain char member
        simp only [metacharacters, List.mem_cons, not_or] at inert
        exact ⟨inert.2.1, inert.1⟩
      simp only [Piece.render, List.cons_append, List.append_assoc,
        List.nil_append]
      cases inDouble with
      | false =>
          rw [walk_openDouble ⟨rfl, rfl⟩, walk_double ⟨rfl, rfl⟩ inert,
            walk_closeDouble ⟨rfl, rfl⟩]
          simp [SplitState.pushAll, SplitState.push]
      | true =>
          rw [walk_closeDouble ⟨rfl, rfl⟩,
            walk_plain ⟨rfl, rfl⟩ plain (by simp), walk_openDouble ⟨rfl, rfl⟩]
          simp [SplitState.pushAll, SplitState.push]

theorem walk_pieces {pieces : List Piece} {rest : Str}
    (plain : ∀ piece ∈ pieces, piece.Plain)
    (noSingle : state.inSingle = false) (noOpen : rest.head? ≠ some '(') :
    walk (splitStep split []) (pieces.flatMap Piece.render ++ rest) 0 state =
      walk (splitStep split []) rest 0
        (state.pushAll (pieces.flatMap Piece.render)) := by
  induction pieces generalizing state with
  | nil => simp
  | cons piece pieces induction =>
      obtain ⟨head, tail⟩ := List.forall_mem_cons.mp plain
      have closed : (pieces.flatMap Piece.render ++ rest).head? ≠ some '(' := by
        intro opens
        obtain ⟨after, split⟩ := List.head?_eq_some_iff.mp opens
        cases empty : pieces.flatMap Piece.render with
        | nil => simp [empty, noOpen] at opens
        | cons char text =>
            obtain rfl : char = '(' := by simpa [empty] using opens
            have member : '(' ∈ pieces.flatMap Piece.render := by simp [empty]
            obtain ⟨piece, among, within⟩ := List.mem_flatMap.mp member
            exact Piece.not_mem_render (tail piece among) (by simp) within
      have pushed : (state.pushAll piece.render).inSingle = false := noSingle
      rw [List.flatMap_cons, List.append_assoc, walk_piece head noSingle closed,
        induction tail pushed, SplitState.pushAll_pushAll]

end

namespace SimpleCommand

variable {command : Str}

theorem not_mem (simple : SimpleCommand command) {char : Char}
    (special : char ∈ ['\\', '`', '(', ')']) : char ∉ command := by
  obtain ⟨pieces, plain, rfl⟩ := simple.pieces
  intro member
  obtain ⟨piece, among, within⟩ := List.mem_flatMap.mp member
  exact Piece.not_mem_render (plain piece among) special within

/-- Outside single quotes the splitter copies a simple command. -/
theorem walk (simple : SimpleCommand command) {split : Str → List Str}
    {state : SplitState} {rest : Str} (noSingle : state.inSingle = false)
    (noOpen : rest.head? ≠ some '(') :
    Library.walk (splitStep split []) (command ++ rest) 0 state =
      Library.walk (splitStep split []) rest 0 (state.pushAll command) := by
  obtain ⟨pieces, plain, rfl⟩ := simple.pieces
  exact walk_pieces plain noSingle noOpen

theorem splitCompound_eq (simple : SimpleCommand command) :
    splitCompound command = [command] := by
  have read := @walk _ simple splitCompound .start [] rfl (by simp)
  rw [List.append_nil] at read
  rw [Gate.splitCompound_eq, asBytes_of_ascii simple.ascii, read]
  simp [SplitState.pushLeg, SplitState.pushAll, SplitState.start,
    simple.trimmed, simple.nonempty]

theorem parenDepth_eq (simple : SimpleCommand command) (depth : Nat) :
    parenDepth depth command = some depth := by
  apply parenDepth_of_bare
  intro char member special
  refine simple.not_mem ?_ member
  simp only [List.mem_cons, List.not_mem_nil, or_false] at special ⊢
  rcases special with rfl | rfl | rfl <;> simp

end SimpleCommand

end TrustLayer.AgentGuard.Gate
