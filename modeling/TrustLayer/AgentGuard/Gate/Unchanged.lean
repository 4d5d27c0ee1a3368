import TrustLayer.AgentGuard.Gate.Simple

/-!
# Texts that normalization leaves alone

The two quote-tracking rewriters share one way to copy a byte.  A run that
holds no construct, or that stands between double quotes, is copied whole.
-/

namespace TrustLayer.AgentGuard.Gate

open TrustLayer.Library

theorem JoinState.foldl_push (state : JoinState) (text : Str) :
    text.foldl push state = { state with out := state.out ++ text } := by
  induction text generalizing state with
  | nil => simp
  | cons char text induction => simp [induction, push]

namespace RewriteState

/-- Track the quotes of a byte and emit it. -/
def copy (state : RewriteState) (byte : Char) : RewriteState :=
  (state.toggle byte).push byte

/-- Emit a text without looking at its quotes. -/
def pushAll (state : RewriteState) (text : Str) : RewriteState :=
  { state with out := state.out ++ text }

@[simp] theorem pushAll_nil (state : RewriteState) : state.pushAll [] = state := by
  simp [pushAll]

@[simp] theorem pushAll_pushAll (state : RewriteState) (first second : Str) :
    (state.pushAll first).pushAll second = state.pushAll (first ++ second) := by
  simp [pushAll]

theorem copy_out (state : RewriteState) (byte : Char) :
    (state.copy byte).out = state.out ++ [byte] := by
  unfold copy toggle push
  split_ifs <;> rfl

theorem foldl_copy_out (state : RewriteState) (text : Str) :
    (text.foldl copy state).out = state.out ++ text := by
  induction text generalizing state with
  | nil => simp
  | cons char text induction => simp [induction, copy_out]

theorem foldl_pushAll (state : RewriteState) (text : Str) :
    text.foldl (fun state byte => state.pushAll [byte]) state =
      state.pushAll text := by
  induction text generalizing state with
  | nil => simp
  | cons char text induction => simp [induction]

theorem copy_of_plain {state : RewriteState} {byte : Char}
    (plain : byte ≠ '\'' ∧ byte ≠ '"') : state.copy byte = state.pushAll [byte] := by
  simp [copy, toggle, push, pushAll, plain]

theorem copy_of_inDouble {state : RewriteState} {byte : Char}
    (quoted : state.inDouble = true) (plain : byte ≠ '"') :
    state.copy byte = state.pushAll [byte] := by
  simp [copy, toggle, push, pushAll, plain, quoted]

end RewriteState

theorem ansiCStep_copy {state : RewriteState} {byte : Char} {rest : List Char}
    (held : byte = '$' → rest.head? = some '\'' → state.inDouble = true) :
    ansiCStep state byte rest = (state.copy byte, 0) := by
  unfold ansiCStep
  rw [if_neg]
  · rfl
  · rintro ⟨dollar, quote, -, noDouble⟩
    simp [held dollar quote] at noDouble

theorem spliceCandidate_eq_none {byte : Char} {rest : List Char}
    (noOpen : byte = '$' → rest.head? ≠ some '(') (noTick : byte ≠ '`') :
    spliceCandidate byte rest = none := by
  unfold spliceCandidate
  rw [if_neg (fun opens => noOpen opens.1 opens.2), if_neg noTick]

theorem echoStep_copy {state : RewriteState} {byte : Char} {rest : List Char}
    (held : state.inDouble = true ∨ atLegHead state.out = false ∨
      spliceCandidate byte rest = none) :
    echoStep state byte rest = (state.copy byte, 0) := by
  unfold echoStep
  rcases held with quoted | inside | absent
  · rw [if_neg (by simp [quoted])]
    rfl
  · rw [if_neg (by simp [inside])]
    rfl
  · rw [absent]
    split_ifs <;> rfl

/-! ## Runs of either rewriter -/

/-- What the two rewriters have in common. -/
structure Rewrites (step : RewriteState → Char → List Char →
    RewriteState × Nat) : Prop where
  inDouble : ∀ state byte rest, state.inDouble = true →
    step state byte rest = (state.copy byte, 0)
  plain : ∀ state byte rest, byte ≠ '`' →
    (byte = '$' → rest.head? ≠ some '(' ∧ rest.head? ≠ some '\'') →
    step state byte rest = (state.copy byte, 0)

theorem ansiCStep_rewrites : Rewrites ansiCStep where
  inDouble _ _ _ quoted := ansiCStep_copy fun _ _ => quoted
  plain _ _ _ _ noOpen := ansiCStep_copy fun dollar quote =>
    absurd quote (noOpen dollar).2

theorem echoStep_rewrites : Rewrites echoStep where
  inDouble _ _ _ quoted := echoStep_copy (.inl quoted)
  plain _ _ _ noTick noOpen := echoStep_copy (.inr (.inr
    (spliceCandidate_eq_none (fun dollar => (noOpen dollar).1) noTick)))

namespace Rewrites

variable {step : RewriteState → Char → List Char → RewriteState × Nat}
  {state : RewriteState} {text : Str}

theorem walk_inDouble (rewrites : Rewrites step)
    (quoted : state.inDouble = true) (plain : '"' ∉ text) (rest : Str) :
    walk step (text ++ rest) 0 state = walk step rest 0 (state.pushAll text) := by
  induction text generalizing state with
  | nil => simp
  | cons char text induction =>
      obtain ⟨head, tail⟩ := not_or.mp (mt List.mem_cons.mpr plain)
      have copied : state.copy char = state.pushAll [char] :=
        RewriteState.copy_of_inDouble quoted (Ne.symm head)
      have still : (state.pushAll [char]).inDouble = true := quoted
      rw [List.cons_append, walk_one (rewrites.inDouble state char _ quoted),
        copied, induction still tail, RewriteState.pushAll_pushAll]
      rfl

theorem walk_plain (rewrites : Rewrites step)
    (plain : ∀ char ∈ text, char ∉ ['`', '\'', '"', '(']) {rest : Str}
    (closed : ∀ char ∈ rest.head?, char ∉ ['(', '\'']) :
    walk step (text ++ rest) 0 state = walk step rest 0 (state.pushAll text) := by
  induction text generalizing state with
  | nil => simp
  | cons char text induction =>
      obtain ⟨head, tail⟩ := List.forall_mem_cons.mp plain
      simp only [List.mem_cons, List.not_mem_nil, or_false, not_or] at head
      have noOpen : (text ++ rest).head? ≠ some '(' ∧
          (text ++ rest).head? ≠ some '\'' := by
        cases text with
        | nil =>
            constructor <;> intro opens <;>
              exact closed _ opens (by decide)
        | cons next text =>
            have inert := tail next List.mem_cons_self
            constructor <;> intro opens <;> obtain rfl := Option.some.inj opens <;>
              exact inert (by decide)
      rw [List.cons_append, walk_one (rewrites.plain state char _ head.1
          fun _ => noOpen),
        RewriteState.copy_of_plain ⟨head.2.1, head.2.2.1⟩, induction tail,
        RewriteState.pushAll_pushAll]
      rfl

theorem walk_quote (rewrites : Rewrites step) (noSingle : state.inSingle = false)
    (rest : Str) :
    walk step ('"' :: rest) 0 state =
      walk step rest 0 { state.pushAll ['"'] with inDouble := !state.inDouble } := by
  rw [walk_one (rewrites.plain state '"' rest (by decide)
    (fun dollar => absurd dollar (by decide)))]
  simp [RewriteState.copy, RewriteState.toggle, RewriteState.push,
    RewriteState.pushAll, noSingle]

end Rewrites

/-! ## Texts without constructs -/

/-- No substitution opens in the text. -/
def NoBody (text : Str) : Prop :=
  '`' ∉ text ∧ text.IsChain fun first second => ¬ (first = '$' ∧ second = '(')

theorem noBody_of_not_mem {text : Str} (noTick : '`' ∉ text)
    (noOpen : '(' ∉ text) : NoBody text := by
  refine ⟨noTick, ?_⟩
  induction text with
  | nil => exact .nil
  | cons char text induction =>
      have tail := induction (fun member => noTick (List.mem_cons_of_mem _ member))
        (fun member => noOpen (List.mem_cons_of_mem _ member))
      refine List.isChain_cons.mpr ⟨?_, tail⟩
      rintro next first ⟨-, rfl⟩
      exact noOpen (List.mem_cons_of_mem _ (List.mem_of_mem_head? first))

theorem walk_ansiC_noSpan {text : Str} (noSpan : NoSpan text)
    (state : RewriteState) :
    (walk ansiCStep text 0 state).out = state.out ++ text := by
  have copied : ∀ state byte rest, (byte :: rest) <:+ text →
      ansiCStep state byte rest = (state.copy byte, 0) := by
    intro state byte rest suffix
    apply ansiCStep_copy
    intro dollar quote
    exact absurd ⟨dollar, rfl⟩
      ((List.isChain_cons.mp (noSpan.suffix suffix)).1 '\'' quote)
  rw [walk_foldl copied, RewriteState.foldl_copy_out]

theorem walk_echo_noBody {text : Str} (noBody : NoBody text)
    (state : RewriteState) :
    (walk echoStep text 0 state).out = state.out ++ text := by
  have copied : ∀ state byte rest, (byte :: rest) <:+ text →
      echoStep state byte rest = (state.copy byte, 0) := by
    intro state byte rest suffix
    refine echoStep_copy (.inr (.inr (spliceCandidate_eq_none ?_ ?_)))
    · intro dollar opens
      exact (List.isChain_cons.mp (noBody.2.suffix suffix)).1 '(' opens
        ⟨dollar, rfl⟩
    · rintro rfl
      exact noBody.1 (suffix.subset List.mem_cons_self)
  rw [walk_foldl copied, RewriteState.foldl_copy_out]

/-! ## Passes that change nothing -/

/-- No backslash comes before a line end. -/
def NoContinuation (text : Str) : Prop :=
  text.IsChain fun first second => first = '\\' → second ∉ ['\n', '\r']

instance (text : Str) : Decidable (NoContinuation text) :=
  inferInstanceAs (Decidable (text.IsChain _))

theorem noContinuation_of_not_mem {text : Str} (noEscape : '\\' ∉ text) :
    NoContinuation text := by
  induction text with
  | nil => exact .nil
  | cons char text induction =>
      obtain ⟨head, tail⟩ := not_or.mp (mt List.mem_cons.mpr noEscape)
      refine List.isChain_cons.mpr ⟨?_, induction tail⟩
      rintro next - rfl
      exact absurd rfl head

theorem joinLineContinuations_of_not_mem {text : Str} (noEscape : '\\' ∉ text)
    (budget : Budget) : joinLineContinuations text budget = (text, budget) := by
  rw [joinLineContinuations, if_pos noEscape]

theorem walk_join {text : Str} (unbroken : NoContinuation text)
    (state : JoinState) :
    walk joinStep text 0 state = { state with out := state.out ++ text } := by
  have copied : ∀ state byte rest, (byte :: rest) <:+ text →
      joinStep state byte rest = (state.push byte, 0) := by
    intro state byte rest suffix
    have next := (List.isChain_cons.mp (unbroken.suffix suffix)).1
    unfold joinStep
    rw [if_neg, if_neg]
    · rintro ⟨escape, first, -⟩
      exact next _ first escape (by decide)
    · rintro ⟨escape, first⟩
      exact next _ first escape (by decide)
  rw [walk_foldl copied, JoinState.foldl_push]

theorem joinLineContinuations_eq_self {text : Str} (ascii : IsAscii text)
    (unbroken : NoContinuation text) (budget : Budget) :
    joinLineContinuations text budget = (text, budget) := by
  by_cases escapes : '\\' ∈ text
  · rw [joinLineContinuations, if_neg (not_not.mpr escapes)]
    simp only [asBytes_of_ascii ascii, walk_join unbroken, List.nil_append]
  · exact joinLineContinuations_of_not_mem escapes budget

theorem decodeAnsiC_eq_self {text : Str} (ascii : IsAscii text)
    (copied : ∀ budget, (walk ansiCStep text 0 (.start budget)).out = text)
    (budget : Budget) : (decodeAnsiC text budget).1 = text := by
  rw [decodeAnsiC]
  split_ifs
  · rfl
  · simp only [asBytes_of_ascii ascii, copied]

theorem spliceEchoSubstitution_eq_self {text : Str} (ascii : IsAscii text)
    (copied : ∀ budget, (walk echoStep text 0 (.start budget)).out = text)
    (budget : Budget) : (spliceEchoSubstitution text budget).1 = text := by
  rw [spliceEchoSubstitution]
  split_ifs
  · rfl
  · simp only [asBytes_of_ascii ascii, copied]

/-- The gate scans the command as it stands. -/
theorem scanInput_eq_self {command : Str} (ascii : IsAscii command)
    (unbroken : NoContinuation command)
    (decoded : ∀ budget, (walk ansiCStep command 0 (.start budget)).out = command)
    (spliced : ∀ budget, (walk echoStep command 0 (.start budget)).out = command) :
    (scanInput command .default).command = command := by
  have normalized : (normalizeCommand command).command = command := by
    rw [normalizeCommand]
    split_ifs
    · rfl
    · simp only [joinLineContinuations_eq_self ascii unbroken,
        decodeAnsiC_eq_self ascii decoded,
        spliceEchoSubstitution_eq_self ascii spliced]
  exact normalized

end TrustLayer.AgentGuard.Gate
