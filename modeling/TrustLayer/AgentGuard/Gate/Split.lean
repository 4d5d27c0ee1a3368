import TrustLayer.AgentGuard.Gate.Compound

/-!
# Equations of the splitter

The bound on the nesting never cuts a command short, and runs of characters
that mean nothing to the walker are copied to the leg being read.
-/

namespace TrustLayer.AgentGuard.Gate

open TrustLayer.Library

/-! ## The nesting bound -/

/-- The characters that open a substitution. -/
def openers (text : Str) : Nat :=
  text.countP fun char => char == '(' || char == '`'

@[simp] theorem openers_cons (char : Char) (text : Str) :
    openers (char :: text) =
      openers text + if char = '(' ∨ char = '`' then 1 else 0 := by
  simp [openers, List.countP_cons]

@[simp] theorem openers_append (left right : Str) :
    openers (left ++ right) = openers left + openers right := by
  simp [openers]

theorem openers_le_length (text : Str) : openers text ≤ text.length :=
  List.countP_le_length

theorem openers_asBytes (text : Str) : openers (asBytes text) = openers text := by
  induction text with
  | nil => rfl
  | cons char text induction =>
      rw [asBytes_cons, openers_append, induction, openers_cons, Nat.add_comm]
      congr 1
      by_cases ascii : char.toNat < 128
      · simp [asBytes_singleton_of_ascii ascii, openers]
      · have inert : ∀ other : Char, 128 ≤ other.toNat →
            ¬ (other = '(' ∨ other = '`') := by
          rintro other large (rfl | rfl) <;> simp at large
        rw [if_neg (inert char (by omega)), openers, List.countP_eq_zero]
        intro byte member
        have large : 128 ≤ byte.toNat := by
          rcases mem_asBytes_singleton member with ⟨-, small⟩ | ⟨-, large⟩
          · omega
          · exact large
        simpa using inert byte large

theorem openers_le_of_front {text longer : Str} (front : text <+: longer) :
    openers text ≤ openers longer :=
  front.sublist.countP_le

theorem openers_le_of_suffix {text longer : Str} (back : text <:+ longer) :
    openers text ≤ openers longer :=
  back.sublist.countP_le

theorem extractParenBody_front (bytes : List Char) (depth : Nat) :
    (extractParenBody bytes depth).1 <+: bytes := by
  fun_induction extractParenBody bytes depth <;> simp_all

theorem extractBacktickBody_front (bytes : List Char) :
    (extractBacktickBody bytes).1 <+: bytes := by
  fun_induction extractBacktickBody bytes <;> simp_all

/-- The body of a substitution lacks the character that opens it. -/
theorem openers_parenBody_lt {byte : Char} {rest : List Char}
    (opens : rest.head? = some '(') :
    openers (extractParenBody rest.tail 1).1 < openers (byte :: rest) := by
  obtain ⟨tail, rfl⟩ := List.head?_eq_some_iff.mp opens
  have fewer := openers_le_of_front (extractParenBody_front tail 1)
  rw [List.tail_cons, openers_cons, openers_cons, if_pos (.inl rfl)]
  omega

theorem openers_backtickBody_lt (rest : List Char) :
    openers (extractBacktickBody rest).1 < openers ('`' :: rest) := by
  have fewer := openers_le_of_front (extractBacktickBody_front rest)
  rw [openers_cons, if_pos (.inr rfl)]
  omega

/-- A step looks at the recursive calls only on bodies with fewer openers. -/
theorem splitStep_congr {split other : Str → List Str} {byte : Char}
    {rest : List Char}
    (agree : ∀ inner, openers inner < openers (byte :: rest) →
      split inner = other inner)
    (extraSeps : List Char) (state : SplitState) :
    splitStep split extraSeps state byte rest =
      splitStep other extraSeps state byte rest := by
  unfold splitStep
  refine if_congr Iff.rfl rfl (if_congr Iff.rfl rfl (if_congr Iff.rfl rfl
    (if_congr Iff.rfl ?_ rfl)))
  by_cases opens : (byte = '$' ∨ byte = '<' ∨ byte = '>') ∧ rest.head? = some '('
  · rw [if_pos opens, if_pos opens]
    exact congrArg (fun legs => (state.pushLeg.extend legs, _))
      (agree _ (openers_parenBody_lt opens.2))
  · rw [if_neg opens, if_neg opens]
    by_cases tick : byte = '`'
    · subst tick
      rw [if_pos rfl, if_pos rfl]
      exact congrArg (fun legs => (state.pushLeg.extend legs, _))
        (agree _ (openers_backtickBody_lt rest))
    · rw [if_neg tick, if_neg tick]

theorem splitNested_congr {fewer more : Nat} {command : Str}
    (enough : openers command < fewer) (le : fewer ≤ more) :
    splitNested fewer command = splitNested more command := by
  induction fewer generalizing more command with
  | zero => omega
  | succ fewer induction =>
      obtain ⟨more, rfl⟩ : ∃ smaller, more = smaller + 1 :=
        ⟨more - 1, by omega⟩
      rw [splitNested, splitNested]
      congr 2
      apply walk_congr
      intro state byte rest suffix
      apply splitStep_congr
      intro inner smaller
      apply induction _ (by omega)
      have := openers_le_of_suffix suffix
      rw [openers_asBytes] at this
      omega

/-- The recursive equation of `split_compound`. -/
theorem splitCompound_eq (command : Str) :
    splitCompound command =
      (walk (splitStep splitCompound []) (asBytes command) 0
        .start).pushLeg.result := by
  rw [splitCompound, splitNested]
  congr 2
  apply walk_congr
  intro state byte rest suffix
  apply splitStep_congr
  intro inner smaller
  have below := openers_le_of_suffix suffix
  rw [openers_asBytes] at below
  have bound := openers_le_length command
  have := openers_le_length inner
  rw [splitCompound]
  rcases Nat.le_total command.length (inner.length + 1) with le | le
  · exact splitNested_congr (by omega) le
  · exact (splitNested_congr (by omega) le).symm

/-! ## Runs -/

namespace SplitState

/-- Push a text onto the leg being read. -/
def pushAll (state : SplitState) (text : Str) : SplitState :=
  { state with current := state.current ++ text }

@[simp] theorem pushAll_nil (state : SplitState) : state.pushAll [] = state := by
  simp [pushAll]

@[simp] theorem push_pushAll (state : SplitState) (char : Char) (text : Str) :
    (state.push char).pushAll text = state.pushAll (char :: text) := by
  simp [pushAll, push]

@[simp] theorem pushAll_pushAll (state : SplitState) (first second : Str) :
    (state.pushAll first).pushAll second = state.pushAll (first ++ second) := by
  simp [pushAll]

theorem foldl_push (state : SplitState) (text : Str) :
    text.foldl push state = state.pushAll text := by
  induction text generalizing state with
  | nil => simp
  | cons char text induction => rw [List.foldl_cons, induction, push_pushAll]

/-- No quote is open. -/
def Outside (state : SplitState) : Prop :=
  state.inDouble = false ∧ state.inSingle = false

/-- A double quote is open. -/
def InDouble (state : SplitState) : Prop :=
  state.inDouble = true ∧ state.inSingle = false

end SplitState

/-- The characters that always mean something outside quotes. -/
def metacharacters : List Char :=
  ['\\', '"', '\'', '`', ';', '|', '&', '\n', '(', ')']

section

variable {split : Str → List Str} {state : SplitState}

theorem splitStep_copy {byte : Char} {rest : List Char}
    (outside : state.Outside) (plain : byte ∉ metacharacters)
    (closed : byte ∈ ['$', '<', '>'] → rest.head? ≠ some '(') :
    splitStep split [] state byte rest = (state.push byte, 0) := by
  obtain ⟨noDouble, noSingle⟩ := outside
  simp only [metacharacters, List.mem_cons, List.not_mem_nil, or_false,
    not_or] at plain closed
  simp only [splitStep, plain, noDouble, noSingle, and_false, false_and,
    if_false, and_self, if_true, or_self, List.not_mem_nil]
  rw [if_neg]
  exact fun opens => closed opens.1 opens.2

theorem splitStep_separator {byte : Char} {rest : List Char}
    (outside : state.Outside) (separator : byte ∈ [';', '|', '&', '\n', '(', ')'])
    (single : ¬ ((byte = '&' ∧ rest.head? = some '&') ∨
      (byte = '|' ∧ rest.head? = some '|'))) :
    splitStep split [] state byte rest = (state.pushLeg, 0) := by
  obtain ⟨noDouble, noSingle⟩ := outside
  simp only [List.mem_cons, List.not_mem_nil, or_false] at separator
  rcases separator with rfl | rfl | rfl | rfl | rfl | rfl <;>
    simp_all [splitStep]

theorem splitStep_double {byte : Char} {rest : List Char}
    (quoted : state.InDouble) (plain : byte ≠ '"' ∧ byte ≠ '\\') :
    splitStep split [] state byte rest = (state.push byte, 0) := by
  obtain ⟨inDouble, noSingle⟩ := quoted
  simp [splitStep, inDouble, noSingle, plain]

/-- Between double quotes everything but a quote or an escape is copied. -/
theorem walk_double {text : Str} (quoted : state.InDouble)
    (plain : ∀ char ∈ text, char ≠ '"' ∧ char ≠ '\\') (rest : Str) :
    walk (splitStep split []) (text ++ rest) 0 state =
      walk (splitStep split []) rest 0 (state.pushAll text) := by
  have run := walk_run SplitState.InDouble SplitState.push
    (fun state holds item member rest =>
      ⟨@splitStep_double split state item rest holds (plain item member), holds⟩)
    rest quoted
  rw [run.1, SplitState.foldl_push]

theorem walk_openDouble (outside : state.Outside) (rest : Str) :
    walk (splitStep split []) ('"' :: rest) 0 state =
      walk (splitStep split []) rest 0
        { state.push '"' with inDouble := true } := by
  obtain ⟨noDouble, noSingle⟩ := outside
  apply walk_one
  simp [splitStep, noDouble, noSingle]

theorem walk_closeDouble (quoted : state.InDouble) (rest : Str) :
    walk (splitStep split []) ('"' :: rest) 0 state =
      walk (splitStep split []) rest 0
        { state.push '"' with inDouble := false } := by
  obtain ⟨inDouble, noSingle⟩ := quoted
  apply walk_one
  simp [splitStep, inDouble, noSingle]

end

/-! ## Legs -/

/-- A step keeps the legs, or ends a leg and adds those of a body. -/
theorem splitStep_result (split : Str → List Str) (extraSeps : List Char)
    (state : SplitState) (byte : Char) (rest : Str) :
    (splitStep split extraSeps state byte rest).1.result = state.result ∨
      ∃ legs, (splitStep split extraSeps state byte rest).1.result =
        state.pushLeg.result ++ legs := by
  let kept (out : SplitState × Nat) : Prop :=
    out.1.result = state.result ∨
      ∃ legs, out.1.result = state.pushLeg.result ++ legs
  have pushed : ∀ skip, kept (state.pushLeg, skip) :=
    fun _ => .inr ⟨[], (List.append_nil _).symm⟩
  have same : ∀ next : SplitState × Nat, next.1.result = state.result → kept next :=
    fun _ same => .inl same
  show kept (splitStep split extraSeps state byte rest)
  unfold splitStep
  refine iteInduction (fun _ => same _ rfl) fun _ =>
    iteInduction (fun _ => same _ rfl) fun _ =>
    iteInduction (fun _ => same _ rfl) fun _ =>
    iteInduction (fun _ => ?_) fun _ => same _ rfl
  refine iteInduction (fun _ => .inr ⟨_, rfl⟩) fun _ =>
    iteInduction (fun _ => .inr ⟨_, rfl⟩) fun _ =>
    iteInduction (fun _ => pushed _) fun _ =>
    iteInduction (fun _ => pushed _) fun _ =>
    iteInduction (fun _ => pushed _) fun _ =>
    iteInduction (fun _ => pushed _) fun _ => same _ rfl

/-- The legs that the walk has pushed stay at the front. -/
theorem result_prefix_walk {split : Str → List Str} (items : Str)
    (state : SplitState) :
    state.result <+: (walk (splitStep split []) items 0 state).pushLeg.result := by
  have pushed : ∀ state : SplitState, state.result <+: state.pushLeg.result := by
    intro state
    simp only [SplitState.pushLeg]
    split_ifs
    · exact List.prefix_refl _
    · exact List.prefix_append _ _
  refine List.IsPrefix.trans ?_ (pushed _)
  refine @walk_invariant _ _ _ (fun next : SplitState =>
    state.result <+: next.result) _
    (fun next byte rest _ kept => kept.trans ?_) 0 _ (List.prefix_refl _)
  rcases splitStep_result split [] next byte rest with same | ⟨legs, added⟩
  · rw [same]
  · rw [added]
    exact (pushed next).trans (List.prefix_append _ _)

/-! ## Parentheses -/

@[simp] theorem extractParenBody_nil (depth : Nat) :
    extractParenBody [] depth = ([], 0) :=
  rfl

@[simp] theorem extractParenBody_escape (escaped : Char) (rest : List Char)
    (depth : Nat) :
    extractParenBody ('\\' :: escaped :: rest) depth =
      ('\\' :: escaped :: (extractParenBody rest depth).1,
        (extractParenBody rest depth).2 + 2) :=
  rfl

theorem extractParenBody_cons {byte : Char} (bare : byte ≠ '\\')
    (rest : List Char) (depth : Nat) :
    extractParenBody (byte :: rest) depth =
      if byte = ')' ∧ depth = 1 then ([], 1)
      else
        let nested := if byte = '(' then depth + 1
          else if byte = ')' then depth - 1 else depth
        (byte :: (extractParenBody rest nested).1,
          (extractParenBody rest nested).2 + 1) := by
  rw [extractParenBody.eq_def]
  dsimp only
  rw [if_neg bare]
  split_ifs <;> simp_all

@[simp] theorem extractParenBody_open (rest : List Char) (depth : Nat) :
    extractParenBody ('(' :: rest) depth =
      ('(' :: (extractParenBody rest (depth + 1)).1,
        (extractParenBody rest (depth + 1)).2 + 1) :=
  extractParenBody_cons (by decide) rest depth

@[simp] theorem extractParenBody_last (rest : List Char) :
    extractParenBody (')' :: rest) 1 = ([], 1) :=
  extractParenBody_cons (by decide) rest 1

theorem extractParenBody_close {depth : Nat} (nested : depth ≠ 1)
    (rest : List Char) :
    extractParenBody (')' :: rest) depth =
      (')' :: (extractParenBody rest (depth - 1)).1,
        (extractParenBody rest (depth - 1)).2 + 1) := by
  simp [extractParenBody_cons, nested]

theorem extractParenBody_copy {byte : Char} (bare : byte ∉ ['\\', '(', ')'])
    (rest : List Char) (depth : Nat) :
    extractParenBody (byte :: rest) depth =
      (byte :: (extractParenBody rest depth).1,
        (extractParenBody rest depth).2 + 1) := by
  simp only [List.mem_cons, List.not_mem_nil, or_false, not_or] at bare
  simp [extractParenBody_cons, bare]

/-- The nesting after a text, unless the text closes the parenthesis it starts
in or leaves an escape open. -/
def parenDepth : (depth : Nat) → (text : List Char) → Option Nat
  | depth, [] => some depth
  | depth, byte :: rest =>
      if byte = '\\' then
        match rest with
        | [] => none
        | _ :: rest => parenDepth depth rest
      else if byte = '(' then parenDepth (depth + 1) rest
      else if byte = ')' then
        if depth = 1 then none else parenDepth (depth - 1) rest
      else parenDepth depth rest

@[simp] theorem parenDepth_nil (depth : Nat) : parenDepth depth [] = some depth :=
  rfl

@[simp] theorem parenDepth_escape (depth : Nat) (escaped : Char)
    (rest : List Char) :
    parenDepth depth ('\\' :: escaped :: rest) = parenDepth depth rest :=
  rfl

theorem parenDepth_cons {byte : Char} (bare : byte ≠ '\\') (depth : Nat)
    (rest : List Char) :
    parenDepth depth (byte :: rest) =
      if byte = '(' then parenDepth (depth + 1) rest
      else if byte = ')' then
        if depth = 1 then none else parenDepth (depth - 1) rest
      else parenDepth depth rest := by
  rw [parenDepth.eq_def]
  exact if_neg bare

@[simp] theorem parenDepth_open (depth : Nat) (rest : List Char) :
    parenDepth depth ('(' :: rest) = parenDepth (depth + 1) rest :=
  parenDepth_cons (by decide) depth rest

@[simp] theorem parenDepth_last (rest : List Char) :
    parenDepth 1 (')' :: rest) = none :=
  parenDepth_cons (by decide) 1 rest

theorem parenDepth_close {depth : Nat} (nested : depth ≠ 1) (rest : List Char) :
    parenDepth depth (')' :: rest) = parenDepth (depth - 1) rest := by
  simp [parenDepth_cons, nested]

theorem parenDepth_copy {byte : Char} (bare : byte ∉ ['\\', '(', ')'])
    (depth : Nat) (rest : List Char) :
    parenDepth depth (byte :: rest) = parenDepth depth rest := by
  simp only [List.mem_cons, List.not_mem_nil, or_false, not_or] at bare
  simp [parenDepth_cons, bare]

/-- The extraction reads past a text that does not close it. -/
theorem extractParenBody_append {depth after : Nat} {text : List Char}
    (stays : parenDepth depth text = some after) (rest : List Char) :
    extractParenBody (text ++ rest) depth =
      (text ++ (extractParenBody rest after).1,
        text.length + (extractParenBody rest after).2) := by
  fun_induction parenDepth depth text with
  | case1 => simp_all
  | case2 => simp at stays
  | case3 depth escaped text induction =>
      simp [induction stays]
      omega
  | case4 depth text notEscape induction =>
      simp [induction stays]
      omega
  | case5 => simp at stays
  | case6 depth text nested notEscape notOpen induction =>
      simp [extractParenBody_close nested, induction stays]
      omega
  | case7 depth byte text notEscape notOpen notClose induction =>
      rw [List.cons_append, extractParenBody_copy (by simp [*]),
        induction stays]
      simp
      omega

theorem parenDepth_append {depth after : Nat} {text : List Char}
    (stays : parenDepth depth text = some after) (rest : List Char) :
    parenDepth depth (text ++ rest) = parenDepth after rest := by
  fun_induction parenDepth depth text with
  | case1 => simp_all
  | case2 => simp at stays
  | case3 depth escaped text induction => simp [induction stays]
  | case4 depth text notEscape induction => simp [induction stays]
  | case5 => simp at stays
  | case6 depth text nested notEscape notOpen induction =>
      simp [parenDepth_close nested, induction stays]
  | case7 depth byte text notEscape notOpen notClose induction =>
      rw [List.cons_append, parenDepth_copy (by simp [*]), induction stays]

theorem parenDepth_of_bare {text : List Char}
    (bare : ∀ char ∈ text, char ∉ ['\\', '(', ')']) (depth : Nat) :
    parenDepth depth text = some depth := by
  induction text with
  | nil => simp
  | cons char text induction =>
      obtain ⟨head, tail⟩ := List.forall_mem_cons.mp bare
      rw [parenDepth_copy head, induction tail]

/-- A body that ends where it began is extracted whole. -/
theorem extractParenBody_closed {text : List Char}
    (balanced : parenDepth 1 text = some 1) (rest : List Char) :
    extractParenBody (text ++ ')' :: rest) 1 = (text, text.length + 1) := by
  rw [extractParenBody_append balanced]
  simp

section

variable {split : Str → List Str} {state : SplitState}

/-- A substitution outside quotes ends the leg before it and adds the legs of
its body. -/
theorem walk_opener {opener : Char} {bytes body : Str} {advanced : Nat}
    (outside : state.Outside) (opens : opener ∈ ['$', '<', '>'])
    (extracted : extractParenBody bytes 1 = (body, advanced)) :
    walk (splitStep split []) (opener :: '(' :: bytes) 0 state =
      walk (splitStep split []) (bytes.drop advanced) 0
        (state.pushLeg.extend (split body)) := by
  obtain ⟨noDouble, noSingle⟩ := outside
  have step : splitStep split [] state opener ('(' :: bytes) =
      (state.pushLeg.extend (split body), advanced + 1) := by
    simp only [List.mem_cons, List.not_mem_nil, or_false] at opens
    unfold splitStep
    rw [if_neg (by rintro ⟨-, rfl, -⟩; simp at opens),
      if_neg (by rintro ⟨rfl, -⟩; simp at opens),
      if_neg (by rintro ⟨rfl, -⟩; simp at opens),
      if_pos ⟨noDouble, noSingle⟩, if_pos ⟨opens, rfl⟩]
    simp only [List.tail_cons, extracted]
  rw [walk_cons_of_eq step, List.drop_succ_cons]

theorem walk_substitution {opener : Char} {body : Str}
    (outside : state.Outside) (opens : opener ∈ ['$', '<', '>'])
    (balanced : parenDepth 1 body = some 1) (rest : Str) :
    walk (splitStep split []) (opener :: '(' :: (body ++ ')' :: rest)) 0 state =
      walk (splitStep split []) rest 0 (state.pushLeg.extend (split body)) := by
  rw [walk_opener outside opens (extractParenBody_closed balanced rest)]
  simp

/-- A double-quoted argument outside quotes is copied. -/
theorem walk_quoted {text : Str} (outside : state.Outside)
    (plain : ∀ char ∈ text, char ≠ '"' ∧ char ≠ '\\') (rest : Str) :
    walk (splitStep split []) ('"' :: (text ++ '"' :: rest)) 0 state =
      walk (splitStep split []) rest 0
        (state.pushAll ('"' :: (text ++ ['"']))) := by
  obtain ⟨result, current, inDouble, inSingle⟩ := state
  obtain ⟨rfl, rfl⟩ : inDouble = false ∧ inSingle = false := outside
  rw [walk_openDouble ⟨rfl, rfl⟩, walk_double ⟨rfl, rfl⟩ plain,
    walk_closeDouble ⟨rfl, rfl⟩]
  simp [SplitState.pushAll, SplitState.push]

end

end TrustLayer.AgentGuard.Gate
