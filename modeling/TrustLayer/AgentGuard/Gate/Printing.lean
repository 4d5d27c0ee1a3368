import TrustLayer.AgentGuard.Gate.Hits
import TrustLayer.AgentGuard.Gate.Simple

/-!
# Legs that print and legs that block

A leg with a printing verb binds no variable and is no comment, so the gate
looks into its quoted argument.  A leg rated for Block blocks the command it
surfaces in.
-/

namespace TrustLayer.AgentGuard.Gate

open TrustLayer.Library

/-! ## Printing legs -/

theorem isNonExecutingVerb_of_words {leg verb : Str} {words : List Str} :
    splitWhitespace leg = verb :: words → isNonExecutingVerb leg =
      if verb = "echo".toList ∨ verb = "printf".toList then true
      else if verb = "git".toList then
        match words with
        | [] => false
        | word :: _ =>
            word == "commit".toList || word == "tag".toList ||
              word == "notes".toList
      else false := by
  intro split
  have trimmed : splitWhitespace (trimStart leg) = verb :: words := by
    rw [splitWhitespace_trimStart, split]
  cases words with
  | nil => simp only [isNonExecutingVerb, trimmed]
  | cons word rest => simp only [isNonExecutingVerb, trimmed]

theorem splitWhitespace_ne_nil_of_printing {leg : Str}
    (printing : isNonExecutingVerb leg = true) : splitWhitespace leg ≠ [] := by
  intro empty
  rw [isNonExecutingVerb, splitWhitespace_trimStart, empty] at printing
  exact absurd printing Bool.false_ne_true

theorem isNonExecutingVerb_append {head : Str}
    (printing : isNonExecutingVerb head = true) {char : Char}
    (space : isWhitespace char = true) (rest : Str) :
    isNonExecutingVerb (head ++ char :: rest) = true := by
  obtain ⟨verb, words, split⟩ :=
    List.exists_cons_of_ne_nil (splitWhitespace_ne_nil_of_printing printing)
  have longer : splitWhitespace (head ++ char :: rest) =
      verb :: (words ++ splitWhitespace rest) := by
    rw [splitWhitespace_append space, split, List.cons_append]
  rw [isNonExecutingVerb_of_words split] at printing
  rw [isNonExecutingVerb_of_words longer]
  cases words with
  | nil =>
      by_cases printed : verb = "echo".toList ∨ verb = "printf".toList
      · exact if_pos printed
      · rw [if_neg printed, ite_self] at printing
        exact absurd printing Bool.false_ne_true
  | cons word words => exact printing

theorem isNonExecutingVerb_head {leg : Str}
    (printing : isNonExecutingVerb leg = true) :
    ∃ verb words, splitWhitespace leg = verb :: words ∧
      verb ∈ ["echo".toList, "printf".toList, "git".toList] := by
  obtain ⟨verb, words, split⟩ :=
    List.exists_cons_of_ne_nil (splitWhitespace_ne_nil_of_printing printing)
  refine ⟨verb, words, split, ?_⟩
  rw [isNonExecutingVerb_of_words split] at printing
  by_cases printed : verb = "echo".toList ∨ verb = "printf".toList
  · rcases printed with rfl | rfl
    · exact List.mem_cons_self
    · exact List.mem_cons_of_mem _ List.mem_cons_self
  · rw [if_neg printed] at printing
    by_cases git : verb = "git".toList
    · rw [git]
      exact List.mem_cons_of_mem _ (List.mem_cons_of_mem _ List.mem_cons_self)
    · rw [if_neg git] at printing
      exact absurd printing Bool.false_ne_true

/-- The verb of a printing leg has only lower-case letters. -/
private theorem not_mem_verb {verb : Str} {char : Char}
    (member : verb ∈ ["echo".toList, "printf".toList, "git".toList])
    (other : char ∉ "echoprintfgit".toList) : char ∉ verb := by
  have letters : ∀ verb ∈ ["echo".toList, "printf".toList, "git".toList],
      verb ⊆ "echoprintfgit".toList := by
    decide
  exact fun within => other (letters verb member within)

theorem isComment_of_printing {leg : Str}
    (printing : isNonExecutingVerb leg = true) : isComment leg = false := by
  obtain ⟨verb, words, split, member⟩ := isNonExecutingVerb_head printing
  rw [isComment, beq_eq_false_iff_ne]
  intro hash
  obtain ⟨text, start⟩ := List.head?_eq_some_iff.mp hash
  rw [← splitWhitespace_trimStart, start, splitWhitespace_cons (by decide)]
    at split
  obtain ⟨rfl, -⟩ := List.cons.inj split
  exact not_mem_verb member (by decide : '#' ∉ _) List.mem_cons_self

/-! ## Live substitutions -/

section

variable {state : SubstState}

/-- The cap leaves room for another body. -/
def SubstState.Open (state : SubstState) : Prop :=
  state.bodies.length < maxSubstBodies

instance (state : SubstState) : Decidable state.Open :=
  inferInstanceAs (Decidable (state.bodies.length < maxSubstBodies))

theorem walk_substWords {text : Str} (room : state.Open)
    (noDouble : state.inDouble = false)
    (plain : ∀ char ∈ text, char ∉ ['\\', '"', '\'']) (rest : Str) :
    walk substStep (text ++ rest) 0 state = walk substStep rest 0 state := by
  induction text with
  | nil => rfl
  | cons char text induction =>
      obtain ⟨head, tail⟩ := List.forall_mem_cons.mp plain
      simp only [List.mem_cons, List.not_mem_nil, or_false, not_or] at head
      have skipped : substStep state char (text ++ rest) = (state, 0) := by
        simp [substStep, head, noDouble, Nat.not_le.mpr room]
      rw [List.cons_append, walk_one skipped]
      exact induction tail

theorem walk_substQuote (room : state.Open) (noSingle : state.inSingle = false)
    (rest : Str) :
    walk substStep ('"' :: rest) 0 state =
      walk substStep rest 0 { state with inDouble := !state.inDouble } := by
  apply walk_one
  simp [substStep, noSingle, Nat.not_le.mpr room]

theorem walk_substOpener {bytes body : Str} {advanced : Nat} (room : state.Open)
    (quoted : state.inDouble = true) (noSingle : state.inSingle = false)
    (extracted : extractParenBody bytes 1 = (body, advanced)) :
    walk substStep ('$' :: '(' :: bytes) 0 state =
      walk substStep (bytes.drop advanced) 0
        { state with bodies := state.bodies ++ [body] } := by
  have step : substStep state '$' ('(' :: bytes) =
      ({ state with bodies := state.bodies ++ [body] }, advanced + 1) := by
    simp [substStep, quoted, noSingle, Nat.not_le.mpr room, extracted]
  rw [walk_cons_of_eq step, List.drop_succ_cons]

theorem walk_substBody {body : Str} (room : state.Open)
    (quoted : state.inDouble = true) (noSingle : state.inSingle = false)
    (balanced : parenDepth 1 body = some 1) (rest : Str) :
    walk substStep ('$' :: '(' :: (body ++ ')' :: rest)) 0 state =
      walk substStep rest 0 { state with bodies := state.bodies ++ [body] } := by
  rw [walk_substOpener room quoted noSingle (extractParenBody_closed balanced rest)]
  simp

/-- The bodies found so far stay. -/
theorem bodies_subset_walk (items : Str) (state : SubstState) :
    state.bodies ⊆ (walk substStep items 0 state).bodies := by
  let kept (out : SubstState × Nat) : Prop := state.bodies ⊆ out.1.bodies
  refine @walk_invariant _ _ _ (fun next : SubstState =>
    state.bodies ⊆ next.bodies) _
    (fun next byte rest _ subset => ?_) 0 _ (List.Subset.refl _)
  have added : ∀ (body : Str) (skip : Nat),
      kept ({ next with bodies := next.bodies ++ [body] }, skip) :=
    fun body _ => List.Subset.trans subset (List.subset_append_left _ [body])
  show kept (substStep next byte rest)
  unfold substStep
  refine iteInduction (fun _ => subset) fun _ =>
    iteInduction (fun _ => subset) fun _ =>
    iteInduction (fun _ => subset) fun _ =>
    iteInduction (fun _ => subset) fun _ =>
    iteInduction (fun _ => ?_) fun _ => subset
  exact iteInduction (fun _ => added _ _) fun _ =>
    iteInduction (fun _ => added _ _) fun _ => subset

end

/-- `$(body)`. -/
def substitution (body : Str) : Str :=
  '$' :: '(' :: (body ++ [')'])

theorem walk_substBodies {bodies : List Str}
    (balanced : ∀ body ∈ bodies, parenDepth 1 body = some 1) {state : SubstState}
    (few : state.bodies.length + bodies.length ≤ maxSubstBodies)
    (quoted : state.inDouble = true) (noSingle : state.inSingle = false)
    (rest : Str) :
    walk substStep (bodies.flatMap substitution ++ rest) 0 state =
      walk substStep rest 0 { state with bodies := state.bodies ++ bodies } := by
  induction bodies generalizing state with
  | nil => simp
  | cons body bodies induction =>
      obtain ⟨head, tail⟩ := List.forall_mem_cons.mp balanced
      have room : state.Open := by
        simp only [List.length_cons] at few
        exact show state.bodies.length < maxSubstBodies by omega
      have shape : (body :: bodies).flatMap substitution ++ rest =
          '$' :: '(' :: (body ++ ')' :: (bodies.flatMap substitution ++ rest)) := by
        simp [substitution]
      let next : SubstState := { state with bodies := state.bodies ++ [body] }
      have fits : next.bodies.length + bodies.length ≤ maxSubstBodies := by
        simp only [next, List.length_append, List.length_cons,
          List.length_nil] at few ⊢
        omega
      have later := @induction tail next fits quoted noSingle
      rw [shape, walk_substBody room quoted noSingle head]
      refine later.trans ?_
      simp [next]

/-- Every body of a quoted argument is live, up to the cap. -/
theorem extractDoubleQuotedSubstitutions_eq {head : Str} {bodies : List Str}
    (ascii : IsAscii (head ++ '"' :: (bodies.flatMap substitution ++ ['"'])))
    (plain : ∀ char ∈ head, char ∉ ['\\', '"', '\''])
    (balanced : ∀ body ∈ bodies, parenDepth 1 body = some 1)
    (few : bodies.length ≤ maxSubstBodies) :
    extractDoubleQuotedSubstitutions
        (head ++ '"' :: (bodies.flatMap substitution ++ ['"'])) = bodies := by
  let opened : SubstState := ⟨[], true, false⟩
  have fits : opened.bodies.length + bodies.length ≤ maxSubstBodies := by
    simpa [opened] using few
  have read := walk_substBodies balanced fits rfl rfl ['"']
  have closed : (walk substStep ['"'] 0 ⟨bodies, true, false⟩).bodies = bodies := by
    rw [walk_cons, List.drop_nil, walk_nil]
    by_cases full : maxSubstBodies ≤ bodies.length
    · simp [substStep, full]
    · simp [substStep, full]
  rw [extractDoubleQuotedSubstitutions, asBytes_of_ascii ascii,
    walk_substWords (by decide) rfl plain, walk_substQuote (by decide) rfl]
  exact (congrArg SubstState.bodies read).trans closed

theorem liveSubstitutionBodies_of_printing {leg : Str}
    (printing : isNonExecutingVerb leg = true) :
    liveSubstitutionBodies leg = extractDoubleQuotedSubstitutions leg := by
  simp [liveSubstitutionBodies, isComment_of_printing printing, printing]

/-! ## Assignments -/

theorem isWhitespace_of_mem_varName {name : Str}
    (valid : isValidVarName name = true) :
    ∀ char ∈ name, isWhitespace char = false := by
  have visible : ∀ char : Char, (isAsciiAlphanumeric char || char == '_') = true →
      isWhitespace char = false := by
    intro char word
    simp only [isAsciiAlphanumeric, isAsciiAlphabetic, isAsciiDigit,
      Bool.or_eq_true, Bool.and_eq_true, decide_eq_true_eq, beq_iff_eq,
      Char.le_def, UInt32.le_iff_toNat_le] at word
    simp only [isWhitespace, Char.toNat]
    rcases word with ((⟨low, high⟩ | ⟨low, high⟩) | ⟨low, high⟩) | rfl
    · simp at low high ⊢
      omega
    · simp at low high ⊢
      omega
    · simp at low high ⊢
      omega
    · decide
  cases name with
  | nil => simp
  | cons first name =>
      simp only [isValidVarName, Bool.and_eq_true, List.all_eq_true] at valid
      intro char member
      rcases List.mem_cons.mp member with rfl | later
      · apply visible
        rw [isAsciiAlphanumeric, Bool.or_right_comm, valid.1, Bool.true_or]
      · exact visible char (valid.2 char later)

/-- A printing leg binds no variable. -/
theorem parseAssignment_of_printing {leg : Str}
    (printing : isNonExecutingVerb leg = true) : parseAssignment leg = none := by
  obtain ⟨verb, words, split, member⟩ := isNonExecutingVerb_head printing
  unfold parseAssignment
  cases found : splitFirst "=".toList leg with
  | none => rfl
  | some binding =>
      obtain ⟨name, value⟩ := binding
      simp only
      rw [if_neg]
      intro valid
      obtain ⟨-, rfl⟩ : '=' ∉ name ∧ leg = name ++ '=' :: value :=
        splitFirst_eq_some_iff.mp found
      have visible := isWhitespace_of_mem_varName valid
      cases name with
      | nil => simp [isValidVarName] at valid
      | cons first name =>
          obtain ⟨head, tail⟩ := List.forall_mem_cons.mp visible
          rw [List.cons_append, splitWhitespace_cons head] at split
          obtain ⟨rfl, -⟩ := List.cons.inj split
          refine not_mem_verb member (by decide : '=' ∉ _) ?_
          rw [List.takeWhile_append_of_pos (by simpa using tail),
            List.takeWhile_cons_of_pos (by decide)]
          simp

/-! ## Resolved legs -/

theorem expandVars_of_copied {vars : Vars} {text : Str}
    (copied : ∀ out byte rest, (byte :: rest) <:+ asBytes text →
      expandStep vars out byte rest = (out ++ [byte], 0)) :
    expandVars text vars = asBytes text := by
  have appended : ∀ out bytes : Str,
      bytes.foldl (fun out byte => out ++ [byte]) out = out ++ bytes := by
    intro out bytes
    induction bytes generalizing out with
    | nil => simp
    | cons byte bytes induction => simp [induction]
  rw [expandVars, walk_foldl copied, appended]
  rfl

/-- Without bindings a leg is only re-read byte by byte. -/
theorem expandVars_nil (text : Str) : expandVars text [] = asBytes text := by
  apply expandVars_of_copied
  intro out byte rest _
  unfold expandStep
  split_ifs
  · cases variableReference rest <;> rfl
  · rfl

/-- A text without a dollar sign refers to no variable. -/
theorem expandVars_of_not_mem {text : Str} (noDollar : '$' ∉ text)
    (vars : Vars) : expandVars text vars = asBytes text := by
  apply expandVars_of_copied
  intro out byte rest suffix
  unfold expandStep
  rw [if_neg]
  rintro rfl
  exact noDollar ((mem_asBytes_iff (by decide)).mp
    (suffix.subset List.mem_cons_self))

theorem resolve_unbound {legs : List Str}
    (unbound : ∀ leg ∈ legs, parseAssignment leg = none) (out : List Str) :
    legs.foldl resolveStep ([], out) = ([], out ++ legs.map asBytes) := by
  induction legs generalizing out with
  | nil => simp
  | cons leg legs induction =>
      obtain ⟨head, tail⟩ := List.forall_mem_cons.mp unbound
      rw [List.foldl_cons]
      simp only [resolveStep, head, expandVars_nil]
      rw [induction tail]
      simp

theorem resolve_keeps (legs : List Str) (state : Vars × List Str) :
    state.2 ⊆ (legs.foldl resolveStep state).2 := by
  induction legs generalizing state with
  | nil => exact List.Subset.refl _
  | cons leg legs induction =>
      refine List.Subset.trans ?_ (induction (resolveStep state leg))
      exact List.subset_append_left _ _

theorem mem_resolveAssignments {before after : List Str} {leg : Str}
    (unbound : ∀ leg ∈ before, parseAssignment leg = none) :
    asBytes leg ∈ resolveAssignments (before ++ leg :: after) := by
  rw [resolveAssignments, List.foldl_append, resolve_unbound unbound,
    List.foldl_cons]
  apply resolve_keeps
  simp [resolveStep, expandVars_nil]

theorem mem_resolveAssignments_of_not_mem {legs : List Str} {leg : Str}
    (member : leg ∈ legs) (noDollar : '$' ∉ leg) :
    asBytes leg ∈ resolveAssignments legs := by
  obtain ⟨before, after, rfl⟩ := List.append_of_mem member
  rw [resolveAssignments, List.foldl_append, List.foldl_cons]
  apply resolve_keeps
  simp [resolveStep, expandVars_of_not_mem noDollar]

/-! ## Blocking legs -/

section

variable [Base64Engine]

theorem RatedBlock.legHit {command : Str} (rated : RatedBlock command)
    (config : Config) (depth : Nat) :
    ∃ hit, LegHit config command depth hit ∧ 8 ≤ hit.severity := by
  obtain ⟨rule, member, severe, hits⟩ := rated
  refine ⟨ruleHit command rule, .rule ?_, severe⟩
  refine List.mem_map_of_mem (List.mem_filter.mpr ⟨?_, hits⟩)
  exact List.mem_append_left _ member

/-- The body of a live substitution is scanned as a command. -/
theorem BodyHit.of_ratedBlock {command : Str} (simple : SimpleCommand command)
    (rated : RatedBlock command) (executes : isNonExecutingVerb command = false)
    (depth : Nat) :
    ∃ hit, BodyHit .default command depth hit ∧ 8 ≤ hit.severity := by
  obtain ⟨hit, legHit, severe⟩ := rated.legHit .default depth
  refine ⟨hit, .leg ?_ executes legHit, severe⟩
  rw [simple.splitCompound_eq]
  exact List.mem_singleton_self command

/-- A leg that surfaces before any binding blocks the command. -/
theorem evaluate_block_of_leg {command leg : Str} {before after : List Str}
    (split : splitCompound (scanInput command .default).command =
      before ++ leg :: after)
    (unbound : ∀ leg ∈ before, parseAssignment leg = none)
    (blocks : ∃ hit, LegHit .default (asBytes leg) 0 hit ∧ 8 ≤ hit.severity) :
    (evaluate command .default).tier = .block := by
  obtain ⟨hit, legHit, severe⟩ := blocks
  refine evaluate_default_block_iff.mpr ⟨hit, .leg ?_ legHit, severe⟩
  rw [split]
  exact mem_resolveAssignments unbound

end

end TrustLayer.AgentGuard.Gate
