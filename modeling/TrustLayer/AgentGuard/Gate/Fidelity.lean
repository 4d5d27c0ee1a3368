import TrustLayer.AgentGuard.Gate.Aliases
import TrustLayer.Library.CharBoundary
import TrustLayer.Library.Unicode

/-!
# What the rewriters leave alone

The byte loops push every byte `as char`.  On ASCII text that copies a text
outside the spans that are rewritten; a character of several bytes comes out as
one character for each of them.
-/

namespace TrustLayer.AgentGuard.Gate

open TrustLayer.Library

/-! ## Fidelity -/

/-- The texts differ only in spans that are replaced. -/
def ChangesOnly (replaced : Str → Str → Prop) (before after : Str) : Prop :=
  ∃ spans, Rewritten Copied replaced spans before after

/-- The legs that the scan is given. -/
def scannedLegs (command : Str) (config : Config) : List Str :=
  resolveAssignments (splitCompound (scanInput command config).command)

/-- The rewriters change the command in the spans they rewrite, the splitter
cuts it, and a leg without references is matched as it stands in a command that
normalization leaves as it is. -/
structure KeepsText (command : Str) : Prop where
  join : ∀ budget,
    ChangesOnly Continuation command (joinLineContinuations command budget).1
  ansiC : ∀ budget,
    ChangesOnly AnsiCSpan command (decodeAnsiC command budget).1
  echo : ∀ budget,
    ChangesOnly EchoSubstitution command (spliceEchoSubstitution command budget).1
  expand : ∀ vars, ChangesOnly (Reference vars) command (expandVars command vars)
  legs : ∀ leg ∈ splitCompound command, trim leg = leg ∧ leg <:+: command
  blocks : ∀ config block, (scanInput command config).command = command →
    ∀ before leg after, splitCompound command = before ++ leg :: after →
      '$' ∉ leg →
      ((scannedLegs command config)[before.length]?).map
          (customBlockMatches block) =
        some (customBlockMatches block leg)

/-! ## Rewriters on ASCII text -/

theorem PassRewrites.changesOnly {kept replaced : Str → Str → Prop}
    {spans : Nat} {before after : Str}
    (rewrites : PassRewrites kept replaced spans before after)
    (ascii : IsAscii before)
    (copies : ∀ span text, IsAscii span → kept span text → text = span) :
    ChangesOnly replaced before after := by
  rcases rewrites with ⟨-, rfl⟩ | rewritten
  · exact ⟨0, .whole rfl⟩
  · rw [asBytes_of_ascii ascii] at rewritten
    exact ⟨spans, rewritten.mono
      (fun span text inside keeps => copies span text
        (fun char member => ascii char (inside member)) keeps)
      (fun _ _ _ replaces => replaces)⟩

theorem copiedVerbatim_eq {span text : Str} (ascii : IsAscii span)
    (copied : CopiedVerbatim span text) : text = span := by
  rcases copied with same | read
  · exact same
  · have whole := fromUtf8_asBytes span
    rw [asBytes_of_ascii ascii, read] at whole
    exact Option.some.inj whole

/-! ## Legs of ASCII text -/

theorem trim_isInfix (text : Str) : trim text <:+: text :=
  (List.rdropWhile_prefix _ _).isInfix.trans (List.dropWhile_suffix _).isInfix

theorem trim_trim (text : Str) : trim (trim text) = trim text := by
  apply trim_of_ends
  · intro char head
    obtain ⟨rest, shape⟩ := List.head?_eq_some_iff.mp head
    obtain ⟨behind, whole⟩ := List.rdropWhile_prefix isWhitespace (trimStart text)
    have stops := List.head?_dropWhile_not isWhitespace text
    have start : (text.dropWhile isWhitespace).head? = some char := by
      rw [trim] at shape
      rw [← trimStart, ← whole, shape]
      rfl
    rw [start] at stops
    exact stops
  · intro char last
    have nonempty : trim text ≠ [] := by
      intro empty
      simp [empty] at last
    rw [List.getLast?_eq_some_getLast nonempty] at last
    obtain rfl := Option.some.inj last
    exact Bool.eq_false_iff.mpr (List.rdropWhile_last_not isWhitespace _ nonempty)

/-- What one step of the splitter does to the legs. -/
inductive LegTurn (split : Str → List Str) (state : SplitState) (byte : Char)
    (rest : List Char) : SplitState × Nat → Prop where
  | copy {next : SplitState} {skip : Nat} :
      next.result = state.result →
      next.current = state.current ++ byte :: rest.take skip →
      LegTurn split state byte rest (next, skip)
  | cut {skip : Nat} : LegTurn split state byte rest (state.pushLeg, skip)
  | body {inner : Str} {skip : Nat} :
      inner <:+: rest → openers inner < openers (byte :: rest) →
      LegTurn split state byte rest (state.pushLeg.extend (split inner), skip)

theorem splitStep_legTurn (split : Str → List Str) (extraSeps : List Char)
    (state : SplitState) (byte : Char) (rest : List Char) :
    LegTurn split state byte rest (splitStep split extraSeps state byte rest) := by
  unfold splitStep
  refine iteInduction (motive := LegTurn split state byte rest) (fun escape => ?_)
    fun _ => iteInduction (fun _ => .copy rfl rfl) fun _ =>
    iteInduction (fun _ => .copy rfl rfl) fun _ =>
    iteInduction (fun _ => ?_) fun _ => .copy rfl rfl
  · obtain ⟨escaped, later, rfl⟩ := List.exists_cons_of_ne_nil escape.2.2
    exact .copy rfl (by simp [SplitState.push])
  · refine iteInduction (motive := LegTurn split state byte rest)
      (fun paren => ?_) fun _ => iteInduction (fun tick => ?_) fun _ =>
      iteInduction (fun _ => .cut) fun _ => iteInduction (fun _ => .cut) fun _ =>
      iteInduction (fun _ => .cut) fun _ => iteInduction (fun _ => .cut) fun _ =>
      .copy rfl rfl
    · obtain ⟨bytes, rfl⟩ := List.head?_eq_some_iff.mp paren.2
      have front := extractParenBody_front bytes 1
      exact .body (front.isInfix.trans (List.suffix_cons _ _).isInfix)
        (openers_parenBody_lt paren.2)
    · subst tick
      exact .body (extractBacktickBody_front rest).isInfix
        (openers_backtickBody_lt rest)

/-- A leg is cut out of the text. -/
def CutFrom (text leg : Str) : Prop :=
  trim leg = leg ∧ leg <:+: text

theorem CutFrom.within {inner text leg : Str} (inside : inner <:+: text)
    (cut : CutFrom inner leg) : CutFrom text leg :=
  ⟨cut.1, cut.2.trans inside⟩

/-- What is being read stands in front of what is left, and the legs are cut
out. -/
def CutsLegs (text : Str) (state : SplitState) (rest : List Char) : Prop :=
  (∀ leg ∈ state.result, CutFrom text leg) ∧ state.current ++ rest <:+ text

theorem CutsLegs.pushLeg {text : Str} {state : SplitState} {rest : List Char}
    (cuts : CutsLegs text state rest) :
    ∀ leg ∈ state.pushLeg.result, CutFrom text leg := by
  intro leg member
  simp only [SplitState.pushLeg] at member
  have current : CutFrom text (trim state.current) :=
    ⟨trim_trim _, (trim_isInfix _).trans
      ((List.prefix_append _ rest).isInfix.trans cuts.2.isInfix)⟩
  split_ifs at member with blank
  · exact cuts.1 leg member
  · rcases List.mem_append.mp member with earlier | last
    · exact cuts.1 leg earlier
    · exact List.mem_singleton.mp last ▸ current

/-- The legs of an ASCII text are cut out of it. -/
theorem splitCompound_cuts {text : Str} (ascii : IsAscii text) :
    ∀ leg ∈ splitCompound text, CutFrom text leg := by
  induction size : openers text using Nat.strong_induction_on
    generalizing text with
  | _ opens induction =>
      have preserved : ∀ state byte rest, CutsLegs text state (byte :: rest) →
          CutsLegs text (splitStep splitCompound [] state byte rest).1
            (rest.drop (splitStep splitCompound [] state byte rest).2) := by
        intro state byte rest cuts
        have behind : byte :: rest <:+ text :=
          (List.suffix_append _ _).trans cuts.2
        have turn := splitStep_legTurn splitCompound [] state byte rest
        generalize splitStep splitCompound [] state byte rest = result at turn ⊢
        cases turn with
        | @copy next skip same grown =>
            refine ⟨fun leg member => cuts.1 leg (same ▸ member), ?_⟩
            simp only [grown, List.append_assoc, List.cons_append,
              List.take_append_drop]
            exact cuts.2
        | @cut skip =>
            exact ⟨cuts.pushLeg, (List.drop_suffix skip rest).trans
              ((List.suffix_cons _ _).trans behind)⟩
        | @body inner skip inside fewer =>
            have within : inner <:+: text :=
              inside.trans ((List.suffix_cons _ _).trans behind).isInfix
            have innerAscii : IsAscii inner :=
              fun char member => ascii char (within.subset member)
            have less : openers inner < opens :=
              size ▸ Nat.lt_of_lt_of_le fewer (openers_le_of_suffix behind)
            refine ⟨?_, (List.drop_suffix skip rest).trans
              ((List.suffix_cons _ _).trans behind)⟩
            intro leg member
            rcases List.mem_append.mp member with earlier | later
            · exact cuts.pushLeg leg earlier
            · exact (induction _ less innerAscii rfl leg later).within within
      have start : CutsLegs text .start text :=
        ⟨nofun, List.suffix_refl text⟩
      have reached := walk_reaches preserved start
      rw [splitCompound_eq, asBytes_of_ascii ascii]
      exact reached.pushLeg

/-! ## Legs that are matched -/

/-- A leg that stands in the command as it is is scanned as it is. -/
theorem scannedLegs_getElem? {command : Str} (ascii : IsAscii command)
    {config : Config} (kept : (scanInput command config).command = command)
    {before after : List Str} {leg : Str}
    (split : splitCompound command = before ++ leg :: after)
    (noDollar : '$' ∉ leg) :
    (scannedLegs command config)[before.length]? = some leg := by
  have cut : CutFrom command leg :=
    splitCompound_cuts ascii leg (split ▸ List.mem_append_right _ List.mem_cons_self)
  have legAscii : IsAscii leg := fun char member =>
    ascii char (cut.2.subset member)
  rw [scannedLegs, kept, split, resolveAssignments_getElem?,
    expandVars_of_not_mem noDollar, asBytes_of_ascii legAscii]

theorem keepsText_of_ascii {command : Str} (ascii : IsAscii command) :
    KeepsText command where
  join budget := by
    obtain ⟨spans, -, rewrites⟩ := joinLineContinuations_rewrites command budget
    exact rewrites.changesOnly ascii fun _ _ _ copied => copied
  ansiC budget := by
    obtain ⟨spans, -, rewrites⟩ := decodeAnsiC_rewrites command budget
    exact rewrites.changesOnly ascii fun _ _ => copiedVerbatim_eq
  echo budget := by
    obtain ⟨spans, -, rewrites⟩ := spliceEchoSubstitution_rewrites command budget
    exact rewrites.changesOnly ascii fun _ _ _ copied => copied
  expand vars := by
    obtain ⟨spans, rewritten⟩ := expandVars_rewrites command vars
    rw [asBytes_of_ascii ascii] at rewritten
    exact ⟨spans, rewritten⟩
  legs := splitCompound_cuts ascii
  blocks config block kept before leg after split noDollar := by
    rw [scannedLegs_getElem? ascii kept split noDollar, Option.map_some]

/-- A text that is expanded under no binding comes out unchanged only if it is
ASCII. -/
theorem ascii_of_expand {command : Str}
    (keeps : ChangesOnly (Reference []) command (expandVars command [])) :
    IsAscii command := by
  obtain ⟨spans, rewritten⟩ := keeps
  have same : expandVars command [] = command :=
    rewritten.eq_of_not_replaced (fun _ _ copied => copied)
      fun _ _ ⟨_, bound, _⟩ => nomatch bound
  rw [expandVars_nil] at same
  exact byteLen_eq_length_iff.mp (congrArg List.length same)

/-- The rewriters keep text outside the spans they rewrite exactly in ASCII
commands. -/
theorem keepsText_iff (command : Str) : KeepsText command ↔ IsAscii command :=
  ⟨fun keeps => ascii_of_expand (keeps.expand []), keepsText_of_ascii⟩

/-! ## A block that no leg matches -/

def coffee : Str := "brew café".toList

def coffeeBlock : Config :=
  { Config.default with
    customBlocks :=
      [{ pattern := "café".toList, severity := 9, category := "drink".toList }] }

/-- The command holds the pattern, and the leg that is scanned does not. -/
theorem coffee_not_kept :
    ¬ KeepsText coffee ∧
      (∀ block ∈ coffeeBlock.customBlocks,
        customBlockMatches block coffee = true) ∧
      (@evaluate .standard coffee coffeeBlock).tier = .allow := by
  refine ⟨fun keeps => ?_, by decide, by decide +kernel⟩
  exact absurd (ascii_of_expand (keeps.expand [])) (by decide)

end TrustLayer.AgentGuard.Gate
