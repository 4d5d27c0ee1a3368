import TrustLayer.AgentGuard.Gate.Argument

/-!
# Parentheses in single quotes

The body extractor counts parentheses without looking at quotes.  A
single-quoted text stays whole exactly when it never closes the parenthesis
around it.
-/

namespace TrustLayer.AgentGuard.Gate

open TrustLayer.Library

/-! ## Re-reading a text byte by byte -/

/-- Parentheses and backslashes are ASCII, so the bytes nest as the text does. -/
theorem parenDepth_asBytes (depth : Nat) (text : Str) :
    parenDepth depth (asBytes text) = parenDepth depth text := by
  have bare : ∀ bytes : Str, (∀ byte ∈ bytes, 128 ≤ byte.toNat) →
      ∀ byte ∈ bytes, byte ∉ ['\\', '(', ')'] := by
    intro bytes wide byte member special
    have large := wide byte member
    simp only [List.mem_cons, List.not_mem_nil, or_false] at special
    rcases special with rfl | rfl | rfl <;> simp at large
  fun_induction parenDepth depth text with
  | case1 => simp
  | case2 depth => rfl
  | case3 depth escaped text induction =>
      rw [asBytes_cons_of_ascii (by decide), asBytes_cons]
      by_cases ascii : escaped.toNat < 128
      · rw [asBytes_singleton_of_ascii ascii, List.singleton_append,
          parenDepth_escape, induction]
      · obtain ⟨first, more, bytes⟩ :=
          List.exists_cons_of_ne_nil (asBytes_ne_nil escaped)
        have wide := le_toNat_of_mem_asBytes ascii
        rw [bytes] at wide
        have tail := parenDepth_of_bare
          (bare more fun byte member => wide byte (List.mem_cons_of_mem _ member))
        rw [bytes, List.cons_append, parenDepth_escape,
          parenDepth_append (tail depth), induction]
  | case4 depth text notEscape induction =>
      rw [asBytes_cons_of_ascii (by decide), parenDepth_open, induction]
  | case5 text => rw [asBytes_cons_of_ascii (by decide), parenDepth_last]
  | case6 depth text nested notEscape notOpen induction =>
      rw [asBytes_cons_of_ascii (by decide), parenDepth_close nested, induction]
  | case7 depth byte text notEscape notOpen notClose induction =>
      rw [asBytes_cons]
      by_cases ascii : byte.toNat < 128
      · rw [asBytes_singleton_of_ascii ascii, List.singleton_append,
          parenDepth_copy (by simp [*]), induction]
      · have read := parenDepth_of_bare
          (bare _ (le_toNat_of_mem_asBytes ascii)) depth
        rw [parenDepth_append read, induction]

theorem isQuotedText_append {text : Str} (quotable : isQuotedText text = true)
    (rest : Str) : isQuotedText (text ++ rest) = isQuotedText rest := by
  fun_induction isQuotedText text with
  | case1 => rfl
  | case2 => simp at quotable
  | case3 => simp at quotable
  | case4 escaped text notQuote induction =>
      simp only [Bool.and_eq_true] at quotable
      rw [← induction quotable.2, List.cons_append, List.cons_append,
        isQuotedText.eq_def]
      simp [quotable.1]
  | case5 byte text notQuote notEscape induction =>
      rw [← induction quotable, List.cons_append, isQuotedText.eq_def]
      simp [notQuote, notEscape]

theorem isQuotedText_asBytes {text : Str} (quotable : isQuotedText text = true) :
    isQuotedText (asBytes text) = true := by
  have bare : ∀ bytes : Str, (∀ byte ∈ bytes, 128 ≤ byte.toNat) →
      isQuotedText bytes = true := by
    intro bytes wide
    refine isQuotedText_of_not_mem fun byte member special => ?_
    have large := wide byte member
    simp only [List.mem_cons, List.not_mem_nil, or_false] at special
    rcases special with rfl | rfl <;> simp at large
  fun_induction isQuotedText text with
  | case1 => rfl
  | case2 => simp at quotable
  | case3 => simp at quotable
  | case4 escaped text notQuote induction =>
      simp only [Bool.and_eq_true, bne_iff_ne, ne_eq] at quotable
      have read := induction quotable.2
      have escape : ∀ byte rest, byte ≠ '"' → isQuotedText rest = true →
          isQuotedText ('\\' :: byte :: rest) = true := by
        intro byte rest plain later
        rw [isQuotedText.eq_def]
        simp [plain, later]
      rw [asBytes_cons_of_ascii (by decide), asBytes_cons]
      by_cases ascii : escaped.toNat < 128
      · rw [asBytes_singleton_of_ascii ascii]
        exact escape escaped _ quotable.1 read
      · obtain ⟨first, more, bytes⟩ :=
          List.exists_cons_of_ne_nil (asBytes_ne_nil escaped)
        have wide := le_toNat_of_mem_asBytes ascii
        rw [bytes] at wide
        have tail := isQuotedText_append
          (bare more fun byte member => wide byte (List.mem_cons_of_mem _ member))
          (asBytes text)
        rw [bytes, List.cons_append]
        refine escape first _ ?_ (tail.trans read)
        rintro rfl
        exact absurd (wide '"' List.mem_cons_self) (by decide)
  | case5 byte text notQuote notEscape induction =>
      have read := induction quotable
      rw [asBytes_cons]
      by_cases ascii : byte.toNat < 128
      · have single : isQuotedText [byte] = true := by
          simp [isQuotedText, notQuote, notEscape]
        rw [asBytes_singleton_of_ascii ascii, isQuotedText_append single]
        exact read
      · rw [isQuotedText_append (bare _ (le_toNat_of_mem_asBytes ascii))]
        exact read

theorem Argument.asBytes {text : Str} (argument : Argument text) :
    Argument (Library.asBytes text) := by
  obtain ⟨segments, plain, rfl⟩ := argument
  induction segments with
  | nil => exact ⟨[], by simp, rfl⟩
  | cons segment segments induction =>
      obtain ⟨head, tail⟩ := List.forall_mem_cons.mp plain
      rw [List.flatMap_cons, asBytes_append]
      refine Argument.append ?_ (induction tail)
      cases segment with
      | bare text => exact .bare (isQuotedText_asBytes head)
      | quoted text =>
          have plainBytes : ∀ byte ∈ Library.asBytes text,
              byte ∉ metacharacters := by
            intro byte member special
            have ascii : byte.toNat < 128 :=
              (by decide : IsAscii metacharacters) byte special
            exact head byte ((mem_asBytes_iff ascii).mp member) special
          rw [Segment.render, asBytes_cons_of_ascii (by decide), asBytes_append]
          exact .quoted plainBytes

/-! ## The commands -/

def echoWord : Str :=
  "echo ".toList

/-- `echo '`. -/
def echoQuote : Str :=
  echoWord ++ ['\'']

def andThen : Str :=
  " ; ".toList

/-- `echo 'text' ; command`. -/
def echoQuoted (text command : Str) : Str :=
  echoQuote ++ (text ++ '\'' :: (andThen ++ command))

def gitCommit : Str :=
  "git commit -m".toList

/-- `git commit -m "$(echo 'text' ; command)"`. -/
def commit (text command : Str) : Str :=
  quote gitCommit (substitution (echoQuoted text command))

/-- The text and its closing quote do not close the parenthesis around. -/
def NoEarlyClose (text : Str) : Prop :=
  (parenDepth 1 (text ++ ['\''])).isSome

instance (text : Str) : Decidable (NoEarlyClose text) :=
  inferInstanceAs (Decidable ((parenDepth 1 (text ++ ['\''])).isSome = true))

/-- The quoted text stays whole in the leg it starts in, which is the first
one, and the command is a leg. -/
def KeepsQuoted (text command : Str) : Prop :=
  command ∈ splitCompound (substitution (echoQuoted text command)) ∧
    ∃ leg legs,
      splitCompound (substitution (echoQuoted text command)) = leg :: legs ∧
        '\'' :: (asBytes (asBytes text) ++ ['\'']) <:+: leg

section

variable {text command : Str}

theorem asBytes_echoQuoted (simple : SimpleCommand command) :
    asBytes (echoQuoted text command) = echoQuoted (asBytes text) command := by
  have front := asBytes_of_ascii (by decide : IsAscii echoQuote)
  have middle := asBytes_of_ascii (by decide : IsAscii andThen)
  have back := asBytes_of_ascii simple.ascii
  rw [echoQuoted, asBytes_append, asBytes_append,
    asBytes_cons_of_ascii (by decide), asBytes_append, front, middle, back,
    echoQuoted]

theorem NoEarlyClose.asBytes (closes : NoEarlyClose text) :
    NoEarlyClose (Library.asBytes text) := by
  have quote : Library.asBytes (text ++ ['\'']) =
      Library.asBytes text ++ ['\''] := by
    rw [asBytes_append]
    congr 1
  rw [NoEarlyClose, ← quote, parenDepth_asBytes]
  exact closes

theorem NoEarlyClose.of_asBytes (closes : NoEarlyClose (Library.asBytes text)) :
    NoEarlyClose text := by
  have quote : Library.asBytes (text ++ ['\'']) =
      Library.asBytes text ++ ['\''] := by
    rw [asBytes_append]
    congr 1
  rw [NoEarlyClose, ← quote, parenDepth_asBytes] at closes
  exact closes

theorem parenDepth_pos {depth after : Nat} (positive : 1 ≤ depth)
    (stays : parenDepth depth text = some after) : 1 ≤ after := by
  fun_induction parenDepth depth text with
  | case1 =>
      obtain rfl := Option.some.inj stays
      exact positive
  | case2 => simp at stays
  | case3 depth escaped text induction => exact induction positive stays
  | case4 depth text notEscape induction => exact induction (by omega) stays
  | case5 => simp at stays
  | case6 depth text nested notEscape notOpen induction =>
      exact induction (by omega) stays
  | case7 depth byte text notEscape notOpen notClose induction =>
      exact induction positive stays

theorem parenDepth_echoQuoted (simple : SimpleCommand command)
    (closes : NoEarlyClose text) :
    ∃ after, parenDepth 1 (echoQuoted text command) = some after ∧ 1 ≤ after := by
  obtain ⟨after, read⟩ := Option.isSome_iff_exists.mp closes
  have front := parenDepth_of_bare
    (by decide : ∀ char ∈ echoQuote, char ∉ ['\\', '(', ')']) 1
  have middle := parenDepth_of_bare
    (by decide : ∀ char ∈ andThen, char ∉ ['\\', '(', ')']) after
  have shape : echoQuoted text command =
      echoQuote ++ ((text ++ ['\'']) ++ (andThen ++ command)) := by
    simp only [echoQuoted, List.append_assoc, List.cons_append, List.nil_append]
  refine ⟨after, ?_, parenDepth_pos le_rfl read⟩
  rw [shape, parenDepth_append front, parenDepth_append read,
    parenDepth_append middle, simple.parenDepth_eq]

/-- The body of the substitution, with what follows it when the text leaves a
parenthesis open. -/
theorem extractParenBody_echoQuoted (simple : SimpleCommand command)
    (closes : NoEarlyClose text) {rest : Str}
    (bare : ∀ char ∈ rest, char ∉ ['\\', '(', ')']) :
    ∃ tail advanced,
      extractParenBody (echoQuoted text command ++ ')' :: rest) 1 =
        (echoQuoted text command ++ tail, advanced) ∧
      ((tail = [] ∧ advanced = (echoQuoted text command).length + 1) ∨
        (tail = ')' :: rest ∧
          advanced = (echoQuoted text command ++ ')' :: rest).length)) := by
  have copied : ∀ depth, extractParenBody rest depth = (rest, rest.length) := by
    intro depth
    have read := extractParenBody_append (parenDepth_of_bare bare depth) []
    simpa using read
  obtain ⟨after, read, positive⟩ := parenDepth_echoQuoted simple closes
  rw [extractParenBody_append read]
  by_cases last : after = 1
  · subst last
    exact ⟨[], _, by simp, .inl ⟨rfl, rfl⟩⟩
  · rw [extractParenBody_close last, copied]
    exact ⟨_, _, rfl, .inr ⟨rfl, by simp⟩⟩

/-! ## Splitting -/

/-- The first leg of the body. -/
def echoLeg (text : Str) : Str :=
  echoQuote ++ (text ++ ['\''])

theorem trim_echoLeg : trim (echoLeg text) = echoLeg text := by
  apply trim_of_ends
  · intro first firstEq
    obtain rfl := Option.some.inj firstEq
    decide
  · simp only [echoLeg, ← List.append_assoc, List.getLast?_concat,
      Option.mem_def, Option.some.injEq]
    rintro _ rfl
    decide

theorem walk_echoQuoted {split : Str → List Str} (simple : SimpleCommand command)
    (noQuote : '\'' ∉ text) {rest : Str} (noOpen : rest.head? ≠ some '(') :
    walk (splitStep split []) (echoQuoted text command ++ rest) 0 .start =
      walk (splitStep split []) rest 0
        { result := [echoLeg text], current := ' ' :: command
          inDouble := false, inSingle := false } := by
  have words : ∀ char ∈ echoWord, char ∉ metacharacters := by decide
  have blank : ∀ char ∈ [' '], char ∉ metacharacters := by decide
  have shape : echoQuoted text command ++ rest =
      echoWord ++ '\'' :: (text ++ '\'' :: ([' '] ++ ';' :: ([' '] ++
        (command ++ rest)))) := by
    simp [echoQuoted, echoQuote, andThen]
  let read : SplitState :=
    { result := [], current := echoLeg text ++ [' ']
      inDouble := false, inSingle := false }
  have separator : splitStep split [] read ';' ([' '] ++ (command ++ rest)) =
      (read.pushLeg, 0) :=
    splitStep_separator ⟨rfl, rfl⟩ (by decide) (by simp)
  have pushed : read.pushLeg =
      { result := [echoLeg text], current := []
        inDouble := false, inSingle := false } := by
    have trimmed : trim (echoLeg text ++ [' ']) = echoLeg text := by
      rw [trim_append_of_isWhitespace (by decide), trim_echoLeg]
    have visible : (echoLeg text).isEmpty = false := by
      simp [echoLeg, echoQuote]
    simp only [read, SplitState.pushLeg, trimmed, visible]
    rfl
  have legRead : walk (splitStep split []) (echoQuoted text command ++ rest) 0
      .start = walk (splitStep split []) (';' :: ([' '] ++ (command ++ rest))) 0
        read := by
    rw [shape, walk_plain ⟨rfl, rfl⟩ words (by simp), walk_toggleSingle rfl,
      walk_single rfl noQuote rfl, walk_toggleSingle rfl,
      walk_plain ⟨rfl, rfl⟩ blank (by simp)]
    simp [read, SplitState.start, SplitState.pushAll, SplitState.push, echoLeg,
      echoQuote]
  rw [legRead, walk_one separator, pushed]
  have headOpen : (command ++ rest).head? ≠ some '(' := by
    cases command with
    | nil => exact noOpen
    | cons first more =>
        intro opens
        obtain rfl := Option.some.inj opens
        exact simple.not_mem (by simp) List.mem_cons_self
  rw [walk_plain ⟨rfl, rfl⟩ blank headOpen, simple.walk rfl noOpen]
  simp [SplitState.pushAll]

/-- The legs of a body that ends where the substitution does, or that runs on
to the end of the line. -/
theorem splitCompound_echoQuoted (simple : SimpleCommand command)
    (noQuote : '\'' ∉ text) {tail : Str}
    (ends : tail = [] ∨ tail = [')'] ∨ tail = [')', '"']) :
    splitCompound (echoQuoted text command ++ tail) =
      echoLeg (asBytes text) :: command ::
        (if tail = [')', '"'] then [['"']] else []) := by
  have noBytes : '\'' ∉ asBytes text := fun member =>
    noQuote ((mem_asBytes_iff (by decide)).mp member)
  have trimmed : trim (' ' :: command) = command := by
    rw [trim_cons_of_isWhitespace (by decide), simple.trimmed]
  have empty : trim [] = [] := rfl
  have quote : trim ['"'] = ['"'] := by decide
  have asciiTail : asBytes tail = tail := by
    rcases ends with rfl | rfl | rfl <;> decide
  rw [Gate.splitCompound_eq, asBytes_append, asBytes_echoQuoted simple, asciiTail]
  rcases ends with rfl | rfl | rfl
  · rw [walk_echoQuoted simple noBytes (by simp), walk_nil]
    simp [SplitState.pushLeg, trimmed, simple.nonempty]
  · rw [walk_echoQuoted simple noBytes (by simp),
      walk_one (splitStep_separator ⟨rfl, rfl⟩ (by decide) (by simp)), walk_nil]
    simp [SplitState.pushLeg, trimmed, simple.nonempty, empty]
  · rw [walk_echoQuoted simple noBytes (by simp),
      walk_one (splitStep_separator ⟨rfl, rfl⟩ (by decide) (by simp)),
      walk_openDouble ⟨rfl, rfl⟩, walk_nil]
    simp [SplitState.pushLeg, SplitState.push, trimmed, simple.nonempty, quote]

/-- A text that closes the parenthesis does so at some closing one. -/
theorem exists_close_of_parenDepth {depth : Nat}
    (early : parenDepth depth (text ++ ['\'']) = none) :
    ∃ before after, text = before ++ ')' :: after ∧
      parenDepth depth before = some 1 := by
  have quoteCopied : ∀ depth, parenDepth depth ['\''] = some depth := fun depth =>
    parenDepth_of_bare (by decide) depth
  fun_induction parenDepth depth text with
  | case1 depth => simp [quoteCopied] at early
  | case2 depth => simp at early
  | case3 depth escaped text induction =>
      obtain ⟨before, after, rfl, read⟩ := induction (by simpa using early)
      exact ⟨'\\' :: escaped :: before, after, rfl, by simpa using read⟩
  | case4 depth text notEscape induction =>
      obtain ⟨before, after, rfl, read⟩ := induction (by simpa using early)
      exact ⟨'(' :: before, after, rfl, by simpa using read⟩
  | case5 text => exact ⟨[], text, rfl, rfl⟩
  | case6 depth text nested notEscape notOpen induction =>
      rw [List.cons_append, parenDepth_close nested] at early
      obtain ⟨before, after, rfl, read⟩ := induction early
      refine ⟨')' :: before, after, rfl, ?_⟩
      rw [parenDepth_close nested, read]
  | case7 depth byte text notEscape notOpen notClose induction =>
      have bare : byte ∉ ['\\', '(', ')'] := by simp [*]
      rw [List.cons_append, parenDepth_copy bare] at early
      obtain ⟨before, after, rfl, read⟩ := induction early
      refine ⟨byte :: before, after, rfl, ?_⟩
      rw [parenDepth_copy bare, read]

theorem exists_of_not_noEarlyClose (early : ¬ NoEarlyClose text) :
    ∃ before after, text = before ++ ')' :: after ∧
      parenDepth 1 before = some 1 :=
  exists_close_of_parenDepth (Option.not_isSome_iff_eq_none.mp early)

/-- The extraction stops at the parenthesis that the text closes. -/
theorem extractParenBody_early {before : Str}
    (read : parenDepth 1 before = some 1) (after rest : Str) :
    extractParenBody (echoQuoted (before ++ ')' :: after) command ++ rest) 1 =
      (echoQuote ++ before, (echoQuote ++ before).length + 1) := by
  have front := parenDepth_of_bare
    (by decide : ∀ char ∈ echoQuote, char ∉ ['\\', '(', ')']) 1
  have shape : echoQuoted (before ++ ')' :: after) command ++ rest =
      (echoQuote ++ before) ++
        ')' :: (after ++ '\'' :: (andThen ++ (command ++ rest))) := by
    simp only [echoQuoted, List.append_assoc, List.cons_append]
  rw [shape]
  apply extractParenBody_closed
  rw [parenDepth_append front, read]

/-- The leg of an unfinished quote. -/
theorem splitCompound_openQuote (noQuote : '\'' ∉ text) :
    splitCompound (echoQuote ++ text) = [trim (echoQuote ++ asBytes text)] := by
  have noBytes : '\'' ∉ asBytes text := fun member =>
    noQuote ((mem_asBytes_iff (by decide)).mp member)
  have words : ∀ char ∈ echoWord, char ∉ metacharacters := by decide
  have front := asBytes_of_ascii (by decide : IsAscii echoQuote)
  have shape : echoQuote ++ asBytes text =
      echoWord ++ '\'' :: (asBytes text ++ []) := by
    simp [echoQuote]
  rw [Gate.splitCompound_eq, asBytes_append, front]
  nth_rewrite 1 [shape]
  rw [walk_plain ⟨rfl, rfl⟩ words (by simp), walk_toggleSingle rfl,
    walk_single rfl noBytes rfl, walk_nil]
  have leg : echoWord ++ ['\''] ++ asBytes text = echoQuote ++ asBytes text := by
    rw [echoQuote]
  have visible : (trim (echoQuote ++ asBytes text)).isEmpty = false := by
    obtain ⟨more, word⟩ :=
      List.head?_eq_some_iff.mp (by decide : echoQuote.head? = some 'e')
    rw [word, List.cons_append, List.isEmpty_eq_false_iff]
    exact trim_cons_ne_nil (by decide) _
  simp only [SplitState.pushLeg, SplitState.start, SplitState.pushAll,
    SplitState.push, List.nil_append, leg, visible]
  rfl

theorem asBytes_substitution (body : Str) :
    asBytes (substitution body) = substitution (asBytes body) := by
  rw [substitution, asBytes_cons_of_ascii (by decide),
    asBytes_cons_of_ascii (by decide), asBytes_append, substitution]
  congr 1

theorem splitCompound_substitution (simple : SimpleCommand command)
    (noQuote : '\'' ∉ text) (closes : NoEarlyClose text) :
    splitCompound (substitution (echoQuoted text command)) =
      [echoLeg (asBytes (asBytes text)), command] := by
  have noBytes : '\'' ∉ asBytes text := fun member =>
    noQuote ((mem_asBytes_iff (by decide)).mp member)
  obtain ⟨tail, advanced, extracted, ends⟩ :=
    extractParenBody_echoQuoted simple closes.asBytes
      (by decide : ∀ char ∈ [], char ∉ ['\\', '(', ')'])
  have consumed :
      (echoQuoted (asBytes text) command ++ [')']).drop advanced = [] := by
    rcases ends with ⟨-, rfl⟩ | ⟨-, rfl⟩ <;> simp
  have legs := @splitCompound_echoQuoted _ _ simple noBytes tail
    (ends.imp (·.1) fun long => .inl long.1)
  have short : tail ≠ [')', '"'] := by
    rcases ends with ⟨rfl, -⟩ | ⟨rfl, -⟩ <;> decide
  rw [if_neg short] at legs
  rw [Gate.splitCompound_eq, asBytes_substitution, asBytes_echoQuoted simple,
    substitution, walk_opener ⟨rfl, rfl⟩ (by simp) extracted, consumed, walk_nil,
    legs]
  rfl

/-- When the text closes the parenthesis, the first leg is what stands before
that, with its quote open. -/
theorem splitCompound_substitution_early (simple : SimpleCommand command)
    {before after : Str} (noQuote : '\'' ∉ before)
    (bytes : asBytes text = before ++ ')' :: after)
    (read : parenDepth 1 before = some 1) :
    ∃ legs, splitCompound (substitution (echoQuoted text command)) =
      trim (echoQuote ++ asBytes before) :: legs := by
  have opened : SplitState.start.Outside := ⟨rfl, rfl⟩
  have extracted := @extractParenBody_early command _ read after [')']
  have result : (SplitState.start.pushLeg.extend
      (splitCompound (echoQuote ++ before))).result =
        [trim (echoQuote ++ asBytes before)] := by
    rw [splitCompound_openQuote noQuote]
    rfl
  rw [Gate.splitCompound_eq, asBytes_substitution, asBytes_echoQuoted simple,
    bytes, substitution, walk_opener opened (by simp) extracted]
  obtain ⟨legs, split⟩ := result_prefix_walk _ _
  rw [result] at split
  exact ⟨legs, split.symm⟩

/-- The quoted text is kept whole exactly when it does not close the
parenthesis around it. -/
theorem keepsQuoted_iff (simple : SimpleCommand command) (noQuote : '\'' ∉ text) :
    KeepsQuoted text command ↔ NoEarlyClose text := by
  constructor
  · rintro ⟨-, leg, legs, split, whole⟩
    by_contra early
    obtain ⟨before, after, bytes, read⟩ :=
      exists_of_not_noEarlyClose (mt NoEarlyClose.of_asBytes early)
    have noBytes : '\'' ∉ before := by
      intro member
      refine noQuote ((mem_asBytes_iff (by decide)).mp ?_)
      rw [bytes]
      exact List.mem_append_left _ member
    have noReread : '\'' ∉ asBytes before := fun member =>
      noBytes ((mem_asBytes_iff (by decide)).mp member)
    obtain ⟨others, cut⟩ :=
      splitCompound_substitution_early simple noBytes bytes read
    obtain rfl : leg = trim (echoQuote ++ asBytes before) :=
      (List.cons.inj (split.symm.trans cut)).1
    -- One quote is left in the first leg, and a whole quoted text has two.
    have few := (trim_sublist (echoQuote ++ asBytes before)).count_le '\''
    have many := whole.sublist.count_le '\''
    have opening : echoQuote.count '\'' = 1 := by decide
    simp only [List.count_append, opening, List.count_eq_zero_of_not_mem noReread]
      at few
    simp only [List.count_cons_self, List.count_append, List.count_nil] at many
    omega
  · intro closes
    have split := splitCompound_substitution simple noQuote closes
    refine ⟨by simp [split], _, _, split, ?_⟩
    exact ⟨echoWord, [], by simp [echoLeg, echoQuote]⟩

/-! ## Line continuations in the text -/

def commitOpening : Str :=
  gitCommit ++ ' ' :: '"' :: '$' :: '(' :: echoQuote

def commitClosing (command : Str) : Str :=
  '\'' :: (andThen ++ (command ++ [')', '"']))

theorem commit_eq (text command : Str) :
    commit text command = commitOpening ++ (text ++ commitClosing command) := by
  simp only [commit, quote, substitution, echoQuoted, commitOpening,
    commitClosing, List.append_assoc, List.cons_append, List.nil_append]

/-- The quoted text after the line-continuation pass over the commit. -/
def joinedText (text command : Str) : Str :=
  if byteLen (commit text command) > maxNormalizeBytes then text
  else
    (walk joinStep (asBytes text) 0
      { out := commitOpening, budget := Budget.fresh }).out.drop
        commitOpening.length

/-- A step copies its byte, or drops it and skips an ending line. -/
theorem joinStep_cases (state : JoinState) (byte : Char) (rest : Str) :
    joinStep state byte rest = (state.push byte, 0) ∨
      ∃ budget skip, joinStep state byte rest = ({ state with budget }, skip) ∧
        (skip = 1 ∧ rest.head? = some '\n' ∨
          skip = 2 ∧ rest.head? = some '\r' ∧ rest.tail.head? = some '\n') := by
  unfold joinStep
  rcases state.budget.allow (byteLen state.out) with ⟨allowed, budget⟩
  by_cases short : byte = '\\' ∧ rest.head? = some '\n'
  · rw [if_pos short]
    cases allowed with
    | false => exact .inl rfl
    | true => exact .inr ⟨budget, 1, rfl, .inl ⟨rfl, short.2⟩⟩
  · rw [if_neg short]
    by_cases long : byte = '\\' ∧ rest.head? = some '\r' ∧
        rest.tail.head? = some '\n'
    · rw [if_pos long]
      cases allowed with
      | false => exact .inl rfl
      | true => exact .inr ⟨budget, 2, rfl, .inr ⟨rfl, long.2⟩⟩
    · rw [if_neg long]
      exact .inl rfl

theorem joinStep_out (state : JoinState) (byte : Char) (rest : Str) :
    (joinStep state byte rest).1.out = state.out ∨
      (joinStep state byte rest).1.out = state.out ++ [byte] := by
  rcases joinStep_cases state byte rest with copied | ⟨budget, skip, dropped, _⟩
  · rw [copied]
    exact .inr rfl
  · rw [dropped]
    exact .inl rfl

theorem joinStep_skip_le (state : JoinState) (byte : Char) (rest : Str) :
    (joinStep state byte rest).2 ≤ rest.length := by
  rcases joinStep_cases state byte rest with copied |
    ⟨budget, skip, dropped, ⟨rfl, lineFeed⟩ | ⟨rfl, _, lineFeed⟩⟩
  · rw [copied]
    exact Nat.zero_le _
  · rw [dropped]
    cases rest with
    | nil => cases lineFeed
    | cons first rest => simp
  · rw [dropped]
    rcases rest with _ | ⟨first, _ | ⟨second, rest⟩⟩
    · cases lineFeed
    · cases lineFeed
    · simp

/-- The pass only drops bytes. -/
theorem walk_join_out (items : Str) (state : JoinState) :
    ∃ text, (walk joinStep items 0 state).out = state.out ++ text ∧
      text ⊆ items := by
  refine @walk_invariant _ _ _ (fun next : JoinState =>
    ∃ text, next.out = state.out ++ text ∧ text ⊆ items) _
    (fun next byte rest suffix found => ?_) 0 _ ⟨[], by simp, by simp⟩
  obtain ⟨text, out, subset⟩ := found
  rcases joinStep_out next byte rest with same | pushed
  · exact ⟨text, same.trans out, subset⟩
  · refine ⟨text ++ [byte], by rw [pushed, out, List.append_assoc], ?_⟩
    intro char member
    rcases List.mem_append.mp member with earlier | last
    · exact subset earlier
    · obtain rfl := List.mem_singleton.mp last
      exact suffix.subset List.mem_cons_self

theorem joinedText_subset (text command : Str) :
    ∀ char, char.toNat < 128 → char ∈ joinedText text command → char ∈ text := by
  intro char ascii member
  unfold joinedText at member
  split_ifs at member
  · exact member
  · obtain ⟨joined, out, subset⟩ := walk_join_out (asBytes text)
      { out := commitOpening, budget := Budget.fresh }
    rw [out, List.drop_left] at member
    exact (mem_asBytes_iff ascii).mp (subset member)

theorem walk_join_plain {run : Str} (noEscape : '\\' ∉ run) (rest : Str)
    (state : JoinState) :
    walk joinStep (run ++ rest) 0 state =
      walk joinStep rest 0 { state with out := state.out ++ run } := by
  induction run generalizing state with
  | nil => simp
  | cons char run induction =>
      obtain ⟨head, tail⟩ := not_or.mp (mt List.mem_cons.mpr noEscape)
      have step : joinStep state char (run ++ rest) = (state.push char, 0) := by
        simp [joinStep, Ne.symm head]
      rw [List.cons_append, walk_one step, induction tail]
      simp [JoinState.push]

/-- The pass does not look across the quote after the text. -/
theorem walk_join_quote (bytes rest : Str) (state : JoinState) :
    walk joinStep (bytes ++ '\'' :: rest) 0 state =
      walk joinStep ('\'' :: rest) 0 (walk joinStep bytes 0 state) := by
  apply walk_append
  intro state byte more _
  refine ⟨?_, joinStep_skip_le state byte more⟩
  rcases more with _ | ⟨first, _ | ⟨second, more⟩⟩
  · simp [joinStep]
  · simp [joinStep]
  · simp [joinStep]

theorem walk_join_commit (simple : SimpleCommand command)
    (fits : ¬ byteLen (commit text command) > maxNormalizeBytes) :
    (walk joinStep (asBytes (commit text command)) 0
      { out := [], budget := Budget.fresh }).out =
        commit (joinedText text command) command := by
  have opening := asBytes_of_ascii (by decide : IsAscii commitOpening)
  have closing : asBytes (commitClosing command) = commitClosing command := by
    refine asBytes_of_ascii ?_
    simp [commitClosing, simple.ascii, (by decide : IsAscii andThen)]
  have noEscape : '\\' ∉ commitClosing command := by
    have body := simple.not_mem (by simp : '\\' ∈ ['\\', '`', '(', ')'])
    simp [commitClosing, body, andThen]
  obtain ⟨joined, out, -⟩ := walk_join_out (asBytes text)
    { out := commitOpening, budget := Budget.fresh }
  have found : joinedText text command = joined := by
    rw [joinedText, if_neg fits, out, List.drop_left]
  rw [commit_eq, asBytes_append, asBytes_append, opening, closing,
    walk_join_plain (by decide), commitClosing, List.nil_append, walk_join_quote,
    ← commitClosing, ← List.append_nil (commitClosing command),
    walk_join_plain noEscape, walk_nil]
  simp only [out]
  rw [commit_eq, found, List.append_assoc]

/-! ## The normalized commit -/

theorem printingHead_gitCommit : PrintingHead gitCommit :=
  ⟨by decide, by decide, by decide, by decide⟩

/-- A text read as bytes any number of times. -/
inductive Reread (text : Str) : Str → Prop where
  | same : Reread text text
  | bytes {reread : Str} : Reread text reread → Reread text (asBytes reread)

/-- The text and its closing quote pass for a part of the argument around. -/
def QuotesApart (text : Str) : Prop :=
  Argument (text ++ ['\''])

theorem QuotesApart.asBytes (apart : QuotesApart text) :
    QuotesApart (Library.asBytes text) := by
  have bytes := Argument.asBytes apart
  rwa [asBytes_append, asBytes_of_ascii (by decide : IsAscii ['\''])] at bytes

/-- Without a double quote nothing ends the argument early: its closing quote
completes the last escape. -/
theorem QuotesApart.of_not_mem (noDouble : '"' ∉ text) : QuotesApart text := by
  refine .bare ?_
  fun_induction isQuotedText text with
  | case1 => decide
  | case2 => simp at noDouble
  | case3 => decide
  | case4 escaped text notQuote induction =>
      simp only [List.mem_cons, not_or] at noDouble
      rw [List.cons_append, List.cons_append, isQuotedText.eq_def]
      simp [Ne.symm noDouble.2.1, induction noDouble.2.2]
  | case5 byte text notQuote notEscape induction =>
      simp only [List.mem_cons, not_or] at noDouble
      rw [List.cons_append, isQuotedText.eq_def]
      simp [notQuote, notEscape, induction noDouble.2]

namespace Reread

variable {reread : Str}

theorem apart (read : Reread text reread) (apart : QuotesApart text) :
    QuotesApart reread := by
  induction read with
  | same => exact apart
  | bytes _ induction => exact induction.asBytes

theorem noEarlyClose (read : Reread text reread) (closes : NoEarlyClose text) :
    NoEarlyClose reread := by
  induction read with
  | same => exact closes
  | bytes _ induction => exact induction.asBytes

theorem of_asBytes (read : Reread (Library.asBytes text) reread) :
    Reread text reread := by
  induction read with
  | same => exact .bytes .same
  | bytes _ induction => exact .bytes induction

theorem not_mem (read : Reread text reread) {char : Char}
    (ascii : char.toNat < 128) (absent : char ∉ text) : char ∉ reread := by
  induction read with
  | same => exact absent
  | bytes _ induction => exact fun member => induction ((mem_asBytes_iff ascii).mp member)

end Reread

theorem argument_commit (simple : SimpleCommand command)
    (apart : QuotesApart text) :
    Argument (substitution (echoQuoted text command)) := by
  have front : Argument echoQuote :=
    .bare (isQuotedText_of_not_mem (by decide))
  have middle : Argument andThen :=
    .bare (isQuotedText_of_not_mem (by decide))
  have shape : echoQuoted text command =
      echoQuote ++ ((text ++ ['\'']) ++ (andThen ++ command)) := by
    simp only [echoQuoted, List.append_assoc, List.cons_append, List.nil_append]
  rw [shape]
  exact (front.append (apart.append (middle.append simple.argument))).substitution

theorem asBytes_commit (simple : SimpleCommand command) :
    asBytes (commit text command) = commit (asBytes text) command := by
  rw [commit, printingHead_gitCommit.asBytes_quote, asBytes_substitution,
    asBytes_echoQuoted simple, commit]

theorem decodeAnsiC_commit (simple : SimpleCommand command)
    (apart : QuotesApart (asBytes text)) (budget : Budget) :
    (decodeAnsiC (commit text command) budget).1 = commit text command ∨
      (decodeAnsiC (commit text command) budget).1 =
        commit (asBytes text) command := by
  rw [decodeAnsiC]
  split_ifs
  · exact .inl rfl
  · refine .inr ?_
    simp only [asBytes_commit simple]
    exact printingHead_gitCommit.walkRewriter ansiCStep_rewrites
      (argument_commit simple apart) budget

theorem spliceEchoSubstitution_commit (simple : SimpleCommand command)
    (apart : QuotesApart (asBytes text)) (budget : Budget) :
    (spliceEchoSubstitution (commit text command) budget).1 =
      commit (asBytes text) command := by
  have opens : contains (commit text command) "$(".toList = true := by
    rw [contains, decide_eq_true_iff]
    refine ⟨gitCommit ++ [' ', '"'],
      echoQuoted text command ++ [')', '"'], ?_⟩
    have pair : "$(".toList = ['$', '('] := by decide
    rw [pair]
    simp only [commit, quote, substitution, List.append_assoc, List.cons_append,
      List.nil_append]
  rw [spliceEchoSubstitution,
    if_neg fun absent => Bool.noConfusion (opens.symm.trans absent.1)]
  simp only [asBytes_commit simple]
  exact printingHead_gitCommit.walkRewriter echoStep_rewrites
    (argument_commit simple apart) budget

/-- Decoding and splicing only re-read the text. -/
theorem rewrites_commit (simple : SimpleCommand command)
    (apart : QuotesApart (asBytes text)) (budget other : Budget) :
    ∃ reread, Reread (asBytes text) reread ∧
      (spliceEchoSubstitution (decodeAnsiC (commit text command) budget).1
        other).1 = commit reread command := by
  rcases decodeAnsiC_commit simple apart budget with same | bytes
  · rw [same, spliceEchoSubstitution_commit simple apart]
    exact ⟨_, .same, rfl⟩
  · rw [bytes, spliceEchoSubstitution_commit simple apart.asBytes]
    exact ⟨_, .bytes .same, rfl⟩

theorem mem_escape_commit (simple : SimpleCommand command) :
    '\\' ∈ commit text command ↔ '\\' ∈ text := by
  have body := simple.not_mem (by simp : '\\' ∈ ['\\', '`', '(', ')'])
  have opening : '\\' ∉ commitOpening := by decide
  have middle : '\\' ∉ andThen := by decide
  simp [commit_eq, opening, commitClosing, middle, body]

theorem joinedText_of_not_mem (noEscape : '\\' ∉ text)
    (fits : ¬ byteLen (commit text command) > maxNormalizeBytes) :
    joinedText text command = asBytes text := by
  have absent : '\\' ∉ asBytes text := fun member =>
    noEscape ((mem_asBytes_iff (by decide)).mp member)
  have run := walk_join_plain absent []
    { out := commitOpening, budget := Budget.fresh }
  rw [List.append_nil, walk_nil] at run
  rw [joinedText, if_neg fits, run, List.drop_left]

theorem normalizeCommand_command {line : Str}
    (fits : ¬ byteLen line > maxNormalizeBytes) :
    (normalizeCommand line).command =
      (spliceEchoSubstitution
        (decodeAnsiC (joinLineContinuations line Budget.fresh).1
          (joinLineContinuations line Budget.fresh).2).1
        (decodeAnsiC (joinLineContinuations line Budget.fresh).1
          (joinLineContinuations line Budget.fresh).2).2).1 := by
  rw [normalizeCommand, if_neg fits]
  rfl

/-- Normalization of the commit joins continuations and re-reads the text. -/
theorem scanInput_commit (simple : SimpleCommand command)
    (apart : QuotesApart (joinedText text command)) :
    ∃ reread, Reread (joinedText text command) reread ∧
      (scanInput (commit text command) .default).command =
        commit reread command := by
  have normalized : scanInput (commit text command) .default =
      normalizeCommand (commit text command) := rfl
  rw [normalized]
  by_cases large : byteLen (commit text command) > maxNormalizeBytes
  · rw [normalizeCommand, if_pos large, joinedText, if_pos large]
    exact ⟨text, .same, rfl⟩
  · rw [normalizeCommand_command large]
    by_cases escapes : '\\' ∈ text
    · have joined : (joinLineContinuations (commit text command) Budget.fresh).1 =
          commit (joinedText text command) command := by
        rw [joinLineContinuations,
          if_neg (not_not.mpr ((mem_escape_commit simple).mpr escapes))]
        exact walk_join_commit simple large
      rw [joined]
      obtain ⟨reread, read, spliced⟩ :=
        rewrites_commit simple apart.asBytes _ _
      exact ⟨reread, read.of_asBytes, spliced⟩
    · have joined := joinLineContinuations_of_not_mem
        (mt (mem_escape_commit simple).mp escapes) Budget.fresh
      have bytes := joinedText_of_not_mem escapes large
      rw [joined]
      rw [bytes] at apart ⊢
      exact rewrites_commit simple apart _ _

/-! ## The hidden command -/

/-- The substitution is live, and its body still ends with the command. -/
theorem liveBody_commit (simple : SimpleCommand command)
    (closes : NoEarlyClose text) :
    ∃ tail, (tail = [] ∨ tail = [')'] ∨ tail = [')', '"']) ∧
      echoQuoted (asBytes text) command ++ tail ∈
        liveSubstitutionBodies (commit text command) := by
  obtain ⟨tail, advanced, extracted, ends⟩ :=
    extractParenBody_echoQuoted simple closes.asBytes
      (by decide : ∀ char ∈ ['"'], char ∉ ['\\', '(', ')'])
  have prints : isNonExecutingVerb (commit text command) = true :=
    printingHead_gitCommit.leg _
  have words := printingHead_gitCommit.not_mem_words
    (by decide : ['\\', '"', '\''] ⊆ '$' :: metacharacters)
  have shape : commit (asBytes text) command = (gitCommit ++ [' ']) ++
      '"' :: '$' :: '(' :: (echoQuoted (asBytes text) command ++ [')', '"']) := by
    simp only [commit, quote, substitution, List.append_assoc, List.cons_append,
      List.nil_append]
  refine ⟨tail, ends.imp (·.1) fun long => .inr long.1, ?_⟩
  rw [liveSubstitutionBodies_of_printing prints, extractDoubleQuotedSubstitutions,
    asBytes_commit simple, shape, walk_substWords (by decide) rfl words,
    walk_substQuote (by decide) rfl,
    walk_substOpener (by decide) rfl rfl extracted]
  apply bodies_subset_walk
  simp

/-- A commit whose quoted text, after the line-continuation pass, neither
closes the parenthesis nor splits the argument around it does not hide the
command after the text. -/
theorem evaluate_commit_block [Base64Engine] (simple : SimpleCommand command)
    (rated : RatedBlock command) (executes : isNonExecutingVerb command = false)
    (noQuote : '\'' ∉ text) (apart : QuotesApart (joinedText text command))
    (closes : NoEarlyClose (joinedText text command)) :
    (evaluate (commit text command) .default).tier = .block := by
  obtain ⟨reread, read, scanned⟩ := scanInput_commit simple apart
  have noJoined : '\'' ∉ joinedText text command := fun member =>
    noQuote (joinedText_subset text command _ (by decide) member)
  have noReread : '\'' ∉ reread := read.not_mem (by decide) noJoined
  have leg := (Reread.bytes (.bytes read))
  have argument : Argument (asBytes (substitution (echoQuoted reread command))) := by
    rw [asBytes_substitution, asBytes_echoQuoted simple]
    exact argument_commit simple (read.apart apart).asBytes
  have split : splitCompound (scanInput (commit text command) .default).command =
      [] ++ commit (asBytes reread) command :: [] := by
    rw [scanned, commit, printingHead_gitCommit.splitCompound_quote argument,
      asBytes_substitution, asBytes_echoQuoted simple]
    rfl
  refine evaluate_block_of_leg split (by simp) ?_
  rw [asBytes_commit simple]
  obtain ⟨tail, ends, live⟩ :=
    liveBody_commit simple (leg.noEarlyClose closes)
  obtain ⟨hit, legHit, severe⟩ := rated.legHit .default 1
  refine ⟨hit, .live (by decide) live (.leg ?_ executes legHit), severe⟩
  have noLeg : '\'' ∉ asBytes (asBytes (asBytes reread)) :=
    (Reread.bytes leg).not_mem (by decide) noJoined
  rw [splitCompound_echoQuoted simple noLeg ends]
  exact List.mem_cons_of_mem _ List.mem_cons_self

end

/-- The quoted text is kept whole exactly when it does not close the
parenthesis around it, and the command after it is then rated. -/
theorem commit_respectsQuotes_iff [Base64Engine] {text command : Str}
    (simple : SimpleCommand command) (rated : RatedBlock command)
    (noQuote : '\'' ∉ text) :
    (KeepsQuoted text command ↔ NoEarlyClose text) ∧
      (isNonExecutingVerb command = false →
        QuotesApart (joinedText text command) →
          NoEarlyClose (joinedText text command) →
            (evaluate (commit text command) .default).tier = .block) :=
  ⟨keepsQuoted_iff simple noQuote, fun executes apart closes =>
    evaluate_commit_block simple rated executes noQuote apart closes⟩

theorem commit_respectsQuotes_iff_open :
    KeepsQuoted "a(b".toList "rm -rf ~".toList ∧
      (@evaluate .standard (commit "a(b".toList "rm -rf ~".toList)
        .default).tier = .block := by
  have respects := @commit_respectsQuotes_iff .standard "a(b".toList
    "rm -rf ~".toList (.of_words (by decide) (by decide) (by decide) (by decide))
    (by decide) (by decide)
  exact ⟨respects.1.mpr (by decide),
    respects.2 (by decide) (.of_not_mem (by decide)) (by decide)⟩

/-- A closing parenthesis in the quoted text ends the body inside the quotes,
and the command is never seen. -/
theorem close_hides_command :
    SimpleCommand "rm -rf ~".toList ∧ RatedBlock "rm -rf ~".toList ∧
      isNonExecutingVerb "rm -rf ~".toList = false ∧
      (@evaluate .standard (commit ")".toList "rm -rf ~".toList)
        .default).tier = .allow ∧
      ¬ KeepsQuoted ")".toList "rm -rf ~".toList := by
  refine ⟨.of_words (by decide) (by decide) (by decide) (by decide),
    by decide +kernel, by decide, by decide +kernel, fun kept => ?_⟩
  have absent : "rm -rf ~".toList ∉ splitCompound
      (substitution (echoQuoted ")".toList "rm -rf ~".toList)) := by
    decide
  exact absent kept.1

end TrustLayer.AgentGuard.Gate
