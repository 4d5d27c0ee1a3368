import TrustLayer.Library.Text
import TrustLayer.Library.Walk

/-!
# Redaction for the audit log

The redactor reads a command word by word.  What it carries from one word to
the next is only whether the value of an `Authorization:` header is still to
come.
-/

namespace TrustLayer.AgentGuard.Audit

open TrustLayer.Library

/-! ## Secret names -/

/-- `char::to_ascii_uppercase`. -/
def toAsciiUpper (char : Char) : Char :=
  if 'a' ≤ char ∧ char ≤ 'z' then Char.ofNat (char.toNat - 32) else char

def suffixes : List String :=
  ["_API_KEY", "_KEY", "_TOKEN", "_SECRET", "_PASSWORD", "_PASSWD", "KEY",
    "TOKEN", "SECRET", "PASSWORD", "PASSWD"]

def prefixes : List String :=
  ["ANTHROPIC_", "OPENAI_", "AWS_", "GCP_", "AZURE_", "GITHUB_", "GITLAB_",
    "STRIPE_"]

def secretNames : List String :=
  ["GITHUB_TOKEN", "GH_TOKEN", "NPM_TOKEN", "DATABASE_URL", "REDIS_URL"]

def isSecretName (name : Str) : Bool :=
  let up := name.map toAsciiUpper
  prefixes.any (fun front => front.toList.isPrefixOf up) ||
    suffixes.any (fun back => back.toList.isSuffixOf up) ||
    secretNames.any fun known => known.toList == up

/-! ## One word -/

def isQuote (char : Char) : Bool :=
  char == '"' || char == '\''

/-- A leading quote, what is between, and a trailing quote, each on its own. -/
def stripQuotes (token : Str) : Str × Str × Str :=
  let lead := token.head?.any isQuote
  let start := if lead then 1 else 0
  let trail := decide (start < token.length) && token.getLast?.any isQuote
  let stop := if trail then token.length - 1 else token.length
  (token.take start, (token.take stop).drop start, token.drop stop)

def marker : Str := "authorization:".toList

def bearer : Str := "bearer".toList

def longFlag : Str := "--password=".toList

def shortFlag : Str := "-p".toList

def stars : Str := "***".toList

/-- The masked header, and whether its value is still to come. -/
def maskAuthorization (body : Str) (awaiting : Bool) : Option (Str × Bool) :=
  if marker.isPrefixOf (toAsciiLowercase body) then
    let head := body.take marker.length
    let tail := trimStart (body.drop marker.length)
    if tail.isEmpty then some (head ++ [' '], true)
    else
      match (stripPrefix "Bearer ".toList tail).or
          (stripPrefix "bearer ".toList tail) with
      | some _ => some (head ++ " Bearer ***".toList, awaiting)
      | none => some (head ++ " ***".toList, awaiting)
  else none

/-- `-p` joined to its value. -/
def maskShortFlag (body : Str) : Option Str :=
  match stripPrefix shortFlag body with
  | some value =>
      if ¬ value.isEmpty ∧ value.head? ≠ some '-' then
        some (shortFlag ++ stars)
      else none
  | none => none

def maskPasswordFlag (body : Str) : Option Str :=
  match stripPrefix longFlag body with
  | some value =>
      if ¬ value.isEmpty then some (longFlag ++ stars) else maskShortFlag body
  | none => maskShortFlag body

def maskSecretAssignment (body : Str) : Option Str :=
  match splitFirst ['='] body with
  | none => none
  | some (name, value) =>
      if name.isEmpty ∨ value.isEmpty then none
      else
        let bareName := name.rtakeWhile fun char => !isWhitespace char
        let front := name.rdropWhile fun char => !isWhitespace char
        if isSecretName bareName then
          some (front ++ bareName ++ '=' :: stars)
        else none

/-- What is written for the part of a word inside its quotes, and whether a
header value is awaited behind it. -/
def maskBody (body : Str) (awaiting : Bool) : Str × Bool :=
  match maskAuthorization body awaiting with
  | some masked => masked
  | none =>
      if awaiting then
        if toAsciiLowercase body = bearer then (body, true)
        else (stars, false)
      else
        match maskPasswordFlag body with
        | some masked => (masked, false)
        | none =>
            match maskSecretAssignment body with
            | some masked => (masked, false)
            | none => (body, false)

def maskToken (token : Str) (awaiting : Bool) : Str × Bool :=
  match stripQuotes token with
  | (openQuote, body, closeQuote) =>
      let masked := maskBody body awaiting
      (openQuote ++ masked.1 ++ closeQuote, masked.2)

/-! ## The command -/

structure Redactor where
  out : Str
  awaiting : Bool
  deriving DecidableEq

def Redactor.start : Redactor :=
  { out := [], awaiting := false }

def tokenFrom (char : Char) (rest : Str) : Str :=
  char :: rest.takeWhile fun char => !isWhitespace char

/-- Whitespace is copied, a word is masked as a whole. -/
def redactStep (state : Redactor) (char : Char) (rest : List Char) :
    Redactor × Nat :=
  if isWhitespace char then ({ state with out := state.out ++ [char] }, 0)
  else
    let token := tokenFrom char rest
    let masked := maskToken token state.awaiting
    ({ out := state.out ++ masked.1, awaiting := masked.2 }, token.length - 1)

def redact (text : Str) : Redactor :=
  walk redactStep text 0 .start

def redactSecrets (text : Str) : Str :=
  (redact text).out

example : redactSecrets
      "curl -H \"Authorization: Bearer sk-abc123def456\" x".toList =
    "curl -H \"Authorization:  Bearer ***\" x".toList := by
  decide

/-! ## Cutting a command -/

/-- A text whose last word ends in it. -/
def EndsWord (text : Str) : Prop :=
  ∀ char ∈ text.getLast?, isWhitespace char = true

def StartsGap (text : Str) : Prop :=
  ∀ char ∈ text.head?, isWhitespace char = true

def IsWord (text : Str) : Prop :=
  text ≠ [] ∧ ∀ char ∈ text, isWhitespace char = false

def IsGap (text : Str) : Prop :=
  text ≠ [] ∧ ∀ char ∈ text, isWhitespace char = true

theorem tokenFrom_word {char : Char} {word after : Str}
    (plain : ∀ other ∈ word, isWhitespace other = false)
    (gap : StartsGap after) :
    tokenFrom char (word ++ after) = char :: word := by
  have stop : after.takeWhile (fun char => !isWhitespace char) = [] := by
    cases after with
    | nil => rfl
    | cons first rest => simp [gap first rfl]
  rw [tokenFrom, List.takeWhile_append_of_pos (by simpa using plain), stop,
    List.append_nil]

theorem redact_prefix (text : Str) (state : Redactor) :
    state.out <+: (walk redactStep text 0 state).out := by
  have kept : ∀ (next : Redactor) char rest, (char :: rest) <:+ text →
      state.out <+: next.out →
        state.out <+: (redactStep next char rest).1.out := by
    intro next char rest _ grown
    unfold redactStep
    split
    · exact grown.trans (List.prefix_append _ _)
    · exact grown.trans (List.prefix_append _ _)
  exact walk_invariant kept 0 (List.prefix_refl _)

/-- What is in front of a gap is redacted on its own. -/
theorem redact_append {before : Str} (ends : EndsWord before) (after : Str) :
    redact (before ++ after) = walk redactStep after 0 (redact before) := by
  refine walk_append ?_ Redactor.start
  intro state char rest suffix
  unfold redactStep
  by_cases space : isWhitespace char = true
  · simp [space]
  · have last : ∃ other ∈ rest, isWhitespace other = true := by
      obtain ⟨front, rfl⟩ := suffix
      cases rest with
      | nil => exact absurd (ends char (by simp)) space
      | cons next rest =>
          refine ⟨(next :: rest).getLast (by simp), List.getLast_mem _,
            ends _ ?_⟩
          simp [List.getLast?_eq_some_getLast]
    have short : (rest.takeWhile fun char => !isWhitespace char).length <
        rest.length := by
      obtain ⟨other, member, blank⟩ := last
      have front := List.takeWhile_prefix (l := rest)
        fun char => !isWhitespace char
      refine lt_of_le_of_ne front.length_le fun whole => ?_
      have plain := List.takeWhile_eq_self_iff.mp (front.eq_of_length whole)
        other member
      simp [blank] at plain
    have same : tokenFrom char (rest ++ after) = tokenFrom char rest := by
      rw [tokenFrom, List.takeWhile_append, if_neg short.ne]
      rfl
    rw [if_neg space, if_neg space, same]
    refine ⟨rfl, ?_⟩
    simpa [tokenFrom] using short.le

theorem walk_word {word after : Str} (isWord : IsWord word)
    (gap : StartsGap after) (state : Redactor) :
    walk redactStep (word ++ after) 0 state =
      walk redactStep after 0
        { out := state.out ++ (maskToken word state.awaiting).1
          awaiting := (maskToken word state.awaiting).2 } := by
  obtain ⟨nonempty, plain⟩ := isWord
  cases word with
  | nil => exact absurd rfl nonempty
  | cons char word =>
      have token : tokenFrom char (word ++ after) = char :: word :=
        tokenFrom_word (fun other member => plain other (by simp [member])) gap
      have moved : redactStep state char (word ++ after) =
          ({ out := state.out ++ (maskToken (char :: word) state.awaiting).1
             awaiting := (maskToken (char :: word) state.awaiting).2 },
            word.length) := by
        simp [redactStep, plain char (by simp), token]
      rw [List.cons_append, walk_cons_of_eq moved, List.drop_left]

theorem walk_gap {gap : Str} (blank : ∀ char ∈ gap, isWhitespace char = true)
    (state : Redactor) :
    walk redactStep gap 0 state = { state with out := state.out ++ gap } := by
  induction gap generalizing state with
  | nil => simp
  | cons char gap induction =>
      have moved : redactStep state char gap =
          ({ state with out := state.out ++ [char] }, 0) := by
        simp [redactStep, blank char (by simp)]
      rw [walk_one moved,
        induction fun other member => blank other (by simp [member])]
      simp

/-- A header value is awaited behind the text. -/
def awaitingAfter (text : Str) : Bool :=
  (redact text).awaiting

theorem IsGap.startsGap {gap : Str} (isGap : IsGap gap) : StartsGap gap :=
  fun char member => isGap.2 char (List.mem_of_head? member)

theorem endsWord_append {gap : Str} (isGap : IsGap gap) (text : Str) :
    EndsWord (text ++ gap) := by
  intro char last
  rw [List.getLast?_append_of_ne_nil _ isGap.1] at last
  exact isGap.2 char (List.mem_of_getLast? last)

theorem awaitingAfter_word {before word gap : Str} (ends : EndsWord before)
    (isWord : IsWord word) (isGap : IsGap gap) :
    awaitingAfter (before ++ word ++ gap) =
      (maskToken word (awaitingAfter before)).2 := by
  rw [awaitingAfter, List.append_assoc, redact_append ends,
    walk_word isWord isGap.startsGap, walk_gap isGap.2]
  rfl

/-! ## Quotes around a word -/

/-- An optional quote. -/
inductive Quote where
  | bare
  | single
  | double
  deriving DecidableEq

def Quote.text : Quote → Str
  | .bare => []
  | .single => ['\'']
  | .double => ['"']

theorem Quote.plain (quote : Quote) :
    ∀ char ∈ quote.text, isWhitespace char = false := by
  cases quote <;> decide

/-- A text of characters other than whitespace and quotes. -/
structure Plain (text : Str) : Prop where
  nonempty : text ≠ []
  blankFree : ∀ char ∈ text, isWhitespace char = false
  quoteFree : ∀ char ∈ text, isQuote char = false

/-- The quote that a text begins with. -/
def openQuote (text : Str) : Str :=
  text.take (if text.head?.any isQuote then 1 else 0)

def unquoteFront (text : Str) : Str :=
  text.drop (if text.head?.any isQuote then 1 else 0)

/-- The quote that a text ends with. -/
def closeQuote (text : Str) : Str :=
  text.drop (if text.getLast?.any isQuote then text.length - 1 else text.length)

def unquoteBack (text : Str) : Str :=
  text.take (if text.getLast?.any isQuote then text.length - 1 else text.length)

theorem openQuote_append_unquoteFront (text : Str) :
    openQuote text ++ unquoteFront text = text :=
  List.take_append_drop _ _

theorem closeQuote_quotes (text : Str) :
    ∀ char ∈ closeQuote text, isQuote char = true := by
  intro char member
  unfold closeQuote at member
  cases last : text.getLast? with
  | none =>
      rw [last] at member
      simp at member
  | some final =>
      rw [last] at member
      by_cases quote : isQuote final = true
      · obtain ⟨front, rfl⟩ := List.getLast?_eq_some_iff.mp last
        rw [show (some final).any isQuote = true from quote, if_pos rfl,
          List.length_append, List.length_singleton, Nat.add_sub_cancel,
          List.drop_left, List.mem_singleton] at member
        exact member ▸ quote
      · simp [quote] at member

/-- The quotes at the ends of a word are those of what stands around a plain
text. -/
theorem stripQuotes_around {plain : Str} (isPlain : Plain plain)
    (lead rest : Str) :
    stripQuotes (lead ++ plain ++ rest) =
      (openQuote lead, unquoteFront lead ++ plain ++ unquoteBack rest,
        closeQuote rest) := by
  obtain ⟨nonempty, -, quoteFree⟩ := isPlain
  have positive := List.length_pos_iff.mpr nonempty
  have first : (lead ++ plain ++ rest).head?.any isQuote =
      lead.head?.any isQuote := by
    cases lead with
    | nil =>
        rw [List.nil_append, List.head?_append_of_ne_nil _ nonempty]
        cases head : plain.head? with
        | none => rfl
        | some char => simp [quoteFree char (List.mem_of_head? head)]
    | cons char lead => rfl
  have last : (lead ++ plain ++ rest).getLast?.any isQuote =
      rest.getLast?.any isQuote := by
    by_cases none : rest = []
    · rw [none, List.append_nil, List.getLast?_append_of_ne_nil _ nonempty]
      cases final : plain.getLast? with
      | none => rfl
      | some char => simp [quoteFree char (List.mem_of_getLast? final)]
    · rw [List.getLast?_append_of_ne_nil _ none]
  have start : (if lead.head?.any isQuote then 1 else 0) ≤ lead.length := by
    cases lead with
    | nil => simp
    | cons char lead =>
        split
        · simp
        · simp
  have inside : (if lead.head?.any isQuote then 1 else 0) <
      (lead ++ plain ++ rest).length := by
    simp only [List.length_append]
    omega
  have stop : (if rest.getLast?.any isQuote then
        (lead ++ plain ++ rest).length - 1
      else (lead ++ plain ++ rest).length) =
      (lead ++ plain).length + (if rest.getLast?.any isQuote then
        rest.length - 1 else rest.length) := by
    cases rest with
    | nil => simp
    | cons char rest =>
        simp only [List.length_append, List.length_cons]
        split <;> omega
  simp only [stripQuotes, first, last, inside, decide_true, Bool.true_and, stop]
  rw [List.take_length_add_append, List.drop_length_add_append,
    List.append_assoc, List.append_assoc, List.take_append_of_le_length start,
    List.drop_append_of_le_length start, ← List.append_assoc]
  rfl

theorem maskToken_around {plain : Str} (isPlain : Plain plain)
    (lead rest : Str) (awaiting : Bool) :
    maskToken (lead ++ plain ++ rest) awaiting =
      (openQuote lead ++ (maskBody (unquoteFront lead ++ plain ++
          unquoteBack rest) awaiting).1 ++ closeQuote rest,
        (maskBody (unquoteFront lead ++ plain ++ unquoteBack rest)
          awaiting).2) := by
  rw [maskToken, stripQuotes_around isPlain]

/-! ## Leaks -/

/-- The secret stands in the redacted command where it stood in the command:
behind `front`, which ends a word, and `lead`, the part of its own word. -/
def Leaks (front lead secret rest after : Str) : Prop :=
  redactSecrets front ++ lead ++ secret <+:
    redactSecrets (front ++ (lead ++ secret ++ rest) ++ after)

/-- What is written behind a word starts with a gap. -/
theorem exists_suffix {after : Str} (gap : StartsGap after)
    (state : Redactor) :
    ∃ suffix, StartsGap suffix ∧
      (walk redactStep after 0 state).out = state.out ++ suffix := by
  cases after with
  | nil => exact ⟨[], fun _ member => (nomatch member), by simp⟩
  | cons char after =>
      have blank := gap char rfl
      have moved : redactStep state char after =
          ({ state with out := state.out ++ [char] }, 0) := by
        simp [redactStep, blank]
      obtain ⟨later, grown⟩ :=
        redact_prefix after { state with out := state.out ++ [char] }
      refine ⟨char :: later, ?_, ?_⟩
      · rintro other ⟨⟩
        exact blank
      · rw [walk_one moved, ← grown]
        simp

/-- A text without whitespace whose last character is no quote stops in front
of the quotes and the gap. -/
theorem prefix_append_close_iff {shown mask close suffix : Str}
    (blankFree : ∀ char ∈ shown, isWhitespace char = false)
    (last : ∀ char ∈ shown.getLast?, isQuote char = false)
    (quotes : ∀ char ∈ close, isQuote char = true) (gap : StartsGap suffix) :
    shown <+: mask ++ (close ++ suffix) ↔ shown <+: mask := by
  refine ⟨fun front => ?_, fun front => front.trans (List.prefix_append _ _)⟩
  rcases List.prefix_or_prefix_of_prefix front (List.prefix_append mask _) with
    short | ⟨beyond, rfl⟩
  · exact short
  rw [List.prefix_append_right_inj] at front
  rcases List.eq_nil_or_concat' beyond with rfl | ⟨init, final, rfl⟩
  · simp
  have plain : isQuote final = false := last final (by simp)
  have outside : final ∉ close := by
    intro member
    rw [quotes final member] at plain
    cases plain
  rcases List.prefix_or_prefix_of_prefix front (List.prefix_append close _) with
    short | ⟨more, same⟩
  · exact absurd (short.subset (by simp)) outside
  · cases more with
    | nil =>
        rw [List.append_nil] at same
        exact absurd (same ▸ by simp) outside
    | cons char more =>
        rw [← same, List.prefix_append_right_inj] at front
        obtain ⟨behind, rfl⟩ := front
        have member : char ∈ init ++ [final] := same ▸ by simp
        have blank := gap char rfl
        rw [blankFree char (List.mem_append_right _ member)] at blank
        cases blank

/-- The secret shows when the mask of its word goes on as the word does until
behind the secret. -/
theorem leaks_iff {front lead secret rest after : Str} (ends : EndsWord front)
    (leadBlankFree : ∀ char ∈ lead, isWhitespace char = false)
    (plain : Plain secret)
    (restBlankFree : ∀ char ∈ rest, isWhitespace char = false)
    (gap : StartsGap after) :
    Leaks front lead secret rest after ↔
      unquoteFront lead ++ secret <+:
        (maskBody (unquoteFront lead ++ secret ++ unquoteBack rest)
          (awaitingAfter front)).1 := by
  have isWord : IsWord (lead ++ secret ++ rest) := by
    refine ⟨by simp [plain.nonempty], ?_⟩
    simp only [List.forall_mem_append]
    exact ⟨⟨leadBlankFree, plain.blankFree⟩, restBlankFree⟩
  have shownBlankFree : ∀ char ∈ unquoteFront lead ++ secret,
      isWhitespace char = false := by
    rw [List.forall_mem_append]
    exact ⟨fun char member => leadBlankFree char (List.mem_of_mem_drop member),
      plain.blankFree⟩
  have last : ∀ char ∈ (unquoteFront lead ++ secret).getLast?,
      isQuote char = false := by
    rw [List.getLast?_append_of_ne_nil _ plain.nonempty]
    exact fun char final => plain.quoteFree char (List.mem_of_getLast? final)
  have shown : lead ++ secret =
      openQuote lead ++ (unquoteFront lead ++ secret) := by
    rw [← List.append_assoc, openQuote_append_unquoteFront]
  obtain ⟨suffix, startsGap, grown⟩ := exists_suffix gap
    { out := (redact front).out ++
        (maskToken (lead ++ secret ++ rest) (redact front).awaiting).1
      awaiting :=
        (maskToken (lead ++ secret ++ rest) (redact front).awaiting).2 }
  rw [Leaks, redactSecrets, redactSecrets, List.append_assoc front,
    redact_append ends, walk_word isWord gap, grown, maskToken_around plain,
    List.append_assoc _ lead, shown]
  simp only [List.append_assoc, List.prefix_append_right_inj]
  exact prefix_append_close_iff shownBlankFree last (closeQuote_quotes rest)
    startsGap

/-! ## What a word shows -/

/-- The word is the header's name alone, in any case. -/
def IsMarker (body : Str) : Prop :=
  toAsciiLowercase body = marker

theorem not_isWhitespace_of_word {body : Str} (isWord : IsWord body)
    {part : Str} (within : part ⊆ body) : ' ' ∉ part := by
  intro member
  have plain := isWord.2 ' ' (within member)
  simp [isWhitespace] at plain

theorem maskAuthorization_cases {body : Str} (isWord : IsWord body)
    (awaiting : Bool) :
    (¬ marker <+: toAsciiLowercase body ∧
      maskAuthorization body awaiting = none) ∨
    (IsMarker body ∧
      maskAuthorization body awaiting = some (body ++ [' '], true)) ∨
    ∃ head tail, body = head ++ tail ∧ IsMarker head ∧ tail ≠ [] ∧
      maskAuthorization body awaiting =
        some (head ++ " ***".toList, awaiting) := by
  by_cases header : marker <+: toAsciiLowercase body
  · have split := List.take_append_drop marker.length body
    have isMarker : IsMarker (body.take marker.length) := by
      rw [IsMarker, toAsciiLowercase, List.map_take]
      exact (List.prefix_iff_eq_take.mp header).symm
    have trimmed : trimStart (body.drop marker.length) =
        body.drop marker.length := by
      refine List.dropWhile_eq_self_iff.mpr fun nonempty => ?_
      have plain :=
        isWord.2 _ (List.mem_of_mem_drop (List.getElem_mem nonempty))
      simpa using plain
    have noScheme : ∀ scheme : Str, ' ' ∈ scheme →
        stripPrefix scheme (body.drop marker.length) = none := by
      intro scheme space
      refine if_neg fun front => ?_
      exact not_isWhitespace_of_word isWord (List.drop_subset _ _)
        ((List.isPrefixOf_iff_prefix.mp front).subset space)
    rw [maskAuthorization, if_pos (List.isPrefixOf_iff_prefix.mpr header)]
    dsimp only
    rw [trimmed, noScheme _ (by simp), noScheme _ (by simp)]
    by_cases alone : body.drop marker.length = []
    · rw [alone, List.append_nil] at split
      refine .inr (.inl ⟨split ▸ isMarker, ?_⟩)
      rw [alone, split]
      rfl
    · refine .inr (.inr ⟨_, _, split.symm, isMarker, alone, ?_⟩)
      simp [alone]
  · refine .inl ⟨header, if_neg fun front => ?_⟩
    exact header (List.isPrefixOf_iff_prefix.mp front)

theorem IsMarker.length {head : Str} (isMarker : IsMarker head) :
    head.length = 14 := by
  have same : toAsciiLowercase head = marker := isMarker
  calc head.length
    _ = (toAsciiLowercase head).length := (List.length_map _).symm
    _ = marker.length := by rw [same]
    _ = 14 := by decide

theorem IsMarker.eq {name other rest more : Str} (isMarker : IsMarker name)
    (otherMarker : IsMarker other) (same : name ++ rest = other ++ more) :
    name = other ∧ rest = more :=
  List.append_inj same (isMarker.length.trans otherMarker.length.symm)

theorem IsMarker.starts {name : Str} (isMarker : IsMarker name) (rest : Str) :
    marker <+: toAsciiLowercase (name ++ rest) := by
  rw [toAsciiLowercase, List.map_append, ← toAsciiLowercase, isMarker]
  exact List.prefix_append _ _

/-- A masked header shows its name. -/
theorem prefix_header_iff {shown name : Str}
    (blankFree : ∀ char ∈ shown, isWhitespace char = false) :
    shown <+: name ++ " ***".toList ↔ shown <+: name := by
  have noBlank : ' ' ∉ shown := fun member =>
    absurd (blankFree ' ' member) (by decide)
  constructor
  · exact prefix_of_prefix_append_cons noBlank
  · exact fun front => front.trans (List.prefix_append _ _)

/-- In the place of an awaited header value, the part of a word shows in the
header's name, in `Bearer` and as asterisks. -/
def IsSpared (shown tail : Str) : Prop :=
  (∃ name value, IsMarker name ∧ shown ++ tail = name ++ value ∧
    shown <+: name) ∨ toAsciiLowercase (shown ++ tail) = bearer ∨
      shown <+: stars

theorem shown_awaited_iff {shown tail : Str} (isWord : IsWord (shown ++ tail)) :
    shown <+: (maskBody (shown ++ tail) true).1 ↔ IsSpared shown tail := by
  have blankFree : ∀ char ∈ shown, isWhitespace char = false :=
    fun char member => isWord.2 char (List.mem_append_left _ member)
  rcases maskAuthorization_cases isWord true with
    ⟨other, none⟩ | ⟨isMarker, alone⟩ | ⟨head, rest, split, isMarker, nonempty,
      masked⟩
  · have notHeader : ¬ ∃ name value, IsMarker name ∧
        shown ++ tail = name ++ value ∧ shown <+: name := by
      rintro ⟨name, value, isMarker, split, -⟩
      exact other (split ▸ isMarker.starts value)
    by_cases scheme : toAsciiLowercase (shown ++ tail) = bearer
    · simp [IsSpared, maskBody, none, scheme]
    · rw [IsSpared, or_iff_right notHeader, or_iff_right scheme]
      simp [maskBody, none, scheme]
  · refine iff_of_true ?_ (.inl ⟨shown ++ tail, [], isMarker, by simp, by simp⟩)
    simp [maskBody, alone]
  · have long : 14 < (shown ++ tail).length := by
      have positive := List.length_pos_iff.mpr nonempty
      rw [split, List.length_append, isMarker.length]
      omega
    rw [maskBody, masked, prefix_header_iff blankFree]
    constructor
    · exact fun front => .inl ⟨head, rest, isMarker, split, front⟩
    · rintro (⟨name, value, otherMarker, same, front⟩ | scheme | front)
      · rwa [(isMarker.eq otherMarker (split.symm.trans same)).1]
      · have lengths := congrArg List.length scheme
        rw [toAsciiLowercase, List.length_map, show bearer.length = 6 by decide]
          at lengths
        omega
      · have lengths := front.length_le
        rw [show stars.length = 3 by decide] at lengths
        refine List.prefix_of_prefix_length_le (split ▸ List.prefix_append _ _)
          (List.prefix_append head rest) ?_
        rw [isMarker.length]
        omega

/-- A word that the redactor masks on its own from some place before the end of
`shown` on: a header with its value, a password flag or a secret assignment. -/
inductive Recognised (shown tail : Str) : Prop where
  | header {name value : Str} (isMarker : IsMarker name)
      (split : shown ++ tail = name ++ value) (beyond : ¬ shown <+: name)
  | longFlag {value : Str} (split : shown ++ tail = longFlag ++ value)
      (masked : ¬ shown <+: longFlag ++ stars)
  | shortFlag {value : Str} (split : shown ++ tail = shortFlag ++ value)
      (plain : value.head? ≠ some '-') (masked : ¬ shown <+: shortFlag ++ stars)
  | assignment {name value : Str} (split : shown ++ tail = name ++ '=' :: value)
      (bare : '=' ∉ name) (secret : isSecretName name = true)
      (masked : ¬ shown <+: name ++ '=' :: stars)

theorem maskShortFlag_cases (body : Str) :
    (∃ value, value ≠ [] ∧ value.head? ≠ some '-' ∧ body = shortFlag ++ value ∧
      maskShortFlag body = some (shortFlag ++ stars)) ∨
    (maskShortFlag body = none ∧ ∀ value, body = shortFlag ++ value →
      value = [] ∨ value.head? = some '-') := by
  unfold maskShortFlag
  cases stripped : stripPrefix shortFlag body with
  | none =>
      refine .inr ⟨rfl, fun value same => ?_⟩
      rw [stripPrefix_eq_some_iff.mpr same] at stripped
      cases stripped
  | some value =>
      have split := stripPrefix_eq_some_iff.mp stripped
      by_cases masked : ¬ value.isEmpty ∧ value.head? ≠ some '-'
      · exact .inl ⟨value, by simpa using masked.1, masked.2, split,
          if_pos masked⟩
      · refine .inr ⟨if_neg masked, fun other same => ?_⟩
        obtain rfl := List.append_cancel_left (split.symm.trans same)
        by_cases empty : value = []
        · exact .inl empty
        · refine .inr (not_not.mp fun plain => ?_)
          exact masked ⟨by simpa using empty, plain⟩

theorem maskPasswordFlag_cases (body : Str) :
    (∃ value, value ≠ [] ∧ body = longFlag ++ value ∧
      maskPasswordFlag body = some (longFlag ++ stars)) ∨
    (maskPasswordFlag body = maskShortFlag body ∧
      ∀ value, body = longFlag ++ value → value = []) := by
  unfold maskPasswordFlag
  cases stripped : stripPrefix longFlag body with
  | none =>
      refine .inr ⟨rfl, fun value same => ?_⟩
      rw [stripPrefix_eq_some_iff.mpr same] at stripped
      cases stripped
  | some value =>
      have split := stripPrefix_eq_some_iff.mp stripped
      by_cases masked : ¬ value.isEmpty
      · exact .inl ⟨value, by simpa using masked, split, if_pos masked⟩
      · refine .inr ⟨if_neg masked, fun other same => ?_⟩
        obtain rfl := List.append_cancel_left (split.symm.trans same)
        simpa using masked

theorem maskSecretAssignment_cases {body : Str} (isWord : IsWord body) :
    (∃ name value, '=' ∉ name ∧ isSecretName name = true ∧ value ≠ [] ∧
      body = name ++ '=' :: value ∧
      maskSecretAssignment body = some (name ++ '=' :: stars)) ∨
    (maskSecretAssignment body = none ∧
      ∀ name value, '=' ∉ name → isSecretName name = true →
        body = name ++ '=' :: value → value = []) := by
  unfold maskSecretAssignment
  cases found : splitFirst ['='] body with
  | none =>
      refine .inr ⟨rfl, fun name value bare _ same => ?_⟩
      rw [splitFirst_eq_some_iff.mpr ⟨bare, same⟩] at found
      cases found
  | some binding =>
      obtain ⟨name, value⟩ := binding
      obtain ⟨bare, split⟩ := splitFirst_eq_some_iff.mp found
      have plain : ∀ char ∈ name, (!isWhitespace char) = true := by
        intro char member
        rw [isWord.2 char (split ▸ List.mem_append_left _ member)]
        rfl
      have unique : ∀ otherName otherValue, '=' ∉ otherName →
          body = otherName ++ '=' :: otherValue →
            (name, value) = (otherName, otherValue) := by
        intro otherName otherValue otherBare same
        have also := splitFirst_eq_some_iff.mpr ⟨otherBare, same⟩
        exact Option.some_inj.mp (found.symm.trans also)
      dsimp only
      rw [List.rtakeWhile_eq_self_iff.mpr plain,
        List.rdropWhile_eq_nil_iff.mpr plain, List.nil_append]
      by_cases secret : isSecretName name = true
      · have named : name ≠ [] := by
          rintro rfl
          exact absurd secret (by decide)
        by_cases empty : value = []
        · refine .inr ⟨by simp [empty], ?_⟩
          intro otherName otherValue otherBare _ same
          obtain ⟨rfl, rfl⟩ := Prod.mk.inj (unique _ _ otherBare same)
          exact empty
        · exact .inl ⟨name, value, bare, secret, empty, split,
            by simp [named, empty, secret]⟩
      · refine .inr ⟨by simp [secret], fun otherName otherValue otherBare
          otherSecret same => ?_⟩
        obtain ⟨rfl, rfl⟩ := Prod.mk.inj (unique _ _ otherBare same)
        exact absurd otherSecret secret

theorem eq_of_assignments {name other value rest : Str} (bare : '=' ∉ name)
    (otherBare : '=' ∉ other)
    (same : name ++ '=' :: value = other ++ '=' :: rest) :
    name = other ∧ value = rest := by
  have first : splitFirst ['='] (name ++ '=' :: value) = some (name, value) :=
    splitFirst_eq_some_iff.mpr ⟨bare, rfl⟩
  have second := splitFirst_eq_some_iff.mpr ⟨otherBare, same⟩
  exact Prod.mk.inj (Option.some_inj.mp (first.symm.trans second))

theorem longFlag_cons : longFlag = '-' :: '-' :: "password=".toList := by
  decide

theorem shortFlag_cons : shortFlag = ['-', 'p'] := by
  decide

theorem IsMarker.bare {body : Str} (isMarker : IsMarker body) : '=' ∉ body := by
  intro member
  have lowered : toAsciiLower '=' ∈ marker := by
    rw [← show toAsciiLowercase body = marker from isMarker]
    exact List.mem_map_of_mem member
  exact absurd lowered (by decide)

theorem not_prefix_marker_dash (rest : Str) :
    ¬ marker <+: toAsciiLowercase ('-' :: rest) := by
  intro front
  have first : some (toAsciiLower '-') = marker.head? := by
    cases shape : marker with
    | nil => exact absurd shape (by decide)
    | cons char tail =>
        rw [shape] at front
        exact congrArg some (List.cons_prefix_cons.mp front).1.symm
  exact absurd first (by decide)

theorem longFlag_ne_shortFlag (value rest : Str) :
    longFlag ++ value ≠ shortFlag ++ rest := by
  rw [longFlag_cons, shortFlag_cons]
  simp

theorem longFlag_eq : longFlag = "--password".toList ++ ['='] := by
  decide

/-- What a mask that has no `=` shows is no assignment's value. -/
theorem prefix_assignment {shown tail name value mask : Str}
    (split : shown ++ tail = name ++ '=' :: value) (bare : '=' ∉ mask)
    (front : shown <+: mask) : shown <+: name ++ '=' :: stars := by
  have whole : shown <+: name ++ '=' :: value := split ▸ List.prefix_append _ _
  exact (prefix_of_prefix_append_cons (fun member => bare (front.subset member))
    whole).trans (List.prefix_append _ _)

section

variable {shown tail : Str}

theorem recognised_cases (recognised : Recognised shown tail)
    (notHeader : ¬ marker <+: toAsciiLowercase (shown ++ tail)) :
    (∃ value, shown ++ tail = longFlag ++ value ∧
      ¬ shown <+: longFlag ++ stars) ∨
    (∃ value, shown ++ tail = shortFlag ++ value ∧ value.head? ≠ some '-' ∧
      ¬ shown <+: shortFlag ++ stars) ∨
    ∃ name value, shown ++ tail = name ++ '=' :: value ∧ '=' ∉ name ∧
      isSecretName name = true ∧ ¬ shown <+: name ++ '=' :: stars := by
  cases recognised with
  | header isMarker split beyond =>
      exact absurd (split ▸ isMarker.starts _) notHeader
  | longFlag split masked => exact .inl ⟨_, split, masked⟩
  | shortFlag split plain masked => exact .inr (.inl ⟨_, split, plain, masked⟩)
  | assignment split bare secret masked =>
      exact .inr (.inr ⟨_, _, split, bare, secret, masked⟩)

theorem shown_longFlag_iff {value : Str}
    (split : shown ++ tail = longFlag ++ value) :
    shown <+: longFlag ++ stars ↔ ¬ Recognised shown tail := by
  refine ⟨fun front recognised => ?_, fun unknown => ?_⟩
  · have notHeader : ¬ marker <+: toAsciiLowercase (shown ++ tail) := by
      rw [split, longFlag_cons]
      exact not_prefix_marker_dash _
    rcases recognised_cases recognised notHeader with
      ⟨-, -, masked⟩ | ⟨other, same, -, -⟩ | ⟨name, other, same, bare, -, masked⟩
    · exact masked front
    · exact longFlag_ne_shortFlag _ _ (split.symm.trans same)
    · have flag : longFlag ++ value = "--password".toList ++ '=' :: value := by
        rw [longFlag_eq]
        simp
      obtain ⟨rfl, -⟩ := eq_of_assignments (by decide) bare
        (flag.symm.trans (split.symm.trans same))
      rw [longFlag_eq, List.append_assoc] at front
      exact masked front
  · exact not_not.mp fun masked => unknown (.longFlag split masked)

theorem shown_shortFlag_iff {value : Str}
    (split : shown ++ tail = shortFlag ++ value)
    (plain : value.head? ≠ some '-') :
    shown <+: shortFlag ++ stars ↔ ¬ Recognised shown tail := by
  refine ⟨fun front recognised => ?_, fun unknown => ?_⟩
  · have notHeader : ¬ marker <+: toAsciiLowercase (shown ++ tail) := by
      rw [split, shortFlag_cons]
      exact not_prefix_marker_dash _
    rcases recognised_cases recognised notHeader with
      ⟨other, same, -⟩ | ⟨-, -, -, masked⟩ | ⟨name, other, same, -, -, masked⟩
    · exact longFlag_ne_shortFlag _ _ (same.symm.trans split)
    · exact masked front
    · exact masked (prefix_assignment same (by decide) front)
  · exact not_not.mp fun masked => unknown (.shortFlag split plain masked)

/-- Where no flag is recognised, an assignment is. -/
theorem assignment_of_recognised (recognised : Recognised shown tail)
    (notHeader : ¬ marker <+: toAsciiLowercase (shown ++ tail))
    (notLong : ∀ value, shown ++ tail = longFlag ++ value → value = [])
    (notShort : ∀ value, shown ++ tail = shortFlag ++ value →
      value = [] ∨ value.head? = some '-') :
    ∃ name value, shown ++ tail = name ++ '=' :: value ∧ '=' ∉ name ∧
      isSecretName name = true ∧ ¬ shown <+: name ++ '=' :: stars := by
  have short : ∀ flag, shown ++ tail = flag ++ [] → shown <+: flag ++ stars := by
    intro flag same
    rw [List.append_nil] at same
    exact (same ▸ List.prefix_append _ _).trans (List.prefix_append _ _)
  rcases recognised_cases recognised notHeader with
    ⟨value, split, masked⟩ | ⟨value, split, plain, masked⟩ | assignment
  · obtain rfl := notLong value split
    exact absurd (short _ split) masked
  · rcases notShort value split with rfl | dash
    · exact absurd (short _ split) masked
    · exact absurd dash plain
  · exact assignment

theorem shown_assignment_iff {name value : Str}
    (split : shown ++ tail = name ++ '=' :: value) (bare : '=' ∉ name)
    (secret : isSecretName name = true)
    (notHeader : ¬ marker <+: toAsciiLowercase (shown ++ tail))
    (notLong : ∀ rest, shown ++ tail = longFlag ++ rest → rest = [])
    (notShort : ∀ rest, shown ++ tail = shortFlag ++ rest →
      rest = [] ∨ rest.head? = some '-') :
    shown <+: name ++ '=' :: stars ↔ ¬ Recognised shown tail := by
  refine ⟨fun front recognised => ?_, fun unknown => ?_⟩
  · obtain ⟨other, rest, same, otherBare, -, masked⟩ :=
      assignment_of_recognised recognised notHeader notLong notShort
    obtain ⟨rfl, -⟩ := eq_of_assignments bare otherBare (split.symm.trans same)
    exact masked front
  · exact not_not.mp fun masked =>
      unknown (.assignment split bare secret masked)

theorem IsMarker.shown_iff {name rest : Str} (isMarker : IsMarker name)
    (split : shown ++ tail = name ++ rest) :
    shown <+: name ↔ ¬ Recognised shown tail := by
  refine ⟨fun front recognised => ?_, fun unknown => ?_⟩
  · cases recognised with
    | header otherMarker same beyond =>
        exact beyond ((isMarker.eq otherMarker (split.symm.trans same)).1 ▸ front)
    | longFlag same masked =>
        have header := isMarker.starts rest
        rw [← split, same, longFlag_cons] at header
        exact not_prefix_marker_dash _ header
    | shortFlag same plain masked =>
        have header := isMarker.starts rest
        rw [← split, same, shortFlag_cons] at header
        exact not_prefix_marker_dash _ header
    | assignment same bare secret masked =>
        exact masked (prefix_assignment same isMarker.bare front)
  · exact not_not.mp fun beyond => unknown (.header isMarker split beyond)

/-- Without a header value awaited, the part of a word shows unless the redactor
masks the word on its own from there. -/
theorem shown_iff (isWord : IsWord (shown ++ tail)) :
    shown <+: (maskBody (shown ++ tail) false).1 ↔ ¬ Recognised shown tail := by
  have blankFree : ∀ char ∈ shown, isWhitespace char = false :=
    fun char member => isWord.2 char (List.mem_append_left _ member)
  rcases maskAuthorization_cases isWord false with
    ⟨notHeader, none⟩ | ⟨isMarker, alone⟩ | ⟨head, rest, split, isMarker,
      nonempty, masked⟩
  · rcases maskPasswordFlag_cases (shown ++ tail) with
      ⟨value, -, split, masked⟩ | ⟨next, notLong⟩
    · rw [← shown_longFlag_iff split]
      simp [maskBody, none, masked]
    rcases maskShortFlag_cases (shown ++ tail) with
      ⟨value, -, plain, split, masked⟩ | ⟨noShort, notShort⟩
    · rw [← shown_shortFlag_iff split plain]
      simp [maskBody, none, next, masked]
    rcases maskSecretAssignment_cases isWord with
      ⟨name, value, bare, secret, -, split, masked⟩ | ⟨noName, notSecret⟩
    · rw [← shown_assignment_iff split bare secret notHeader notLong notShort]
      simp [maskBody, none, next, noShort, masked]
    · refine iff_of_true (by simp [maskBody, none, next, noShort, noName]) ?_
      intro recognised
      obtain ⟨name, value, split, bare, secret, masked⟩ :=
        assignment_of_recognised recognised notHeader notLong notShort
      obtain rfl := notSecret name value bare secret split
      refine masked ((split ▸ List.prefix_append shown tail).trans ?_)
      exact (List.prefix_append_right_inj name).mpr
        (List.cons_prefix_cons.mpr ⟨rfl, List.nil_prefix⟩)
  · rw [← isMarker.shown_iff (List.append_nil _).symm]
    refine iff_of_true ?_ (List.prefix_append _ _)
    simp [maskBody, alone]
  · rw [← isMarker.shown_iff split, maskBody, masked, prefix_header_iff blankFree]

end

/-- The word is written as asterisks from some place before the end of `shown`
on. -/
def Masked : (awaiting : Bool) → (shown tail : Str) → Prop
  | true, shown, tail => ¬ IsSpared shown tail
  | false, shown, tail => Recognised shown tail

theorem not_shown_iff {shown tail : Str} (isWord : IsWord (shown ++ tail))
    (awaiting : Bool) :
    ¬ shown <+: (maskBody (shown ++ tail) awaiting).1 ↔
      Masked awaiting shown tail := by
  cases awaiting with
  | true => exact not_congr (shown_awaited_iff isWord)
  | false => exact (not_congr (shown_iff isWord)).trans not_not

/-- A flag or an assignment is not spared in the place of a header value. -/
theorem masked_iff_of_mem {char : Char} {shown : Str} (member : char ∈ shown)
    (mark : char = '-' ∨ char = '=') (tail : Str) (awaiting : Bool) :
    Masked awaiting shown tail ↔ awaiting = true ∨ Recognised shown tail := by
  cases awaiting with
  | false => simp [Masked]
  | true =>
      refine iff_of_true ?_ (.inl rfl)
      rintro (⟨name, value, isMarker, -, front⟩ | scheme | front)
      · have lowered : toAsciiLower char ∈ toAsciiLowercase name :=
          List.mem_map_of_mem (front.subset member)
        rw [show toAsciiLowercase name = marker from isMarker] at lowered
        rcases mark with rfl | rfl <;> exact absurd lowered (by decide)
      · have lowered : toAsciiLower char ∈ toAsciiLowercase (shown ++ tail) :=
          List.mem_map_of_mem (List.mem_append_left _ member)
        rw [scheme] at lowered
        rcases mark with rfl | rfl <;> exact absurd lowered (by decide)
      · have inside := front.subset member
        rcases mark with rfl | rfl <;> exact absurd inside (by decide)

/-- Behind the header's name nothing shows. -/
theorem IsMarker.masked {name value : Str} (isMarker : IsMarker name)
    (nonempty : value ≠ []) (tail : Str) (awaiting : Bool) :
    Masked awaiting (name ++ value) tail := by
  have positive := List.length_pos_iff.mpr nonempty
  have long : 14 < (name ++ value).length := by
    rw [List.length_append, isMarker.length]
    omega
  have beyond : ∀ other, IsMarker other → ¬ name ++ value <+: other := by
    intro other otherMarker front
    have lengths := front.length_le
    rw [otherMarker.length] at lengths
    omega
  cases awaiting with
  | false =>
      exact .header isMarker (List.append_assoc _ _ _) (beyond name isMarker)
  | true =>
      rintro (⟨other, rest, otherMarker, -, front⟩ | scheme | front)
      · exact beyond other otherMarker front
      · have lengths := congrArg List.length scheme
        rw [toAsciiLowercase, List.length_map, show bearer.length = 6 by decide,
          List.length_append] at lengths
        omega
      · have lengths := front.length_le
        rw [show stars.length = 3 by decide] at lengths
        omega

/-! ## What a word leaves awaited -/

theorem maskBody_awaiting_of_plain {body : Str}
    (notHeader : ¬ marker <+: toAsciiLowercase body)
    (notScheme : toAsciiLowercase body ≠ bearer) (awaiting : Bool) :
    (maskBody body awaiting).2 = false := by
  have none : maskAuthorization body awaiting = none :=
    if_neg fun front => notHeader (List.isPrefixOf_iff_prefix.mp front)
  cases awaiting with
  | true => simp [maskBody, none, notScheme]
  | false =>
      simp only [maskBody, none]
      cases maskPasswordFlag body with
      | some masked => rfl
      | none => cases maskSecretAssignment body <;> rfl

theorem Plain.isWord {text : Str} (plain : Plain text) : IsWord text :=
  ⟨plain.nonempty, plain.blankFree⟩

theorem Plain.append {text other : Str} (plain : Plain text)
    (otherPlain : Plain other) : Plain (text ++ other) := by
  obtain ⟨nonempty, blankFree, quoteFree⟩ := plain
  refine ⟨by simp [nonempty], fun char member => ?_, fun char member => ?_⟩
  · rcases List.mem_append.mp member with first | second
    · exact blankFree char first
    · exact otherPlain.blankFree char second
  · rcases List.mem_append.mp member with first | second
    · exact quoteFree char first
    · exact otherPlain.quoteFree char second

theorem not_mark_of_code {char : Char} (low : 48 ≤ char.toNat)
    (high : char.toNat ≤ 122) :
    isWhitespace char = false ∧ isQuote char = false := by
  constructor
  · simp only [isWhitespace, Bool.or_eq_false_iff, Bool.and_eq_false_iff,
      decide_eq_false_iff_not, beq_eq_false_iff_ne]
    omega
  · simp only [isQuote, Bool.or_eq_false_iff, beq_eq_false_iff_ne]
    constructor
    · rintro rfl
      exact absurd low (by decide)
    · rintro rfl
      exact absurd low (by decide)

theorem plain_of_lowercase {text : Str}
    (plain : Plain (toAsciiLowercase text)) : Plain text := by
  obtain ⟨nonempty, blankFree, quoteFree⟩ := plain
  have lowered : ∀ char ∈ text, toAsciiLower char ∈ toAsciiLowercase text :=
    fun char member => List.mem_map_of_mem member
  refine ⟨fun empty => nonempty (by simp [empty, toAsciiLowercase]),
    fun char member => ?_, fun char member => ?_⟩
  · rcases toAsciiLower_cases char with same | ⟨low, high, -⟩
    · exact same ▸ blankFree _ (lowered char member)
    · exact (not_mark_of_code (by omega) (by omega)).1
  · rcases toAsciiLower_cases char with same | ⟨low, high, -⟩
    · exact same ▸ quoteFree _ (lowered char member)
    · exact (not_mark_of_code (by omega) (by omega)).2

theorem plain_of_lowercase_eq {text lower : Str} (plain : Plain lower)
    (same : toAsciiLowercase text = lower) : Plain text :=
  plain_of_lowercase (same ▸ plain)

theorem IsMarker.plain {name : Str} (isMarker : IsMarker name) : Plain name :=
  plain_of_lowercase_eq
    ⟨by decide, by decide, by decide⟩ isMarker

/-! ## Carriers of a secret -/

def passwordWord : Str := "--password".toList

def basic : Str := "basic".toList

/-- A name a shell assigns to, of the shape of a secret's. -/
structure IsSecretVariable (name : Str) : Prop where
  shell : ∀ char ∈ name, isNameChar char = true
  secret : isSecretName name = true

/-- How a command writes a secret: with its flag, as the value of a name, or in
a header. -/
inductive Carrier where
  /-- `--password secret`. -/
  | nextWord (gap : Str)
  /-- `--password=secret`. -/
  | joined (inner : Quote)
  /-- `-psecret`. -/
  | short
  /-- `NAME=secret`, `NAME="secret"`. -/
  | assignment (name : Str) (inner : Quote)
  /-- `NAME="words secret"`. -/
  | quoted (name : Str) (inner : Quote) (words : Str)
  /-- `Authorization: secret`. -/
  | header (name gap : Str)
  /-- `Authorization:secret`. -/
  | joinedHeader (name : Str)
  /-- `Authorization: Bearer secret`, `Authorization:Bearer secret`. -/
  | schemeHeader (name blank scheme gap : Str)

/-- The words in front of the secret's own, the first of them behind a stem. -/
def Carrier.front (stem : Str) : Carrier → Str
  | .nextWord gap => stem ++ passwordWord ++ gap
  | .quoted name inner words => stem ++ (name ++ '=' :: inner.text) ++ words
  | .header name gap => stem ++ name ++ gap
  | .schemeHeader name blank scheme gap => stem ++ name ++ blank ++ scheme ++ gap
  | _ => []

/-- What stands in front of the secret in its own word: the carrier behind its
stem, or a quote. -/
def Carrier.lead (stem : Str) (left : Quote) : Carrier → Str
  | .joined inner => stem ++ (longFlag ++ inner.text)
  | .short => stem ++ shortFlag
  | .assignment name inner => stem ++ (name ++ '=' :: inner.text)
  | .joinedHeader name => stem ++ name
  | _ => left.text

def Carrier.WellFormed : Carrier → Prop
  | .nextWord gap => IsGap gap
  | .joined _ => True
  | .short => True
  | .assignment name _ => IsSecretVariable name
  | .quoted name inner words =>
      IsSecretVariable name ∧ inner ≠ .bare ∧
        (∀ char ∈ words, isQuote char = false) ∧ words ≠ [] ∧ EndsWord words
  | .header name gap => IsMarker name ∧ IsGap gap
  | .joinedHeader name => IsMarker name
  | .schemeHeader name blank scheme gap =>
      IsMarker name ∧ (∀ char ∈ blank, isWhitespace char = true) ∧
        (toAsciiLowercase scheme = bearer ∨ toAsciiLowercase scheme = basic) ∧
        IsGap gap

/-- A secret in its place in a command.  The carrier need not begin a word, nor
the secret end one. -/
structure Placement where
  before : Str
  /-- What stands in front of the carrier in its word. -/
  stem : Str
  carrier : Carrier
  left : Quote
  secret : Str
  /-- What stands behind the secret in its word. -/
  rest : Str
  after : Str
  ends : EndsWord before
  stemBlankFree : ∀ char ∈ stem, isWhitespace char = false
  wellFormed : carrier.WellFormed
  plain : Plain secret
  restBlankFree : ∀ char ∈ rest, isWhitespace char = false
  gap : StartsGap after

namespace Placement

def front (place : Placement) : Str :=
  place.before ++ place.carrier.front place.stem

def lead (place : Placement) : Str :=
  place.carrier.lead place.stem place.left

def command (place : Placement) : Str :=
  place.front ++ (place.lead ++ place.secret ++ place.rest) ++ place.after

/-- The redacted command shows the secret behind its carrier. -/
def Leaks (place : Placement) : Prop :=
  Audit.Leaks place.front place.lead place.secret place.rest place.after

/-- The word of the secret, without a quote at its front, until behind the
secret. -/
def shown (place : Placement) : Str :=
  unquoteFront place.lead ++ place.secret

/-- What the word goes on with, without a quote at its end. -/
def tail (place : Placement) : Str :=
  unquoteBack place.rest

/-- What the redactor recognises a secret by: its word, and what the words in
front leave awaited. -/
def Hidden (place : Placement) : Prop :=
  Masked (awaitingAfter place.front) place.shown place.tail

/-- The carrier begins a word, or stands behind the quote that does. -/
def AtStart (place : Placement) : Prop :=
  ∃ opening : Quote, place.stem = opening.text

/-- What hides the secret of a carrier that begins its word. -/
def HiddenAtStart (place : Placement) : Prop :=
  match place.carrier with
  | .nextWord _ => Recognised place.secret place.tail
  | .joined inner =>
      awaitingAfter place.before = true ∨ inner ≠ .bare ∨
        ¬ place.secret <+: stars
  | .short =>
      awaitingAfter place.before = true ∨
        Recognised (shortFlag ++ place.secret) place.tail
  | .assignment _ inner =>
      awaitingAfter place.before = true ∨ inner ≠ .bare ∨
        ¬ place.secret <+: stars
  | .quoted .. => Masked (awaitingAfter place.front) place.secret place.tail
  | .header .. => ¬ IsSpared place.secret place.tail
  | .joinedHeader _ => True
  | .schemeHeader _ blank scheme _ =>
      if blank = [] then
        Masked (awaitingAfter place.before) place.secret place.tail
      else if toAsciiLowercase scheme = bearer then
        ¬ IsSpared place.secret place.tail
      else Recognised place.secret place.tail

end Placement

theorem isNameChar_plain {char : Char} (named : isNameChar char = true) :
    isWhitespace char = false ∧ isQuote char = false := by
  have code : 48 ≤ char.toNat ∧ char.toNat ≤ 122 := by
    simp only [isNameChar, isAsciiAlphanumeric, isAsciiAlphabetic, isAsciiDigit,
      Bool.or_eq_true, Bool.and_eq_true, decide_eq_true_eq, beq_iff_eq] at named
    rcases named with ((⟨low, high⟩ | ⟨low, high⟩) | ⟨low, high⟩) | rfl
    · exact ⟨le_trans (by decide) (show 97 ≤ char.toNat from low), high⟩
    · exact ⟨le_trans (by decide) (show 65 ≤ char.toNat from low),
        le_trans (show char.toNat ≤ 90 from high) (by decide)⟩
    · exact ⟨low, le_trans (show char.toNat ≤ 57 from high) (by decide)⟩
    · decide
  exact not_mark_of_code code.1 code.2

theorem isNameChar_ne {char mark : Char} (named : isNameChar char = true)
    (other : isNameChar mark = false) : char ≠ mark := by
  rintro rfl
  exact absurd named (by simp [other])

theorem IsSecretVariable.plain {name : Str}
    (secretName : IsSecretVariable name) : Plain name := by
  obtain ⟨shell, secret⟩ := secretName
  refine ⟨?_, fun char member => (isNameChar_plain (shell char member)).1,
    fun char member => (isNameChar_plain (shell char member)).2⟩
  rintro rfl
  exact absurd secret (by decide)

theorem endsWord_append_of {before text : Str} (ends : EndsWord before)
    (textEnds : EndsWord text) : EndsWord (before ++ text) := by
  by_cases empty : text = []
  · rwa [empty, List.append_nil]
  · intro char last
    rw [List.getLast?_append_of_ne_nil _ empty] at last
    exact textEnds char last

theorem Carrier.lead_blankFree {carrier : Carrier} {stem : Str}
    (wellFormed : carrier.WellFormed)
    (stemBlankFree : ∀ char ∈ stem, isWhitespace char = false) (left : Quote) :
    ∀ char ∈ carrier.lead stem left, isWhitespace char = false := by
  cases carrier with
  | joined inner =>
      exact List.forall_mem_append.mpr ⟨stemBlankFree,
        List.forall_mem_append.mpr ⟨by decide, inner.plain⟩⟩
  | short =>
      exact List.forall_mem_append.mpr ⟨stemBlankFree, by decide⟩
  | assignment name inner =>
      refine List.forall_mem_append.mpr ⟨stemBlankFree, ?_⟩
      refine List.forall_mem_append.mpr ⟨wellFormed.plain.blankFree, ?_⟩
      exact List.forall_mem_cons.mpr ⟨by decide, inner.plain⟩
  | joinedHeader name =>
      exact List.forall_mem_append.mpr
        ⟨stemBlankFree, wellFormed.plain.blankFree⟩
  | _ => exact left.plain

theorem Carrier.front_ends {carrier : Carrier} {stem : Str}
    (wellFormed : carrier.WellFormed) : EndsWord (carrier.front stem) := by
  cases carrier with
  | nextWord gap => exact endsWord_append wellFormed _
  | quoted name inner words =>
      obtain ⟨-, -, -, nonempty, ends⟩ := wellFormed
      intro char last
      rw [Carrier.front, List.getLast?_append_of_ne_nil _ nonempty] at last
      exact ends char last
  | header name gap => exact endsWord_append wellFormed.2 _
  | schemeHeader name blank scheme gap =>
      exact endsWord_append wellFormed.2.2.2 _
  | _ => exact fun char member => (nomatch member)

theorem Placement.not_leaks_iff (place : Placement) :
    ¬ place.Leaks ↔ place.Hidden := by
  have leadBlankFree : ∀ char ∈ place.lead, isWhitespace char = false :=
    Carrier.lead_blankFree place.wellFormed place.stemBlankFree place.left
  have isWord : IsWord (place.shown ++ place.tail) := by
    refine ⟨by simp [shown, place.plain.nonempty], ?_⟩
    simp only [shown, List.forall_mem_append]
    refine ⟨⟨fun char member => ?_, place.plain.blankFree⟩,
      fun char member => ?_⟩
    · exact leadBlankFree char (List.mem_of_mem_drop member)
    · exact place.restBlankFree char (List.mem_of_mem_take member)
  have ends : EndsWord place.front :=
    endsWord_append_of place.ends (Carrier.front_ends place.wellFormed)
  rw [Leaks, leaks_iff ends leadBlankFree place.plain place.restBlankFree
    place.gap]
  exact not_shown_iff isWord _

/-! ## What the carrier's words leave awaited -/

theorem unquoteFront_quote (opening : Quote) {body : Str}
    (head : ∀ char ∈ body.head?, isQuote char = false) :
    unquoteFront (opening.text ++ body) = body := by
  cases opening with
  | bare =>
      cases body with
      | nil => rfl
      | cons char body =>
          simp [unquoteFront, Quote.text, head char rfl]
  | single => rfl
  | double => rfl

theorem unquoteFront_text (left : Quote) : unquoteFront left.text = [] := by
  have alone := @unquoteFront_quote left [] (fun _ member => (nomatch member))
  rwa [List.append_nil] at alone

theorem awaitingAfter_wrap {before body gap : Str} (ends : EndsWord before)
    (plain : Plain body) (opening : Quote) (isGap : IsGap gap) :
    awaitingAfter (before ++ (opening.text ++ body ++ gap)) =
      (maskBody body (awaitingAfter before)).2 := by
  have isWord : IsWord (opening.text ++ body) :=
    ⟨by simp [plain.nonempty],
      List.forall_mem_append.mpr ⟨opening.plain, plain.blankFree⟩⟩
  have masked := maskToken_around plain opening.text [] (awaitingAfter before)
  rw [List.append_nil, unquoteFront_text] at masked
  rw [← List.append_assoc, awaitingAfter_word ends isWord isGap, masked]
  simp [unquoteBack]

theorem IsMarker.awaited {name : Str} (isMarker : IsMarker name)
    (awaiting : Bool) : (maskBody name awaiting).2 = true := by
  rcases maskAuthorization_cases isMarker.plain.isWord awaiting with
    ⟨other, -⟩ | ⟨-, alone⟩ | ⟨head, tail, same, headMarker, nonempty, -⟩
  · exact absurd (isMarker ▸ List.prefix_refl _) other
  · simp [maskBody, alone]
  · have apart := isMarker.eq headMarker
      ((List.append_nil name).trans same)
    exact absurd apart.2.symm nonempty

theorem IsMarker.passes {name tail : Str} (isMarker : IsMarker name)
    (nonempty : tail ≠ []) (isWord : IsWord (name ++ tail)) (awaiting : Bool) :
    (maskBody (name ++ tail) awaiting).2 = awaiting := by
  rcases maskAuthorization_cases isWord awaiting with
    ⟨other, -⟩ | ⟨whole, -⟩ | ⟨head, rest, -, -, -, masked⟩
  · exact absurd (isMarker.starts tail) other
  · have apart := isMarker.eq whole (List.append_nil _).symm
    exact absurd apart.2 nonempty
  · simp [maskBody, masked]

theorem bearer_awaited {scheme : Str}
    (isBearer : toAsciiLowercase scheme = bearer) :
    (maskBody scheme true).2 = true := by
  have none : maskAuthorization scheme true = none := by
    refine if_neg fun front => ?_
    rw [isBearer] at front
    exact absurd front (by decide)
  simp [maskBody, none, isBearer]

theorem basic_awaited {scheme : Str}
    (isBasic : toAsciiLowercase scheme = basic) (awaiting : Bool) :
    (maskBody scheme awaiting).2 = false :=
  maskBody_awaiting_of_plain (isBasic ▸ by decide)
    (isBasic ▸ by decide) awaiting

theorem passwordWord_awaited (awaiting : Bool) :
    (maskBody passwordWord awaiting).2 = false :=
  maskBody_awaiting_of_plain (by decide) (by decide) awaiting

/-! ## What hides a secret -/

theorem value_shown_iff (secret : Str) (inner : Quote) :
    ¬ inner.text ++ secret <+: stars ↔ inner ≠ .bare ∨ ¬ secret <+: stars := by
  have starred : ∀ char ∈ stars, char = '*' := by decide
  cases inner with
  | bare => simp [Quote.text]
  | single =>
      refine iff_of_true (fun front => ?_) (.inl (by decide))
      exact absurd (starred '\'' (front.subset (by simp [Quote.text])))
        (by decide)
  | double =>
      refine iff_of_true (fun front => ?_) (.inl (by decide))
      exact absurd (starred '"' (front.subset (by simp [Quote.text])))
        (by decide)

theorem masked_joined_iff (secret tail : Str) (inner : Quote) (awaiting : Bool) :
    Masked awaiting (longFlag ++ inner.text ++ secret) tail ↔
      awaiting = true ∨ inner ≠ .bare ∨ ¬ secret <+: stars := by
  have dash : '-' ∈ longFlag ++ inner.text ++ secret := by
    rw [longFlag_cons]
    exact List.mem_cons_self
  have split : longFlag ++ inner.text ++ secret ++ tail =
      longFlag ++ (inner.text ++ secret ++ tail) := by
    simp
  have recognised := iff_not_comm.mp (shown_longFlag_iff split)
  rw [masked_iff_of_mem dash (.inl rfl), recognised, List.append_assoc,
    List.prefix_append_right_inj, value_shown_iff]

theorem masked_short_iff (secret tail : Str) (awaiting : Bool) :
    Masked awaiting (shortFlag ++ secret) tail ↔
      awaiting = true ∨ Recognised (shortFlag ++ secret) tail := by
  have dash : '-' ∈ shortFlag ++ secret := by
    rw [shortFlag_cons]
    exact List.mem_cons_self
  exact masked_iff_of_mem dash (.inl rfl) tail awaiting

theorem IsSecretVariable.not_mem {name : Str}
    (secretName : IsSecretVariable name) {char : Char}
    (other : isNameChar char = false) : char ∉ name :=
  fun member => isNameChar_ne (secretName.shell char member) other rfl

theorem IsSecretVariable.not_header {name : Str}
    (secretName : IsSecretVariable name) (value : Str) :
    ¬ marker <+: toAsciiLowercase (name ++ '=' :: value) := by
  have split : toAsciiLowercase (name ++ '=' :: value) =
      toAsciiLowercase name ++ '=' :: toAsciiLowercase value := by
    simp only [toAsciiLowercase, List.map_append, List.map_cons]
    rfl
  have colonFree : ':' ∉ toAsciiLowercase name := by
    intro member
    obtain ⟨char, within, lowered⟩ := List.mem_map.mp member
    rcases toAsciiLower_cases char with same | ⟨low, -, raised⟩
    · rw [same] at lowered
      exact isNameChar_ne (secretName.shell char within) (by decide) lowered
    · rw [lowered, show ':'.toNat = 58 by decide] at raised
      omega
  intro front
  rw [split] at front
  have short := prefix_of_prefix_append_cons (by decide) front
  exact colonFree (short.subset (by decide))

theorem IsSecretVariable.not_flag {name : Str}
    (secretName : IsSecretVariable name) (value flag rest : Str) :
    name ++ '=' :: value ≠ '-' :: flag ++ rest := by
  intro same
  have plain := secretName.plain
  have first : '-' ∈ name := by
    cases name with
    | nil => exact absurd rfl plain.nonempty
    | cons char name =>
        obtain ⟨rfl, -⟩ := List.cons.inj same
        exact List.mem_cons_self
  exact secretName.not_mem (by decide) first

theorem masked_assignment_iff {name : Str}
    (secretName : IsSecretVariable name) (secret tail : Str) (inner : Quote)
    (awaiting : Bool) :
    Masked awaiting (name ++ '=' :: inner.text ++ secret) tail ↔
      awaiting = true ∨ inner ≠ .bare ∨ ¬ secret <+: stars := by
  have split : name ++ '=' :: inner.text ++ secret ++ tail =
      name ++ '=' :: (inner.text ++ secret ++ tail) := by
    simp
  have notFlag := secretName.not_flag (inner.text ++ secret ++ tail)
  have recognised := iff_not_comm.mp (shown_assignment_iff split
    (secretName.not_mem (by decide)) secretName.secret
    (split ▸ secretName.not_header _)
    (fun rest same => absurd (split.symm.trans same)
      (longFlag_cons ▸ notFlag _ _))
    (fun rest same => absurd (split.symm.trans same)
      (shortFlag_cons ▸ notFlag _ _)))
  rw [masked_iff_of_mem (by simp) (.inr rfl), recognised, List.append_assoc,
    List.prefix_append_right_inj, List.cons_append, List.cons_prefix_cons,
    and_iff_right rfl, value_shown_iff]

theorem Carrier.awaiting_schemeHeader {before name blank scheme gap : Str}
    {opening : Quote} (ends : EndsWord before)
    (wellFormed : (Carrier.schemeHeader name blank scheme gap).WellFormed) :
    awaitingAfter (before ++ (Carrier.schemeHeader name blank scheme gap).front
      opening.text) =
        if blank = [] then awaitingAfter before
        else decide (toAsciiLowercase scheme = bearer) := by
  obtain ⟨isMarker, blankOnly, isScheme, isGap⟩ := wellFormed
  have plain : Plain scheme := by
    rcases isScheme with isBearer | isBasic
    · exact plain_of_lowercase_eq
        ⟨by decide, by decide, by decide⟩ isBearer
    · exact plain_of_lowercase_eq
        ⟨by decide, by decide, by decide⟩ isBasic
  by_cases joined : blank = []
  · subst joined
    rw [if_pos rfl, Carrier.front, List.append_nil,
      List.append_assoc opening.text name scheme,
      awaitingAfter_wrap ends (isMarker.plain.append plain) opening isGap]
    exact isMarker.passes plain.nonempty
      (isMarker.plain.append plain).isWord _
  · have blankGap : IsGap blank := ⟨joined, blankOnly⟩
    have named : awaitingAfter (before ++ (opening.text ++ name ++ blank)) =
        true := by
      rw [awaitingAfter_wrap ends isMarker.plain opening blankGap]
      exact isMarker.awaited _
    have last := awaitingAfter_wrap (endsWord_append_of ends
      (endsWord_append blankGap (opening.text ++ name))) plain .bare isGap
    rw [named, Quote.text, List.nil_append] at last
    rw [if_neg joined, Carrier.front, List.append_assoc _ scheme gap,
      ← List.append_assoc before, last]
    rcases isScheme with isBearer | isBasic
    · rw [bearer_awaited isBearer, isBearer, decide_eq_true rfl]
    · rw [basic_awaited isBasic, isBasic]
      decide

theorem Carrier.awaiting_nextWord {before gap : Str} {opening : Quote}
    (ends : EndsWord before) (isGap : IsGap gap) :
    awaitingAfter (before ++ (Carrier.nextWord gap).front opening.text) =
      false := by
  have plain : Plain passwordWord :=
    ⟨by decide, by decide, by decide⟩
  rw [Carrier.front, awaitingAfter_wrap ends plain opening isGap]
  exact passwordWord_awaited _

theorem Carrier.awaiting_header {before name gap : Str} {opening : Quote}
    (ends : EndsWord before) (isMarker : IsMarker name) (isGap : IsGap gap) :
    awaitingAfter (before ++ (Carrier.header name gap).front opening.text) =
      true := by
  rw [Carrier.front, awaitingAfter_wrap ends isMarker.plain opening isGap]
  exact isMarker.awaited _

theorem Placement.hidden_iff_at_start (place : Placement) (atStart : place.AtStart) :
    place.Hidden ↔ place.HiddenAtStart := by
  obtain ⟨before, stem, carrier, left, secret, rest, after, ends, stemBlankFree,
    wellFormed, plain, restBlankFree, gap⟩ := place
  obtain ⟨opening, rfl⟩ : ∃ opening : Quote, stem = opening.text := atStart
  simp only [Hidden, HiddenAtStart, Placement.front, shown, Placement.lead, tail]
  cases carrier with
  | nextWord gap =>
      rw [Carrier.awaiting_nextWord ends wellFormed]
      dsimp only [Carrier.lead]
      rw [unquoteFront_text, List.nil_append]
      exact Iff.rfl
  | joined inner =>
      have head : ∀ char ∈ (longFlag ++ inner.text).head?,
          isQuote char = false := by
        rw [longFlag_cons]
        rintro char ⟨⟩
        decide
      dsimp only [Carrier.lead, Carrier.front]
      rw [unquoteFront_quote opening head, List.append_nil]
      exact masked_joined_iff secret _ inner _
  | short =>
      have head : ∀ char ∈ shortFlag.head?, isQuote char = false := by
        decide
      dsimp only [Carrier.lead, Carrier.front]
      rw [unquoteFront_quote opening head, List.append_nil]
      exact masked_short_iff secret _ _
  | assignment name inner =>
      have plainName : Plain name := wellFormed.plain
      have head : ∀ char ∈ (name ++ '=' :: inner.text).head?,
          isQuote char = false := by
        rw [List.head?_append_of_ne_nil _ plainName.nonempty]
        exact fun char first =>
          plainName.quoteFree char (List.mem_of_head? first)
      dsimp only [Carrier.lead, Carrier.front]
      rw [unquoteFront_quote opening head, List.append_nil]
      exact masked_assignment_iff wellFormed secret _ inner _
  | quoted name inner words =>
      dsimp only [Carrier.lead]
      rw [unquoteFront_text, List.nil_append]
  | header name gap =>
      rw [Carrier.awaiting_header ends wellFormed.1 wellFormed.2]
      dsimp only [Carrier.lead]
      rw [unquoteFront_text, List.nil_append]
      exact Iff.rfl
  | joinedHeader name =>
      have plainName : Plain name := IsMarker.plain wellFormed
      have head : ∀ char ∈ name.head?, isQuote char = false :=
        fun char first => plainName.quoteFree char (List.mem_of_head? first)
      dsimp only [Carrier.lead]
      rw [unquoteFront_quote opening head]
      exact iff_of_true (wellFormed.masked plain.nonempty _ _) trivial
  | schemeHeader name blank scheme gap =>
      rw [Carrier.awaiting_schemeHeader ends wellFormed]
      dsimp only [Carrier.lead]
      rw [unquoteFront_text, List.nil_append]
      by_cases joined : blank = []
      · rw [if_pos joined, if_pos joined]
      · rw [if_neg joined, if_neg joined]
        by_cases isBearer : toAsciiLowercase scheme = bearer
        · rw [if_pos isBearer, decide_eq_true isBearer]
          exact Iff.rfl
        · rw [if_neg isBearer, decide_eq_false isBearer]
          exact Iff.rfl

/-- A secret stays out of the redacted command exactly when the redactor
recognises its word, wherever the carrier stands; and where the carrier begins
its word, that is a matter of the carrier, the secret and what is awaited. -/
theorem not_leaks_iff_hidden (place : Placement) :
    (¬ place.Leaks ↔ place.Hidden) ∧
      (place.AtStart → (place.Hidden ↔ place.HiddenAtStart)) :=
  ⟨place.not_leaks_iff, place.hidden_iff_at_start⟩

/-- `mysql --password hunter2`. -/
def passwordPlacement : Placement where
  before := "mysql ".toList
  stem := []
  carrier := .nextWord [' ']
  left := .bare
  secret := "hunter2".toList
  rest := []
  after := []
  ends := by unfold EndsWord; decide
  stemBlankFree := by decide
  wellFormed := ⟨by decide, by decide⟩
  plain := ⟨by decide, by decide, by decide⟩
  restBlankFree := by decide
  gap := by unfold StartsGap; decide

/-- `curl -H"Authorization: Bearer hunter2"`, whose header is not at the start
of its word. -/
def headerPlacement : Placement where
  before := "curl ".toList
  stem := "-H\"".toList
  carrier := .schemeHeader "Authorization:".toList [' '] "Bearer".toList [' ']
  left := .bare
  secret := "hunter2".toList
  rest := ['"']
  after := []
  ends := by unfold EndsWord; decide
  stemBlankFree := by decide
  wellFormed := ⟨by unfold IsMarker; decide, by decide, .inl (by decide),
    by decide, by decide⟩
  plain := ⟨by decide, by decide, by decide⟩
  restBlankFree := by decide
  gap := by unfold StartsGap; decide

theorem passwordPlacement_leaks :
    (passwordPlacement.command = "mysql --password hunter2".toList ∧
      redactSecrets passwordPlacement.command = passwordPlacement.command ∧
        passwordPlacement.Leaks) ∧
    headerPlacement.command =
      "curl -H\"Authorization: Bearer hunter2\"".toList ∧
      redactSecrets headerPlacement.command = headerPlacement.command ∧
        headerPlacement.Leaks := by
  refine ⟨⟨by decide, by decide, ?_⟩, by decide, by decide, ?_⟩
  · unfold Placement.Leaks Leaks
    decide
  · unfold Placement.Leaks Leaks
    decide

end TrustLayer.AgentGuard.Audit
