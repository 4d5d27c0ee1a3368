import TrustLayer.AgentGuard.Gate.Aliases
import TrustLayer.AgentGuard.Gate.Checked
import TrustLayer.AgentGuard.Gate.Growth
import TrustLayer.AgentGuard.Gate.Split

/-!
# The gate never panics

Every slice starts and ends at an ASCII byte, and so between two characters; no
sum overflows; and every recursion ends.  Each function returns what the model
of it computes.
-/

namespace TrustLayer.AgentGuard.Gate.Checked

open TrustLayer.Library

section

variable {profile : Profile}

/-! ## Escapes -/

theorem pushDigit_returns {radix total consumed : Nat} {value : Char → Nat}
    {digit : Char} (below : total < radix ^ consumed)
    (small : value digit < radix) (fits : radix ^ (consumed + 1) ≤ 2 ^ 32) :
    pushDigit profile radix value total digit =
        .ok (total * radix + value digit) ∧
      total * radix + value digit < radix ^ (consumed + 1) := by
  have scaled : total * radix + radix ≤ radix ^ (consumed + 1) := by
    rw [← Nat.succ_mul, Nat.pow_succ]
    exact Nat.mul_le_mul_right radix below
  refine ⟨?_, by omega⟩
  rw [pushDigit, Profile.unsigned_of_lt (by omega), Call.ok_bind,
    Profile.unsigned_of_lt (by omega)]

theorem digitsValue_returns {radix : Nat} {value : Char → Nat}
    {digits : List Char} (small : ∀ digit ∈ digits, value digit < radix)
    (fits : radix ^ digits.length ≤ 2 ^ 32) :
    digitsValue profile radix value digits =
      .ok (Gate.digitsValue radix value digits) := by
  have folded : ∀ total consumed, total < radix ^ consumed →
      radix ^ (consumed + digits.length) ≤ 2 ^ 32 →
      digits.foldlM (pushDigit profile radix value) total =
        .ok (digits.foldl (fun total digit => total * radix + value digit)
          total) := by
    clear fits
    induction digits with
    | nil => exact fun _ _ _ _ => rfl
    | cons digit digits induction =>
        intro total consumed below fits
        have positive : 0 < radix :=
          Nat.zero_lt_of_lt (small digit List.mem_cons_self)
        have sooner : radix ^ (consumed + 1) ≤ 2 ^ 32 :=
          le_trans (Nat.pow_le_pow_right positive
            (Nat.add_le_add_left (Nat.le_add_left 1 _) consumed)) fits
        obtain ⟨returns, next⟩ := @pushDigit_returns profile _ _ _ _ _ below
          (small digit List.mem_cons_self) sooner
        rw [List.foldlM_cons, returns, Call.ok_bind, List.foldl_cons]
        refine induction (fun digit member =>
          small digit (List.mem_cons_of_mem _ member)) _ (consumed + 1) next ?_
        rwa [Nat.add_assoc, Nat.add_comm 1, ← List.length_cons]
  exact folded 0 0 (by simp) (by rwa [Nat.zero_add])

theorem octal_returns (bytes : List Char) :
    digitsValue profile 8 (fun digit => digit.toNat - '0'.toNat)
        (leadingDigits isOctalDigit 3 bytes) =
      .ok (Gate.digitsValue 8 (fun digit => digit.toNat - '0'.toNat)
        (leadingDigits isOctalDigit 3 bytes)) := by
  refine digitsValue_returns (fun digit member => ?_) ?_
  · exact octalVal_lt (List.mem_takeWhile_imp member)
  · exact le_trans (Nat.pow_le_pow_right (by decide)
      (leadingDigits_length isOctalDigit 3 bytes)) (by decide)

theorem decodeEscape_returns {bytes : List Char} (nonempty : bytes ≠ []) :
    decodeEscape profile bytes = .ok (Gate.decodeEscape bytes) := by
  obtain ⟨byte, rest, rfl⟩ := List.exists_cons_of_ne_nil nonempty
  have hexadecimal : ∀ limit ≤ 4,
      digitsValue profile 16 hexVal (leadingDigits isAsciiHexdigit limit rest) =
        .ok (Gate.digitsValue 16 hexVal
          (leadingDigits isAsciiHexdigit limit rest)) := by
    intro limit short
    refine digitsValue_returns (fun digit _ => hexVal_lt digit) ?_
    have length := leadingDigits_length isAsciiHexdigit limit rest
    exact le_trans (Nat.pow_le_pow_right (by decide) (le_trans length short))
      (by decide)
  rw [decodeEscape, @Call.index_of_some Stop _ (byte :: rest) 0 byte rfl,
    Call.ok_bind, List.tail_cons]
  by_cases hex : byte = 'x' ∨ byte = 'u'
  · rw [if_pos hex]
    rcases hex with rfl | rfl
    · simp only [Gate.decodeEscape, hexadecimal 2 (by decide), Call.ok_bind,
        Char.reduceEq, if_false, if_true]
      split_ifs <;> rfl
    · simp only [Gate.decodeEscape, hexadecimal 4 (by decide), Call.ok_bind,
        Char.reduceEq, if_false, if_true]
      split_ifs <;> rfl
  · rw [if_neg hex]
    by_cases octal : isOctalDigit byte = true
    · have other : ∀ escape, isOctalDigit escape = false → byte ≠ escape := by
        rintro escape not rfl
        exact Bool.false_ne_true (not.symm.trans octal)
      simp only [Gate.decodeEscape, if_pos octal, octal_returns, Call.ok_bind,
        other 'n' (by decide), other 't' (by decide), other 'r' (by decide),
        other '\\' (by decide), other '\'' (by decide), other '"' (by decide),
        other 'x' (by decide), other 'u' (by decide), if_false]
    · rw [if_neg octal]

/-! ## Spans -/

theorem readAnsiCSpan_returns (bytes : List Char) (skip : Nat) :
    readAnsiCSpan profile bytes skip = .ok (Gate.readAnsiCSpan bytes skip) := by
  induction bytes generalizing skip with
  | nil => cases skip <;> rfl
  | cons byte rest induction =>
      cases skip with
      | succ skip =>
          rw [readAnsiCSpan, induction skip]
          rfl
      | zero =>
          rw [readAnsiCSpan, Gate.readAnsiCSpan]
          split_ifs with closing escaped
          · rfl
          · rw [decodeEscape_returns escaped.2, Call.ok_bind]
            rcases Gate.decodeEscape rest with ⟨_ | char, advance⟩
            · simp only
              rw [induction 1]
              rfl
            · simp only
              rw [induction advance]
              rfl
          · rw [induction 0]
            rfl

theorem placeBefore_eq {text : Str} {byte : Char} {front rest : List Char}
    (bytes : asBytes text = front ++ byte :: rest) :
    placeBefore text rest = front.length := by
  rw [placeBefore, byteLen, bytes, List.length_append, List.length_cons,
    Nat.add_sub_cancel_right]

/-- Both ends of a refused span are ASCII, so it is a slice of the text. -/
theorem sliceBetween_span {text : Str} {front content behind : List Char}
    (bytes : asBytes text =
      front ++ '$' :: '\'' :: (content ++ '\'' :: behind)) :
    ∃ verbatim,
      Call.sliceBetween front.length (front.length + 2 + (content.length + 1))
        text = (.ok verbatim : Run Str) ∧
      asBytes verbatim = '$' :: '\'' :: (content ++ ['\'']) := by
  obtain ⟨before, after, rfl, rfl, later⟩ := exists_of_asBytes (by decide) bytes
  obtain ⟨inner, last, rfl, same, -⟩ := exists_of_asBytes (by decide)
    ((later.trans (List.cons_append ..).symm :
      asBytes after = ('\'' :: content) ++ '\'' :: behind))
  have encoded : asBytes ('$' :: (inner ++ ['\''])) =
      '$' :: '\'' :: (content ++ ['\'']) := by
    rw [asBytes_cons_of_ascii (by decide), asBytes_append, same,
      asBytes_singleton_of_ascii (by decide)]
    rfl
  refine ⟨'$' :: (inner ++ ['\'']), ?_, encoded⟩
  have shape : before ++ '$' :: (inner ++ '\'' :: last) =
      before ++ '$' :: (inner ++ ['\'']) ++ last := by
    simp
  rw [shape]
  refine Call.sliceBetween_append rfl ?_
  rw [byteLen, encoded]
  simp only [List.length_cons, List.length_append, List.length_nil]
  omega

theorem ansiCStep_returns {text : Str} (state : RewriteState) {byte : Char}
    {rest : List Char} (suffix : (byte :: rest) <:+ asBytes text) :
    ansiCStep profile text state byte rest =
      .ok (Gate.ansiCStep state byte rest) := by
  obtain ⟨front, bytes⟩ := suffix
  unfold ansiCStep Gate.ansiCStep
  split_ifs with opens
  · obtain ⟨rfl, quote, -⟩ := opens
    obtain ⟨body, rfl⟩ := List.head?_eq_some_iff.mp quote
    rw [List.tail_cons, readAnsiCSpan_returns, Call.ok_bind]
    cases found : Gate.readAnsiCSpan body 0 with
    | none => rfl
    | some span =>
        obtain ⟨nothing, content, behind, -, shape, empty, size, -⟩ :=
          readAnsiCSpan_spec found
        obtain rfl := List.length_eq_zero_iff.mp empty
        rw [List.nil_append] at shape
        rw [Nat.zero_add] at size
        subst shape
        obtain ⟨verbatim, slice, encoded⟩ := sliceBetween_span bytes.symm
        have taken : ('\'' :: (content ++ '\'' :: behind)).take (span.2 + 1) =
            '\'' :: (content ++ ['\'']) := by
          rw [List.take_succ_cons, size, List.append_cons, List.take_left' (by simp)]
        simp only
        rcases allowSplice state span.1 (span.2 + 2) with ⟨_ | _, budget⟩
        · simp only
          rw [placeBefore_eq bytes.symm, size, slice, ← size, taken,
            ← encoded, fromUtf8_asBytes]
          rfl
        · rfl
  · rfl

theorem decodeAnsiC_returns (text : Str) (budget : Budget) :
    decodeAnsiC profile text budget = .ok (Gate.decodeAnsiC text budget) := by
  unfold decodeAnsiC Gate.decodeAnsiC
  split_ifs
  · rfl
  · rw [tryWalk_eq_ok fun state _ _ suffix => ansiCStep_returns state suffix]
    rfl

/-! ## Quotes -/

theorem head?_asBytes {text : Str} {quote : Char} (ascii : quote.toNat < 128) :
    (asBytes text)[0]? = some quote ↔ text.head? = some quote := by
  rw [← List.head?_eq_getElem?]
  constructor
  · intro first
    obtain ⟨rest, bytes⟩ := List.head?_eq_some_iff.mp first
    obtain ⟨front, behind, rfl, nothing, -⟩ :=
      @exists_of_asBytes _ _ ascii [] _ bytes
    obtain rfl := asBytes_eq_nil.mp nothing
    rfl
  · intro first
    obtain ⟨rest, rfl⟩ := List.head?_eq_some_iff.mp first
    rw [asBytes_cons_of_ascii ascii]
    rfl

theorem getLast?_asBytes {text : Str} {quote : Char}
    (ascii : quote.toNat < 128) :
    (asBytes text)[byteLen text - 1]? = some quote ↔
      text.getLast? = some quote := by
  rw [byteLen, ← List.getLast?_eq_getElem?]
  constructor
  · intro last
    obtain ⟨front, bytes⟩ := List.getLast?_eq_some_iff.mp last
    obtain ⟨before, behind, rfl, -, nothing⟩ := exists_of_asBytes ascii bytes
    obtain rfl := asBytes_eq_nil.mp nothing
    exact List.getLast?_concat
  · intro last
    obtain ⟨front, rfl⟩ := List.getLast?_eq_some_iff.mp last
    rw [asBytes_append, asBytes_singleton_of_ascii ascii]
    exact List.getLast?_concat

/-- What stands between two quotes is a slice of the text. -/
theorem sliceBetween_quotes {text : Str} {quote : Char}
    (ascii : quote.toNat < 128) (long : 2 ≤ byteLen text)
    (opening : text.head? = some quote) (closing : text.getLast? = some quote) :
    Call.sliceBetween 1 (byteLen text - 1) text =
      (.ok text.tail.dropLast : Run Str) := by
  obtain ⟨rest, rfl⟩ := List.head?_eq_some_iff.mp opening
  have one : byteLen [quote] = 1 := by
    rw [byteLen, asBytes_singleton_of_ascii ascii]
    rfl
  rcases rest.eq_nil_or_concat' with rfl | ⟨middle, last, rfl⟩
  · omega
  · rw [← List.cons_append, List.getLast?_concat] at closing
    obtain rfl := Option.some.inj closing
    have size : byteLen (last :: (middle ++ [last])) - 1 = 1 + byteLen middle := by
      rw [← List.singleton_append, byteLen_append, byteLen_append, one]
      omega
    rw [List.tail_cons, List.dropLast_concat, size]
    exact @Call.sliceBetween_append [last] [last] _ middle _ _ one.symm rfl

theorem stripQuotes_returns (text : Str) :
    stripQuotes profile text = .ok (Gate.stripQuotes text) := by
  unfold stripQuotes Gate.stripQuotes
  by_cases short : byteLen text < 2
  · rw [if_pos short, if_neg]
    exact fun quoted => absurd quoted.1 (Nat.not_le_of_lt short)
  · have long : 2 ≤ byteLen text := Nat.le_of_not_lt short
    obtain ⟨opening, first⟩ : ∃ opening, (asBytes text)[0]? = some opening :=
      ⟨_, List.getElem?_eq_getElem (Nat.lt_of_lt_of_le (by decide) long)⟩
    obtain ⟨closing, last⟩ :
        ∃ closing, (asBytes text)[byteLen text - 1]? = some closing :=
      ⟨_, List.getElem?_eq_getElem
        (Nat.sub_lt (Nat.lt_of_lt_of_le (by decide) long) (by decide))⟩
    have opens : ∀ quote : Char, quote.toNat < 128 →
        (opening = quote ↔ text.head? = some quote) := fun quote ascii => by
      rw [← head?_asBytes ascii, first, Option.some_inj]
    have closes : ∀ quote : Char, quote.toNat < 128 →
        (closing = quote ↔ text.getLast? = some quote) := fun quote ascii => by
      rw [← getLast?_asBytes ascii, last, Option.some_inj]
    rw [if_neg short, Profile.subUsize_of_le (Nat.le_of_succ_le long),
      Call.ok_bind, Call.index_of_some first, Call.ok_bind,
      Call.index_of_some last, Call.ok_bind]
    simp only [opens '"' (by decide), opens '\'' (by decide),
      closes '"' (by decide), closes '\'' (by decide), long, true_and]
    split_ifs with quoted
    · rcases quoted with ⟨starts, ends⟩ | ⟨starts, ends⟩
      · exact sliceBetween_quotes (by decide) long starts ends
      · exact sliceBetween_quotes (by decide) long starts ends
    · rfl

/-! ## Substitutions -/

theorem readParenBody_returns (bytes : List Char) {depth : Nat}
    (inside : 0 < depth) :
    readParenBody profile bytes depth = .ok (Gate.readParenBody bytes depth) := by
  induction bytes generalizing depth with
  | nil => rfl
  | cons byte rest induction =>
      rw [readParenBody, Gate.readParenBody]
      by_cases opens : byte = '('
      · subst opens
        simp only [if_true, Call.ok_bind, Char.reduceEq, false_and, if_false]
        rw [induction (Nat.succ_pos depth)]
        rfl
      · by_cases closes : byte = ')'
        · subst closes
          rw [if_neg opens, if_pos rfl, Profile.subUsize_of_le inside,
            Call.ok_bind]
          by_cases last : depth = 1
          · subst last
            rfl
          · rw [if_neg (by omega), if_neg (by omega),
              induction (show 0 < depth - 1 by omega)]
            rfl
        · simp only [opens, closes, if_false, Call.ok_bind, false_and]
          rw [induction inside]
          rfl

theorem echoPrintfLiteral_returns (body : Str) :
    echoPrintfLiteral profile body = .ok (Gate.echoPrintfLiteral body) := by
  unfold echoPrintfLiteral Gate.echoPrintfLiteral
  simp only [stripQuotes_returns, Call.ok_bind]
  split_ifs
  · rfl
  · cases splitWhitespace (trim body) with
    | nil => rfl
    | cons verb words =>
        simp only
        split_ifs <;> rfl

theorem spliceCandidate_returns (byte : Char) (rest : List Char) :
    spliceCandidate profile byte rest = .ok (Gate.spliceCandidate byte rest) := by
  unfold spliceCandidate Gate.spliceCandidate
  split_ifs
  · rw [readParenBody_returns _ Nat.one_pos, Call.ok_bind]
    cases Gate.readParenBody rest.tail 1 with
    | none => rfl
    | some body =>
        simp only
        rw [echoPrintfLiteral_returns, Call.ok_bind]
        cases literal : Gate.echoPrintfLiteral body.1 <;> simp [literal]
  · cases readBacktickBody rest with
    | none => rfl
    | some body =>
        simp only
        rw [echoPrintfLiteral_returns, Call.ok_bind]
        cases literal : Gate.echoPrintfLiteral body.1 <;> simp [literal]
  · rfl

theorem echoStep_returns (state : RewriteState) (byte : Char)
    (rest : List Char) :
    echoStep profile state byte rest = .ok (Gate.echoStep state byte rest) := by
  unfold echoStep Gate.echoStep
  split_ifs
  · rw [spliceCandidate_returns, Call.ok_bind]
    rcases Gate.spliceCandidate byte rest with _ | ⟨literal, skip, sourceLen⟩
    · rfl
    · simp only
      rcases allowSplice state literal sourceLen with ⟨_ | _, budget⟩ <;> rfl
  · rfl

theorem spliceEchoSubstitution_returns (text : Str) (budget : Budget) :
    spliceEchoSubstitution profile text budget =
      .ok (Gate.spliceEchoSubstitution text budget) := by
  unfold spliceEchoSubstitution Gate.spliceEchoSubstitution
  split_ifs
  · rfl
  · rw [tryWalk_eq_ok fun state byte rest _ => echoStep_returns state byte rest]
    rfl

theorem ifsSeparator_returns (leg : Str) :
    ifsSeparator profile leg = .ok (Gate.ifsSeparator leg) := by
  unfold ifsSeparator Gate.ifsSeparator
  cases stripPrefix "IFS=".toList (trim leg) with
  | none => rfl
  | some rest =>
      simp only
      rw [stripQuotes_returns, Call.ok_bind]
      rcases Gate.stripQuotes ((splitWhitespace rest).headD []) with
        _ | ⟨char, _ | _⟩ <;> rfl

theorem collectIfsSeparators_returns (text : Str) :
    collectIfsSeparators profile text = .ok (Gate.collectIfsSeparators text) := by
  refine foldlM_eq_ok (fun extra leg _ => ?_) []
  rw [ifsSeparator_returns, Call.ok_bind]
  cases Gate.ifsSeparator leg <;> rfl

theorem normalizeCommand_returns (command : Str) :
    normalizeCommand profile command = .ok (Gate.normalizeCommand command) := by
  unfold normalizeCommand Gate.normalizeCommand
  split_ifs
  · rfl
  · simp only [decodeAnsiC_returns, spliceEchoSubstitution_returns,
      collectIfsSeparators_returns, Call.ok_bind]

/-! ## Variables -/

theorem parseAssignment_returns (leg : Str) :
    parseAssignment profile leg = .ok (Gate.parseAssignment leg) := by
  unfold parseAssignment Gate.parseAssignment find
  cases found : splitFirst "=".toList leg with
  | none => rfl
  | some parts =>
      obtain ⟨name, value⟩ := parts
      obtain rfl := splitFirst_sound found
      have behind : byteLen name + 1 = byteLen (name ++ "=".toList) := by
        rw [byteLen_append]
        rfl
      simp only [Option.map_some]
      rw [List.append_assoc, Call.sliceTo_append, Call.ok_bind,
        ← List.append_assoc, behind]
      split_ifs
      · rw [Call.sliceFrom_append, Call.ok_bind, stripQuotes_returns,
          Call.ok_bind]
      · rfl

theorem isValidVarName_asBytes (name : Str) :
    isValidVarName (asBytes name) = isValidVarName name := by
  by_cases ascii : IsAscii (asBytes name)
  · obtain ⟨rest, same, nothing⟩ :=
      exists_of_asBytes_append ascii (List.append_nil _).symm
    obtain rfl := asBytes_eq_nil.mp nothing
    rw [List.append_nil] at same
    exact congrArg isValidVarName same.symm
  · have wide : ¬ IsAscii name := fun ascii' =>
      ascii (by rwa [asBytes_of_ascii ascii'])
    rw [Bool.eq_false_iff.mpr fun valid => ascii (isAscii_of_name valid),
      Bool.eq_false_iff.mpr fun valid => wide (isAscii_of_name valid)]

/-- The name between two braces is a slice of the text. -/
theorem sliceBetween_braced {text : Str} {front taken behind : List Char}
    (bytes : asBytes text = front ++ '$' :: '{' :: (taken ++ '}' :: behind)) :
    ∃ name,
      Call.sliceBetween (front.length + 2) (front.length + 2 + taken.length)
        text = (.ok name : Run Str) ∧ asBytes name = taken := by
  obtain ⟨before, after, rfl, rfl, later⟩ := exists_of_asBytes (by decide) bytes
  obtain ⟨inner, rfl, same⟩ :=
    @exists_of_asBytes_append _ ['{'] _ (by decide) later
  obtain ⟨name, last, rfl, rfl, -⟩ := exists_of_asBytes (by decide) same
  refine ⟨name, ?_, rfl⟩
  have shape : before ++ '$' :: (['{'] ++ (name ++ '}' :: last)) =
      before ++ ['$', '{'] ++ name ++ '}' :: last := by
    simp
  rw [shape]
  refine Call.sliceBetween_append ?_ rfl
  rw [byteLen_append]
  rfl

/-- So is a name that stands without braces. -/
theorem sliceBetween_bare {text : Str} {front name behind : List Char}
    (ascii : IsAscii name)
    (bytes : asBytes text = front ++ '$' :: (name ++ behind)) :
    Call.sliceBetween (front.length + 1) (front.length + 1 + name.length) text =
      (.ok name : Run Str) := by
  obtain ⟨before, after, rfl, rfl, later⟩ := exists_of_asBytes (by decide) bytes
  obtain ⟨last, rfl, -⟩ := exists_of_asBytes_append ascii later
  have shape : before ++ '$' :: (name ++ last) =
      before ++ ['$'] ++ name ++ last := by
    simp
  rw [shape]
  refine Call.sliceBetween_append ?_ ?_
  · rw [byteLen_append]
    rfl
  · rw [byteLen, asBytes_of_ascii ascii]

theorem variableReference_returns {text : Str} {front rest : List Char}
    (bytes : asBytes text = front ++ '$' :: rest) :
    variableReference text front.length rest =
      .ok (Gate.variableReference rest) := by
  unfold variableReference
  split
  · rfl
  · rename_i rest
    rw [Gate.variableReference]
    split_ifs with closes
    · obtain ⟨taken, behind, rfl, absent⟩ := List.eq_append_cons_of_mem closes
      obtain ⟨name, slice, rfl⟩ := sliceBetween_braced bytes
      simp only
      rw [takeWhile_to_brace absent, slice, Call.ok_bind, isValidVarName_asBytes]
      split_ifs with valid
      · have size : front.length + 2 + (asBytes name).length - front.length =
            (asBytes name).length + 2 := by
          omega
        rw [size, asBytes_of_ascii (isAscii_of_name valid)]
      · rfl
    · rfl
  · rename_i noBrace
    have other : rest.head? ≠ some '{' := by
      intro brace
      obtain ⟨behind, rfl⟩ := List.head?_eq_some_iff.mp brace
      exact noBrace behind rfl
    have ascii : IsAscii (rest.takeWhile isNameChar) :=
      isAscii_of_isNameChar fun char member => List.mem_takeWhile_imp member
    rw [← List.takeWhile_append_dropWhile (p := isNameChar) (l := rest)] at bytes
    rw [variableReference_of_ne_brace other]
    simp only [List.isEmpty_iff_length_eq_zero]
    show (if (rest.takeWhile isNameChar).length = 0 then _ else _) = _
    split_ifs
    · rfl
    · rw [show (rest.takeWhile fun byte =>
          isAsciiAlphanumeric byte || byte == '_') = rest.takeWhile isNameChar
        from rfl, sliceBetween_bare ascii bytes, Call.ok_bind]

theorem expandStep_returns {text : Str} (vars : Vars) (out : Str) {byte : Char}
    {rest : List Char} (suffix : (byte :: rest) <:+ asBytes text) :
    expandStep text vars out byte rest =
      .ok (Gate.expandStep vars out byte rest) := by
  obtain ⟨front, bytes⟩ := suffix
  unfold expandStep Gate.expandStep
  split_ifs with dollar
  · subst dollar
    rw [placeBefore_eq bytes.symm, variableReference_returns bytes.symm,
      Call.ok_bind]
    rcases Gate.variableReference rest with _ | ⟨name, advanced⟩
    · rfl
    · simp only
      cases vars.lookup name <;> rfl
  · rfl

theorem expandVars_returns (text : Str) (vars : Vars) :
    expandVars text vars = .ok (Gate.expandVars text vars) :=
  tryWalk_eq_ok (fun out _ _ suffix => expandStep_returns vars out suffix) 0 []

theorem resolveStep_returns (state : Vars × List Str) (leg : Str) :
    resolveStep profile state leg = .ok (Gate.resolveStep state leg) := by
  unfold resolveStep Gate.resolveStep
  simp only [expandVars_returns, parseAssignment_returns, Call.ok_bind]
  cases Gate.parseAssignment leg <;> rfl

theorem resolveAssignments_returns (legs : List Str) :
    resolveAssignments profile legs = .ok (Gate.resolveAssignments legs) := by
  rw [resolveAssignments,
    foldlM_eq_ok fun state leg _ => resolveStep_returns state leg]
  rfl

/-! ## Payloads -/

theorem extractPayload_returns (leg : Str) :
    extractPayload profile leg = .ok (Gate.extractPayload leg) := by
  unfold extractPayload Gate.extractPayload
  cases splitWhitespace (trim ((splitChar '|' leg).headD [])) with
  | nil => rfl
  | cons head words =>
      simp only
      rw [stripQuotes_returns, Call.ok_bind]
      split_ifs <;> rfl

theorem decodeAndExpand_returns [Base64Engine] (leg : Str) (depth : Nat) :
    decodeAndExpand profile leg depth = .ok (Gate.decodeAndExpand leg depth) := by
  unfold decodeAndExpand Gate.decodeAndExpand
  split_ifs
  · rfl
  · rfl
  · rw [extractPayload_returns, Call.ok_bind]
    cases Gate.extractPayload leg with
    | none => rfl
    | some payload =>
        simp only [Option.bind_eq_bind, Option.bind_some]
        cases Base64Engine.decode (asBytes payload) <;> rfl

/-! ## Patterns -/

theorem partsInOrder_returns (front : Str) (parts : List Str) (value : Str) :
    partsInOrder (front ++ value) parts (byteLen front) =
      .ok (AgentGuard.partsInOrder parts value) := by
  induction parts generalizing front value with
  | nil => rfl
  | cons part parts induction =>
      rw [partsInOrder, AgentGuard.partsInOrder, Call.sliceFrom_append,
        Call.ok_bind, find]
      cases found : splitFirst part value with
      | none => rfl
      | some pieces =>
          obtain ⟨before, after⟩ := pieces
          obtain rfl := splitFirst_sound found
          have next := induction (front ++ before ++ part) after
          rw [byteLen_append, byteLen_append, Nat.add_assoc] at next
          simpa using next

theorem patternMatches_returns (pattern value : Str) :
    patternMatches pattern value =
      .ok (AgentGuard.patternMatches pattern value) := by
  unfold patternMatches AgentGuard.patternMatches
  split_ifs
  · rfl
  · simp only
    split_ifs
    · rfl
    · exact partsInOrder_returns [] _ value
  · rfl

/-- Behind the first part the loop only moves the cursor. -/
theorem globCursor_returns (anchoredStart : Prop) [Decidable anchoredStart]
    (index : Nat) (parts : List Str) (front text : Str) :
    (globRest parts text = none ∧
      globCursor (front ++ text) anchoredStart (index + 1) parts
        (byteLen front) = .ok none) ∨
    ∃ seen rest, globRest parts text = some rest ∧
      front ++ text = seen ++ rest ∧
      globCursor (front ++ text) anchoredStart (index + 1) parts
        (byteLen front) = .ok (some (byteLen seen)) := by
  induction parts generalizing index front text with
  | nil => exact .inr ⟨front, text, rfl, rfl, rfl⟩
  | cons part parts induction =>
      rw [globCursor, globRest, Call.sliceFrom_append, Call.ok_bind, find]
      cases found : splitFirst part text with
      | none => exact .inl ⟨rfl, rfl⟩
      | some pieces =>
          obtain ⟨before, after⟩ := pieces
          obtain rfl := splitFirst_sound found
          have next := induction (index + 1) (front ++ before ++ part) after
          rw [byteLen_append, byteLen_append] at next
          simpa using next

theorem globMatch_returns (pattern text : Str) :
    globMatch pattern text = .ok (AgentGuard.globMatch pattern text) := by
  unfold globMatch AgentGuard.globMatch
  by_cases plain : '*' ∉ pattern
  · rw [if_pos plain, if_pos plain]
  · rw [if_neg plain, if_neg plain]
    simp only
    cases (splitChar '*' pattern).filter fun part => !part.isEmpty with
    | nil => rfl
    | cons part parts =>
        have start : Call.sliceFrom 0 text = (.ok text : Run Str) :=
          Call.sliceFrom_append [] text
        rw [List.isEmpty_cons, if_neg (by decide), globCursor, start,
          Call.ok_bind, find]
        simp only
        cases found : splitFirst part text with
        | none => rfl
        | some pieces =>
            obtain ⟨before, after⟩ := pieces
            obtain rfl := splitFirst_sound found
            have moved : byteLen before ≠ 0 ↔ before ≠ [] :=
              not_congr byteLen_eq_zero
            simp only [Option.map_some, Nat.zero_add, true_and, moved]
            by_cases anchored : pattern.head? ≠ some '*' ∧ before ≠ []
            · rw [if_pos anchored, if_pos anchored]
              rfl
            · rw [if_neg anchored, if_neg anchored, ← byteLen_append]
              rcases globCursor_returns (pattern.head? ≠ some '*') 0 parts
                  (before ++ part) after with
                ⟨absent, missed⟩ | ⟨seen, rest, present, same, reached⟩
              · rw [missed, absent]
                rfl
              · have ends : byteLen seen ≠ byteLen (seen ++ rest) ↔
                    rest ≠ [] := by
                  have size := @byteLen_eq_zero rest
                  rw [byteLen_append]
                  exact not_congr (Iff.trans (by omega) size)
                rw [reached, present, Call.ok_bind, same]
                simp only [ends]

theorem isAllowed_returns (config : Config) (command : Str) :
    isAllowed config command = .ok (config.isAllowed command) :=
  anyM_eq_ok (fun pattern => globMatch_returns pattern command) config.allowList

theorem considerCustom_returns (config : Config) (leg : Str)
    (best : Option Hit) :
    considerCustom config leg best =
      .ok (considerAll best (customHits config leg)) := by
  rw [considerCustom, considerAll, customHits, List.foldl_map,
    List.foldl_filter]
  refine foldlM_eq_ok (fun best block _ => ?_) best
  rw [patternMatches_returns]
  rfl

/-! ## The splitter -/

/-- A step returns when the bodies with fewer openers are split. -/
theorem splitStep_returns {call : Str → Run (List Str)}
    {split : Str → List Str} {byte : Char} {rest : List Char}
    (returns : ∀ inner, openers inner < openers (byte :: rest) →
      call inner = .ok (split inner))
    (extraSeps : List Char) (state : SplitState) :
    splitStep call extraSeps state byte rest =
      .ok (Gate.splitStep split extraSeps state byte rest) := by
  unfold splitStep Gate.splitStep
  simp only [apply_ite (@Except.ok (Abort Stop) (SplitState × Nat))]
  refine if_congr Iff.rfl rfl (if_congr Iff.rfl rfl (if_congr Iff.rfl rfl
    (if_congr Iff.rfl ?_ rfl)))
  by_cases opens : (byte = '$' ∨ byte = '<' ∨ byte = '>') ∧ rest.head? = some '('
  · rw [if_pos opens, if_pos opens, returns _ (openers_parenBody_lt opens.2),
      Call.ok_bind]
  · rw [if_neg opens, if_neg opens]
    by_cases tick : byte = '`'
    · subst tick
      rw [if_pos rfl, if_pos rfl, returns _ (openers_backtickBody_lt rest),
        Call.ok_bind]
    · rw [if_neg tick, if_neg tick]

theorem splitCompound_returns {fuel : Nat} {command : Str}
    (enough : openers command < fuel) :
    splitCompound fuel command = .ok (Gate.splitCompound command) := by
  induction fuel generalizing command with
  | zero => omega
  | succ fuel induction =>
      rw [splitCompound, Gate.splitCompound_eq,
        tryWalk_eq_ok fun state byte rest suffix =>
          splitStep_returns (fun inner fewer => induction ?_) [] state]
      · rfl
      · have less := openers_le_of_suffix suffix
        rw [openers_asBytes] at less
        omega

theorem splitCompound_settles (command : Str) :
    Settles (fun fuel => splitCompound fuel command)
      (Gate.splitCompound command) :=
  ⟨openers command + 1, fun _ covers => splitCompound_returns covers⟩

/-! ## The scan -/

theorem deeper_returns {depth : Nat} (capped : depth ≤ maxSubstDepth) :
    profile.unsigned 8 (depth + 1) = (.ok (depth + 1) : Run Nat) := by
  refine Profile.unsigned_of_lt (Nat.lt_of_le_of_lt (Nat.succ_le_succ capped) ?_)
  decide

section

variable [Base64Engine] {config : Config}

/-- With the call nesting that the caps leave to a depth, the scan of the model
is what the code settles on. -/
def ScansSettle (profile : Profile) (config : Config) (limit : Nat) : Prop :=
  (∀ leg depth best, depth ≤ maxSubstDepth → scanLimit depth ≤ limit →
    Settles (fun fuel => scanLeg profile fuel leg depth config best)
      (scanLegWithin limit leg depth config best)) ∧
  (∀ body depth best, depth ≤ maxSubstDepth → scanLimit depth + 1 ≤ limit →
    Settles (fun fuel => scanSubstitutionBody profile fuel body depth config best)
      (scanSubstitutionBodyWithin limit body depth config best))

variable {limit depth : Nat}

/-- The live bodies of a leg are scanned one level deeper. -/
theorem bodies_settle (settled : ScansSettle profile config limit)
    (enough : scanLimit depth ≤ limit + 1) (bodies : List Str)
    (best : Option Hit) :
    Settles
      (fun fuel =>
        if depth < maxSubstDepth then
          bodies.foldlM
            (fun best body => do
              let deeper ← profile.unsigned 8 (depth + 1)
              scanSubstitutionBody profile fuel body deeper config best)
            best
        else .ok best)
      (if depth < maxSubstDepth then
        bodies.foldl
          (fun best body =>
            scanSubstitutionBodyWithin limit body (depth + 1) config best) best
      else best) := by
  by_cases shallow : depth < maxSubstDepth
  · simp only [if_pos shallow, deeper_returns (Nat.le_of_lt shallow),
      Call.ok_bind]
    have covers : scanLimit (depth + 1) + 1 ≤ limit := by
      have next := scanLimit_succ shallow
      omega
    exact Settles.foldlM
      (fun best body _ => settled.2 body (depth + 1) best shallow covers) best
  · simp only [if_neg shallow]
    exact Settles.of_ok rfl

/-- So are the legs of a decoded payload. -/
theorem decoded_settles (settled : ScansSettle profile config limit)
    (enough : scanLimit depth ≤ limit + 1) (shallow : depth < maxDecodeDepth)
    (decoded : Str) (best : Option Hit) :
    Settles
      (fun fuel => do
        let legs ← splitCompound fuel decoded
        legs.foldlM
          (fun best inner => do
            let deeper ← profile.unsigned 8 (depth + 1)
            scanLeg profile fuel inner deeper config best)
          best)
      ((Gate.splitCompound decoded).foldl
        (fun best inner => scanLegWithin limit inner (depth + 1) config best)
        best) := by
  have within : depth < maxSubstDepth := Nat.lt_trans shallow (by decide)
  have covers : scanLimit (depth + 1) ≤ limit := by
    have next := scanLimit_succ within
    omega
  simp only [deeper_returns (Nat.le_of_lt within), Call.ok_bind]
  exact Settles.bind (splitCompound_settles decoded) (Settles.foldlM
    (fun best inner _ => settled.1 inner (depth + 1) best within covers) best)

theorem scanLeg_settles (settled : ScansSettle profile config limit)
    (capped : depth ≤ maxSubstDepth) (enough : scanLimit depth ≤ limit + 1)
    (leg : Str) (best : Option Hit) :
    Settles (fun fuel => scanLeg profile fuel leg depth config best)
      (scanLegWithin (limit + 1) leg depth config best) := by
  refine Settles.succ ?_
  simp only [scanLeg, scanLegWithin, considerCustom_returns,
    decodeAndExpand_returns, Call.ok_bind]
  refine Settles.bind (bodies_settle settled enough _ _) ?_
  cases decoded : Gate.decodeAndExpand leg depth with
  | some payload =>
      exact decoded_settles settled enough (depth_lt_of_decodeAndExpand decoded)
        payload _
  | none =>
      simp only [deeper_returns capped, Call.ok_bind]
      exact Settles.of_ok rfl

/-- The legs of a body are scanned at its own depth, those that print for
their live bodies only. -/
theorem bodyLegs_settle (settled : ScansSettle profile config limit)
    (capped : depth ≤ maxSubstDepth) (enough : scanLimit depth ≤ limit)
    (body : Str) (best : Option Hit) :
    Settles
      (fun fuel => do
        let legs ← splitCompound fuel body
        legs.foldlM
          (fun best leg =>
            if isNonExecutingVerb leg then
              if depth < maxSubstDepth then
                (liveSubstitutionBodies leg).foldlM
                  (fun best inner => do
                    let deeper ← profile.unsigned 8 (depth + 1)
                    scanSubstitutionBody profile fuel inner deeper config best)
                  best
              else .ok best
            else scanLeg profile fuel leg depth config best)
          best)
      ((Gate.splitCompound body).foldl
        (fun best leg =>
          if isNonExecutingVerb leg then
            if depth < maxSubstDepth then
              (liveSubstitutionBodies leg).foldl
                (fun best inner =>
                  scanSubstitutionBodyWithin limit inner (depth + 1) config best)
                best
            else best
          else scanLegWithin limit leg depth config best)
        best) := by
  refine Settles.bind (splitCompound_settles body)
    (Settles.foldlM (fun best leg _ => ?_) best)
  cases isNonExecutingVerb leg with
  | true =>
      exact bodies_settle settled (Nat.le_succ_of_le enough)
        (liveSubstitutionBodies leg) best
  | false => exact settled.1 leg depth best capped enough

theorem scanSubstitutionBody_settles
    (settled : ScansSettle profile config limit)
    (capped : depth ≤ maxSubstDepth) (enough : scanLimit depth ≤ limit)
    (body : Str) (best : Option Hit) :
    Settles (fun fuel => scanSubstitutionBody profile fuel body depth config best)
      (scanSubstitutionBodyWithin (limit + 1) body depth config best) := by
  refine Settles.succ ?_
  have legs := bodyLegs_settle settled capped enough body
  simp only [scanSubstitutionBody, scanSubstitutionBodyWithin,
    decodeAndExpand_returns]
  by_cases shallow : depth < maxDecodeDepth
  · simp only [if_pos shallow, Call.ok_bind]
    cases Gate.decodeAndExpand body depth with
    | some payload =>
        exact Settles.bind
          (decoded_settles settled (Nat.le_succ_of_le enough) shallow payload _)
          (legs _)
    | none => exact legs _
  · simp only [if_neg shallow, Call.ok_bind]
    exact legs _

theorem scans_settle (profile : Profile) (config : Config) (limit : Nat) :
    ScansSettle profile config limit := by
  induction limit with
  | zero =>
      constructor
      · intro leg depth best capped enough
        simp [scanLimit] at enough
      · intro body depth best capped enough
        simp at enough
  | succ limit induction =>
      exact ⟨fun leg depth best capped enough =>
          scanLeg_settles induction capped enough leg best,
        fun body depth best capped enough =>
          scanSubstitutionBody_settles induction capped
            (Nat.le_of_succ_le_succ enough) body best⟩

theorem scanLegs_settle (legs : List Str) (capped : depth ≤ maxSubstDepth)
    (best : Option Hit) :
    Settles (fun fuel => scanLegs profile fuel legs depth config best)
      (Gate.scanLegs legs depth config best) :=
  Settles.foldlM
    (fun best leg _ =>
      (scans_settle profile config (scanLimit depth)).1 leg depth best capped
        le_rfl) best

theorem ifsResplitBlock_settles (command : Str) (extraSeps : List Char) :
    Settles
      (fun fuel => ifsResplitBlock profile fuel command extraSeps config)
      (Gate.ifsResplitBlock command extraSeps config) := by
  unfold ifsResplitBlock Gate.ifsResplitBlock
  simp only [resolveAssignments_returns, Call.ok_bind]
  refine Settles.bind (splitCompound_settles command)
    (Settles.bind (scanLegs_settle _ (Nat.zero_le _) none) ?_)
  cases Gate.scanLegs _ 0 config none with
  | none => exact Settles.of_ok rfl
  | some hit => exact Settles.of_ok rfl

/-! ## Verdicts -/

omit [Base64Engine] in
theorem truncate_returns (text : Str) (limit : Nat) :
    truncate text limit = .ok (Gate.truncate text limit) := by
  unfold truncate Gate.truncate
  split_ifs
  · rfl
  · rw [Call.sliceTo_boundaryBelow, Call.ok_bind]

omit [Base64Engine] in
theorem buildVerdict_returns {tier : Tier} (severity : tier ≠ .ask) (hit : Hit) :
    buildVerdict tier hit = .ok (Gate.buildVerdict tier hit) := by
  rw [buildVerdict, truncate_returns, Call.ok_bind]
  cases tier with
  | ask => exact absurd rfl severity
  | _ => rfl

/-! ## The pipeline -/

omit [Base64Engine] in
theorem scanInput_returns (command : Str) (config : Config) :
    scanInput profile command config = .ok (Gate.scanInput command config) := by
  unfold scanInput Gate.scanInput
  split_ifs
  · exact normalizeCommand_returns command
  · rfl

theorem payload_settles (command : Str) (best : Option Hit) : Settles
    (fun fuel =>
      match Gate.decodeAndExpand command 0 with
      | some decoded => do
          let legs ← splitCompound fuel decoded
          scanLegs profile fuel legs 1 config best
      | none => .ok best)
    (match Gate.decodeAndExpand command 0 with
    | some decoded => Gate.scanLegs (Gate.splitCompound decoded) 1 config best
    | none => best) := by
  cases Gate.decodeAndExpand command 0 with
  | some payload =>
      exact Settles.bind (splitCompound_settles payload)
        (scanLegs_settle _ (by decide) best)
  | none => exact Settles.of_ok rfl

theorem worstHit_settles (input : Normalized) :
    Settles (fun fuel => worstHit profile fuel input config)
      (Gate.worstHit input config) := by
  unfold worstHit Gate.worstHit
  simp only [decodeAndExpand_returns, resolveAssignments_returns, Call.ok_bind]
  refine Settles.bind (payload_settles _ _)
    (Settles.bind (splitCompound_settles input.command)
      (Settles.bind (scanLegs_settle _ (Nat.zero_le _) _) ?_))
  by_cases empty : input.extraSeparators.isEmpty = true
  · simp only [if_pos empty]
    exact Settles.of_ok rfl
  · simp only [if_neg empty]
    refine Settles.bind (ifsResplitBlock_settles _ _) ?_
    cases Gate.ifsResplitBlock input.command input.extraSeparators config with
    | none => exact Settles.of_ok rfl
    | some hit => exact Settles.of_ok rfl

/-- Every command has a verdict under every configuration: with enough fuel the
code returns, in either build, what the model computes. -/
theorem evaluate_settles (profile : Profile) (command : Str) (config : Config) :
    Settles (fun fuel => evaluate profile fuel command config)
      (Gate.evaluate command config) := by
  unfold evaluate Gate.evaluate
  simp only [isAllowed_returns, scanInput_returns, Call.ok_bind]
  split_ifs
  · exact Settles.of_ok rfl
  · exact Settles.of_ok rfl
  · refine Settles.bind (worstHit_settles _) ?_
    cases Gate.worstHit (Gate.scanInput command config) config with
    | none => exact Settles.of_ok rfl
    | some hit =>
        exact Settles.of_ok (buildVerdict_returns (severityToTier_ne_ask _ _) hit)

end

end

end TrustLayer.AgentGuard.Gate.Checked
