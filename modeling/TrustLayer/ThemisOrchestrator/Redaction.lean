import Mathlib.Data.List.Enum
import TrustLayer.Library.LeftmostFirst.Pieces
import TrustLayer.ThemisOrchestrator.DualLlm

/-!
# What redaction leaves of a match

The patterns run one after another, each on the text that the ones before have
rewritten.  Here every character carries its place in the original text, so
that what is left of a match of that text can be told.
-/

namespace TrustLayer.ThemisOrchestrator

open TrustLayer.Library
open Lettered (char)

/-- `\d` and `\w` of the `regex` crate, tables of Unicode. -/
class RegexClasses extends WordClass where
  isDigit : Char → Bool
  isDigit_ascii : ∀ char, char.toNat < 128 → isDigit char = isAsciiDigit char
  isWord_ascii : ∀ char, char.toNat < 128 →
    isWord char = (isAsciiAlphanumeric char || char == '_')

/-! ## The default policy -/

namespace Redaction

open Regex

section

variable [RegexClasses]

/-- `\d`. -/
def digit : Regex :=
  .single RegexClasses.isDigit

def phone : Regex :=
  all [
    optional (all [optional (.single (· == '+')), between digit 1 3,
      RedactionPolicy.phoneGap]),
    optional (.single (· == '(')), between digit 3 3,
    optional (.single (· == ')')), RedactionPolicy.phoneGap, between digit 3 3,
    RedactionPolicy.phoneGap, between digit 4 4]

def creditCard : Regex :=
  let part := Regex.seq digit (optional (.single " -".toList.contains))
  all [.wordBoundary, between part 13 19, .wordBoundary]

/-- `RedactionPolicy::with_defaults`. -/
def withDefaults : RedactionPolicy Regex :=
  { redactPatterns := [RedactionPolicy.email, phone, creditCard] }

end

end Redaction

def redacted : Str := "[REDACTED]".toList

/-- The loop over the patterns. -/
def applyPatterns {α : Type} [Lettered α] [WordClass] (marker : List α)
    (patterns : List Regex) (text : List α) : List α :=
  patterns.foldl (fun out pattern => pattern.replaceAll marker out) text

/-- `RedactionPolicy::apply`. -/
def RedactionPolicy.apply [WordClass] (policy : RedactionPolicy Regex)
    (text : Str) : Str :=
  applyPatterns redacted policy.redactPatterns text

/-! ## Characters with their places -/

/-- A character, and its place in the original text. -/
abbrev Placed := Char × Option Nat

instance : Lettered Placed := ⟨Prod.fst⟩

def placed (text : Str) : List Placed :=
  text.zipIdx.map fun entry => (entry.1, some entry.2)

/-- The marker has no place. -/
def placedMarker : List Placed :=
  redacted.map fun char => (char, none)

theorem exists_of_mem_placedMarker {item : Placed}
    (member : item ∈ placedMarker) : item.2 = none ∧ item.1 ∈ redacted := by
  obtain ⟨char, inside, rfl⟩ := List.mem_map.mp member
  exact ⟨rfl, inside⟩

theorem placed_text (text : Str) : (placed text).map Prod.fst = text := by
  rw [placed, List.map_map]
  exact List.zipIdx_map_fst 0 text

/-- No two characters have one place. -/
theorem nodup_placed (text : Str) : (placed text).Nodup := by
  have places : (placed text).map Prod.snd =
      (List.range' 0 text.length).map some := by
    rw [← List.zipIdx_map_snd 0 text, placed, List.map_map, List.map_map]
    rfl
  refine List.Nodup.of_map Prod.snd ?_
  rw [places]
  exact List.Nodup.map (fun _ _ => Option.some.inj) List.nodup_range'

theorem applyPatterns_placed [WordClass] (patterns : List Regex)
    (out : List Placed) :
    (applyPatterns placedMarker patterns out).map Prod.fst =
      applyPatterns redacted patterns (out.map Prod.fst) := by
  have marker : placedMarker.map Prod.fst = redacted := by decide
  induction patterns generalizing out with
  | nil => rfl
  | cons pattern patterns induction =>
      have first := Regex.replaceAll_map
        (fun _ => rfl : ∀ item : Placed, char item.1 = char item)
        pattern placedMarker out
      rw [marker] at first
      exact (induction _).trans (congrArg _ first.symm)

namespace Redaction

open Regex

section

variable [RegexClasses]

/-- The sanitized text. -/
def shadow (text : Str) : List Placed :=
  applyPatterns placedMarker withDefaults.redactPatterns (placed text)

/-- No character of a match on the original text is in the sanitized one. -/
def LeavesNoPart (text : Str) : Prop :=
  ∀ pattern ∈ withDefaults.redactPatterns,
    ∀ hit ∈ pattern.findIter (placed text), ∀ item ∈ hit, item ∉ shadow text

instance (text : Str) : Decidable (LeavesNoPart text) :=
  inferInstanceAs (Decidable (∀ pattern ∈ withDefaults.redactPatterns,
    ∀ hit ∈ pattern.findIter (placed text), ∀ item ∈ hit, item ∉ shadow text))

/-- The pieces of text that the card pattern is applied to. -/
def beforeCards (text : Str) : List (List Placed) :=
  (RedactionPolicy.email.cut (placed text)).flatMap phone.cut

/-- What the first two patterns leave of a match is in a card. -/
def TakenAsCard (text : Str) (hit : List Placed) : Prop :=
  ∀ item ∈ hit, ∀ piece ∈ beforeCards text, item ∈ piece →
    ∃ card ∈ creditCard.findIter piece, item ∈ card

/-- The card stands in a run of the text, between characters that no card goes
over, and neither an address nor a phone number takes anything of the run. -/
def Sheltered (text : Str) (hit : List Placed) : Prop :=
  ∃ front run back, placed text = front ++ (run ++ back) ∧ hit ⊆ run ∧
    Delimited creditCard front run back ∧
    (∀ mail ∈ RedactionPolicy.email.findIter (placed text),
      mail.Disjoint run) ∧
    ∀ piece ∈ RedactionPolicy.email.cut (placed text),
      ∀ number ∈ phone.findIter piece, number.Disjoint run

/-- Where a phone number runs into an address, and where an address or a phone
number takes something of a card's run, cards of what is left take the rest. -/
structure CutCleanly (text : Str) : Prop where
  phones : ∀ hit ∈ phone.findIter (placed text),
    (∃ mail ∈ RedactionPolicy.email.findIter (placed text),
      ∃ item ∈ hit, item ∈ mail) → TakenAsCard text hit
  cards : ∀ hit ∈ creditCard.findIter (placed text),
    ¬ Sheltered text hit → TakenAsCard text hit

/-! ## What the patterns accept -/

section

variable {single : (Char → Bool) → Prop} {boundary atEnd : Prop}

theorem each_phone (digits : single RegexClasses.isDigit)
    (plus : single (· == '+')) (opens : single (· == '('))
    (closes : single (· == ')'))
    (gap : single fun char => isWhitespace char || ".-".toList.contains char) :
    phone.Each single boundary atEnd := by
  have inDigit : digit.Each single boundary atEnd := digits
  have inGap : RedactionPolicy.phoneGap.Each single boundary atEnd :=
    ⟨gap, trivial⟩
  have threeDigits := each_between inDigit 3 3
  have country : (all [optional (.single (· == '+')), between digit 1 3,
      RedactionPolicy.phoneGap]).Each single boundary atEnd := by
    rw [each_all]
    simp only [List.forall_mem_cons, List.not_mem_nil, false_implies,
      implies_true, and_true]
    exact ⟨⟨plus, trivial⟩, each_between inDigit 1 3, inGap⟩
  rw [phone, each_all]
  simp only [List.forall_mem_cons, List.not_mem_nil, false_implies,
    implies_true, and_true]
  exact ⟨⟨country, trivial⟩, ⟨opens, trivial⟩, threeDigits, ⟨closes, trivial⟩,
    inGap, threeDigits, inGap, each_between inDigit 4 4⟩

theorem each_creditCard (digits : single RegexClasses.isDigit)
    (separators : single " -".toList.contains) (edges : boundary) :
    creditCard.Each single boundary atEnd := by
  have part : (Regex.seq digit (optional
      (.single " -".toList.contains))).Each single boundary atEnd :=
    ⟨digits, separators, trivial⟩
  exact ⟨edges, each_between part 13 19, edges, trivial⟩

end

theorem flat_phone : Flat phone :=
  each_phone trivial trivial trivial trivial trivial

theorem endless_creditCard : Endless creditCard :=
  each_creditCard trivial trivial trivial

theorem rejects_phone {barred : Char} (ascii : barred.toNat < 128)
    (notDigit : isAsciiDigit barred = false)
    (notSpace : isWhitespace barred = false)
    (others : barred ∉ ['+', '(', ')', '.', '-']) :
    Rejects barred phone := by
  simp only [List.mem_cons, List.not_mem_nil, or_false, not_or] at others
  obtain ⟨plus, opens, closes, dot, dash⟩ := others
  apply each_phone
  · rw [RegexClasses.isDigit_ascii barred ascii, notDigit]
  · exact beq_false_of_ne plus
  · exact beq_false_of_ne opens
  · exact beq_false_of_ne closes
  · simp [notSpace, dot, dash]

theorem rejects_creditCard {barred : Char} (ascii : barred.toNat < 128)
    (notDigit : isAsciiDigit barred = false)
    (others : " -".toList.contains barred = false) :
    Rejects barred creditCard := by
  apply each_creditCard
  · rw [RegexClasses.isDigit_ascii barred ascii, notDigit]
  · exact others
  · trivial

/-- A phone number does not reach over a letter. -/
theorem rejects_phone_of_letter {letter : Char}
    (isLetter : isAsciiAlphabetic letter = true) : Rejects letter phone := by
  have range : (97 ≤ letter.toNat ∧ letter.toNat ≤ 122) ∨
      (65 ≤ letter.toNat ∧ letter.toNat ≤ 90) := by
    simpa [isAsciiAlphabetic, Char.le_def, UInt32.le_iff_toNat_le] using isLetter
  have apart (other : Char) (below : other.toNat < 65) : letter ≠ other := by
    rintro rfl
    omega
  apply rejects_phone
  · omega
  · have digits : ¬ ('0' ≤ letter ∧ letter ≤ '9') := by
      simp only [Char.le_def, UInt32.le_iff_toNat_le]
      rintro ⟨-, high⟩
      have small : letter.toNat ≤ 57 := high
      omega
    simpa [isAsciiDigit] using digits
  · simp only [isWhitespace, Bool.or_eq_false_iff, Bool.and_eq_false_iff,
      decide_eq_false_iff_not, beq_eq_false_iff_ne]
    omega
  · simp [apart]

/-- An address ends with a letter. -/
theorem endsWith_email : EndsWith
    (fun last : Placed => Rejects (char last) phone) RedactionPolicy.email := by
  have letters : EndsWith (fun last : Placed =>
      isAsciiAlphabetic (char last) = true) RedactionPolicy.email :=
    (endsWith_plus isAsciiAlphabetic).seq_empty.seq.seq.seq.seq.seq
  exact letters.mono fun _ => rejects_phone_of_letter

/-! ## The marker -/

theorem isWord_bracket (bracket : Char) (among : bracket ∈ ['[', ']']) :
    WordClass.isWord bracket = false := by
  have ascii : ∀ bracket ∈ ['[', ']'], bracket.toNat < 128 ∧
      (isAsciiAlphanumeric bracket || bracket == '_') = false := by
    decide
  rw [RegexClasses.isWord_ascii bracket (ascii bracket among).1,
    (ascii bracket among).2]

theorem lastIsWord_placedMarker : lastIsWord false placedMarker = false :=
  isWord_bracket ']' (by decide)

theorem parts_phone : Parts phone placedMarker where
  rejects item member := by
    have letters : ∀ char ∈ redacted, char.toNat < 128 ∧
        isAsciiDigit char = false ∧ isWhitespace char = false ∧
          char ∉ ['+', '(', ')', '.', '-'] := by
      decide
    obtain ⟨ascii, notDigit, notSpace, others⟩ :=
      letters _ (exists_of_mem_placedMarker member).2
    exact rejects_phone ascii notDigit notSpace others
  opens := flat_phone.mono (fun _ _ => trivial) False.elim id
  nonempty := List.cons_ne_nil _ _
  closes := lastIsWord_placedMarker

theorem parts_creditCard : Parts creditCard placedMarker where
  rejects item member := by
    have letters : ∀ char ∈ redacted, char.toNat < 128 ∧
        isAsciiDigit char = false ∧ " -".toList.contains char = false := by
      decide
    obtain ⟨ascii, notDigit, others⟩ :=
      letters _ (exists_of_mem_placedMarker member).2
    exact rejects_creditCard ascii notDigit others
  opens := each_creditCard trivial trivial (isWord_bracket '[' (by decide))
  nonempty := List.cons_ne_nil _ _
  closes := lastIsWord_placedMarker

/-! ## What the three patterns leave -/

theorem shadow_text (text : Str) :
    (shadow text).map Prod.fst = withDefaults.apply text := by
  rw [shadow, applyPatterns_placed, placed_text, RedactionPolicy.apply]

/-- The sanitized text is what three cuts leave. -/
theorem shadow_eq (text : Str) :
    shadow text =
      placedMarker.intercalate ((beforeCards text).flatMap creditCard.cut) := by
  have mails := replaceAll_eq_intercalate RedactionPolicy.email placedMarker
    (placed text)
  have phones := replaceAll_intercalate parts_phone
    (RedactionPolicy.email.cut (placed text))
  have cards := replaceAll_intercalate parts_creditCard (beforeCards text)
  rw [← cards, beforeCards, ← phones, ← mails]
  rfl

theorem mem_shadow_iff {text : Str} {item : Placed}
    (original : item ∈ placed text) :
    item ∈ shadow text ↔
      item ∈ ((beforeCards text).flatMap creditCard.cut).flatten := by
  rw [shadow_eq, mem_intercalate_iff]
  intro inMarker
  obtain ⟨entry, -, rfl⟩ := List.mem_map.mp original
  cases (exists_of_mem_placedMarker inMarker).1

/-! ## What is left of a match -/

variable {text : Str} {hit : List Placed} {item : Placed}

theorem nodup_afterMails (text : Str) :
    (RedactionPolicy.email.cut (placed text)).flatten.Nodup := by
  have apart := (cut_perm RedactionPolicy.email (placed text)).nodup_iff.mpr
    (nodup_placed text)
  exact apart.of_append_left

theorem nodup_beforeCards (text : Str) : (beforeCards text).flatten.Nodup :=
  nodup_cut (nodup_afterMails text)

theorem mem_placed {pattern : Regex}
    (found : hit ∈ pattern.findIter (placed text)) (inside : item ∈ hit) :
    item ∈ placed text :=
  (cut_perm pattern (placed text)).subset
    (List.mem_append_right _ (List.mem_flatten_of_mem found inside))

/-- Nothing of an address is left. -/
theorem mail_gone (found : hit ∈ RedactionPolicy.email.findIter (placed text))
    (inside : item ∈ hit) : item ∉ shadow text := by
  intro left
  have apart := (cut_perm RedactionPolicy.email (placed text)).nodup_iff.mpr
    (nodup_placed text)
  have inPiece := mem_of_mem_cut
    (mem_of_mem_cut ((mem_shadow_iff (mem_placed found inside)).mp left))
  exact (List.nodup_append'.mp apart).2.2 inPiece
    (List.mem_flatten_of_mem found inside)

/-- Nothing is left of a phone number that shares nothing with an address. -/
theorem phone_gone (found : hit ∈ phone.findIter (placed text))
    (apart : ¬ ∃ mail ∈ RedactionPolicy.email.findIter (placed text),
      ∃ item ∈ hit, item ∈ mail)
    (inside : item ∈ hit) : item ∉ shadow text := by
  intro left
  have inPiece :=
    mem_of_mem_cut ((mem_shadow_iff (mem_placed found inside)).mp left)
  rcases findIter_of_cut flat_phone endsWith_email found with
    ⟨piece, among, foundThere⟩ | shared
  · exact not_mem_cut (nodup_afterMails text) among foundThere inside inPiece
  · exact apart shared

/-- Nothing is left of a sheltered card. -/
theorem card_gone (found : hit ∈ creditCard.findIter (placed text))
    (sheltered : Sheltered text hit) (inside : item ∈ hit) :
    item ∉ shadow text := by
  intro left
  have inCut := (mem_shadow_iff (mem_placed found inside)).mp left
  obtain ⟨front, run, back, split, inRun, delimited, noMail, noNumber⟩ :=
    sheltered
  have nonempty : run ≠ [] := List.ne_nil_of_mem (inRun inside)
  obtain ⟨before, behind, isSuffix, isPrefix, among⟩ :=
    cut_infix split nonempty noMail
  obtain ⟨before', behind', isSuffix', isPrefix', among'⟩ :=
    cut_infix rfl nonempty (noNumber _ among)
  have nodup := nodup_placed text
  rw [split] at nodup found
  have there := findIter_around endless_creditCard delimited
    (isSuffix'.trans isSuffix) (isPrefix'.trans isPrefix) nodup found inRun
  exact not_mem_cut (nodup_beforeCards text)
    (List.mem_flatMap_of_mem among among') there inside inCut

/-- A match is gone if cards take what the first two patterns leave of it. -/
theorem gone_iff_takenAsCard (original : ∀ item ∈ hit, item ∈ placed text) :
    (∀ item ∈ hit, item ∉ shadow text) ↔ TakenAsCard text hit := by
  constructor
  · intro gone item inside piece among inPiece
    refine exists_of_not_mem_cut among inPiece fun left => ?_
    exact gone item inside ((mem_shadow_iff (original item inside)).mpr left)
  · intro taken item inside left
    have inCut := (mem_shadow_iff (original item inside)).mp left
    obtain ⟨piece, among, inPiece⟩ :=
      List.mem_flatten.mp (mem_of_mem_cut inCut)
    obtain ⟨card, found, inCard⟩ := taken item inside piece among inPiece
    exact not_mem_cut (nodup_beforeCards text) among found inCard inCut

theorem leavesNoPart_iff (text : Str) :
    (shadow text).map Prod.fst = withDefaults.apply text ∧
      (LeavesNoPart text ↔ CutCleanly text) := by
  refine ⟨shadow_text text, ?_, ?_⟩
  · intro leaves
    constructor
    · intro hit found _
      exact (gone_iff_takenAsCard fun _ => mem_placed found).mp
        (leaves phone (by simp [withDefaults]) hit found)
    · intro hit found _
      exact (gone_iff_takenAsCard fun _ => mem_placed found).mp
        (leaves creditCard (by simp [withDefaults]) hit found)
  · intro clean pattern among hit found
    simp only [withDefaults, List.mem_cons, List.not_mem_nil, or_false] at among
    rcases among with rfl | rfl | rfl
    · exact fun item => mail_gone found
    · by_cases shared : ∃ mail ∈ RedactionPolicy.email.findIter (placed text),
          ∃ item ∈ hit, item ∈ mail
      · exact (gone_iff_takenAsCard fun _ => mem_placed found).mpr
          (clean.phones hit found shared)
      · exact fun item => phone_gone found shared
    · by_cases sheltered : Sheltered text hit
      · exact fun item => card_gone found sheltered
      · exact (gone_iff_takenAsCard fun _ => mem_placed found).mpr
          (clean.cards hit found sheltered)

end

/-! ## A card that a phone number cuts -/

@[reducible] def asciiClasses : RegexClasses where
  isWord char := isAsciiAlphanumeric char || char == '_'
  isDigit := isAsciiDigit
  isDigit_ascii _ _ := rfl
  isWord_ascii _ _ := rfl

section

attribute [local instance] asciiClasses

/-- The phone number of thirteen digits leaves three of the card. -/
theorem cardNumber_not_leavesNoPart :
    ¬ ∀ text : Str, LeavesNoPart text := by
  intro leaves
  exact absurd (leaves "4111111111111111".toList) (by decide +kernel)

end

end Redaction

end TrustLayer.ThemisOrchestrator
