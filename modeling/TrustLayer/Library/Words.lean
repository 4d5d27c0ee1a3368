import TrustLayer.Library.Text

/-!
# Words

The words of a text are its parts without white space.  Words that are joined
by blanks are found again.
-/

namespace TrustLayer.Library

/-- A text that is a single word. -/
structure IsWord (word : Str) : Prop where
  nonempty : word ≠ []
  visible : ∀ char ∈ word, isWhitespace char = false

/-- `join(" ")`. -/
def joinBlank (parts : List Str) : Str :=
  [' '].intercalate parts

variable {text word : Str} {words : List Str}

theorem isWhitespace_blank : isWhitespace ' ' = true := by
  decide

/-- White space is passed over, and a word goes on to the next white space. -/
theorem words_induction {property : Str → Prop} (empty : property [])
    (space : ∀ char text, isWhitespace char = true → property text →
      property (char :: text))
    (word : ∀ char text, isWhitespace char = false →
      property (text.dropWhile fun char => !isWhitespace char) →
      property (char :: text)) : (text : Str) → property text
  | [] => empty
  | char :: text =>
      match isSpace : isWhitespace char with
      | true =>
          space char text isSpace (words_induction empty space word text)
      | false =>
          have _ := (List.dropWhile_sublist
            (fun char => !isWhitespace char) (l := text)).length_le
          word char text isSpace (words_induction empty space word
            (text.dropWhile fun char => !isWhitespace char))
termination_by text => text.length

theorem isWord_of_mem (member : word ∈ splitWhitespace text) : IsWord word := by
  induction text using words_induction with
  | empty => cases member
  | space char text isSpace induction =>
      rw [splitWhitespace_cons_of_isWhitespace isSpace] at member
      exact induction member
  | word char text visible induction =>
      rw [splitWhitespace_cons visible] at member
      rcases List.mem_cons.mp member with rfl | later
      · refine ⟨List.cons_ne_nil _ _, ?_⟩
        rw [List.forall_mem_cons]
        refine ⟨visible, fun other inWord => ?_⟩
        simpa using List.mem_takeWhile_imp inWord
      · exact induction later

theorem splitWhitespace_word (isWord : IsWord word) :
    splitWhitespace word = [word] := by
  rw [splitWhitespace, List.splitOnP_eq_singleton isWord.visible]
  simp [isWord.nonempty]

theorem splitWhitespace_joinBlank (parts : List Str) :
    splitWhitespace (joinBlank parts) = parts.flatMap splitWhitespace := by
  induction parts with
  | nil => rfl
  | cons part parts induction =>
      cases parts with
      | nil => simp [joinBlank]
      | cons next parts =>
          rw [joinBlank, List.intercalate_cons_cons, List.append_assoc,
            List.singleton_append, splitWhitespace_append isWhitespace_blank,
            List.flatMap_cons, ← induction]
          rfl

/-- Joined words are found again. -/
theorem splitWhitespace_joinBlank_words (areWords : ∀ word ∈ words, IsWord word) :
    splitWhitespace (joinBlank words) = words := by
  rw [splitWhitespace_joinBlank]
  induction words with
  | nil => rfl
  | cons word words induction =>
      rw [List.forall_mem_cons] at areWords
      rw [List.flatMap_cons, splitWhitespace_word areWords.1,
        induction areWords.2]
      rfl

/-- The words have all characters but the white space. -/
theorem flatten_splitWhitespace (text : Str) :
    (splitWhitespace text).flatten = text.filter fun char => !isWhitespace char := by
  induction text using words_induction with
  | empty => rfl
  | space char text isSpace induction =>
      rw [splitWhitespace_cons_of_isWhitespace isSpace, induction]
      simp [isSpace]
  | word char text visible induction =>
      have parts := @List.takeWhile_append_dropWhile _
        (fun char => !isWhitespace char) text
      have whole : (text.takeWhile fun char => !isWhitespace char).filter
          (fun char => !isWhitespace char) =
            text.takeWhile fun char => !isWhitespace char := by
        rw [List.filter_eq_self]
        intro other member
        simpa using List.mem_takeWhile_imp member
      rw [splitWhitespace_cons visible, List.flatten_cons, induction,
        List.filter_cons_of_pos (by simp [visible])]
      conv_rhs => rw [← parts, List.filter_append, whole]
      rfl

theorem joinBlank_eq_nil_iff (areWords : ∀ word ∈ words, IsWord word) :
    joinBlank words = [] ↔ words = [] := by
  constructor
  · intro empty
    have again := splitWhitespace_joinBlank_words areWords
    rw [empty] at again
    exact again.symm
  · rintro rfl
    rfl

end TrustLayer.Library
