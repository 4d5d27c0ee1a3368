import Mathlib.Data.List.Basic
import Mathlib.Data.List.Induction

/-!
# Printed values that can be read off again

A printer is readable at a value when its text, in front of anything that a
stop may begin, is the text of no other value and leaves the same rest.
-/

namespace TrustLayer.Library

section

variable {α γ : Type} {stop : γ → Prop} {print : α → List γ}

/-- What follows a value is empty or begins with a stop. -/
def Stops (stop : γ → Prop) (rest : List γ) : Prop :=
  ∀ first ∈ rest.head?, stop first

@[simp] theorem stops_nil : Stops stop [] := by
  simp [Stops]

@[simp] theorem stops_cons {first : γ} {rest : List γ} :
    Stops stop (first :: rest) ↔ stop first := by
  simp [Stops]

/-- The value and the rest are read off the text of `left`. -/
def ReadableAt (stop : γ → Prop) (print : α → List γ) (good : α → Prop)
    (left : α) : Prop :=
  ∀ right rest other, good right → Stops stop rest → Stops stop other →
    print left ++ rest = print right ++ other → left = right ∧ rest = other

/-- Readable in front of any text. -/
def PrefixFree (print : α → List γ) : Prop :=
  ∀ left right rest other,
    print left ++ rest = print right ++ other → left = right ∧ rest = other

/-- Readable values with equal texts are equal. -/
theorem ReadableAt.inj {good : α → Prop} {left right : α}
    (readable : ReadableAt stop print good left) (rightGood : good right)
    (same : print left = print right) : left = right := by
  have padded : print left ++ [] = print right ++ [] := by
    rw [same]
  exact (readable right [] [] rightGood stops_nil stops_nil padded).1

/-- A text whose characters are no stops ends where a stop begins. -/
theorem append_inj_of_stops {left right rest other : List γ}
    (leftInner : ∀ char ∈ left, ¬ stop char)
    (rightInner : ∀ char ∈ right, ¬ stop char)
    (restStops : Stops stop rest) (otherStops : Stops stop other)
    (same : left ++ rest = right ++ other) : left = right ∧ rest = other := by
  induction left generalizing right with
  | nil =>
      cases right with
      | nil => exact ⟨rfl, same⟩
      | cons char right =>
          rw [List.nil_append, List.cons_append] at same
          subst same
          apply absurd (stops_cons.mp restStops)
          exact rightInner char List.mem_cons_self
  | cons char left induction =>
      cases right with
      | nil =>
          rw [List.nil_append, List.cons_append] at same
          subst same
          apply absurd (stops_cons.mp otherStops)
          exact leftInner char List.mem_cons_self
      | cons first right =>
          obtain ⟨rfl, tail⟩ := List.cons.inj same
          obtain ⟨rfl, rests⟩ := induction
            (fun inner member => leftInner inner (List.mem_cons_of_mem _ member))
            (fun inner member => rightInner inner (List.mem_cons_of_mem _ member))
            tail
          exact ⟨rfl, rests⟩

/-- Pieces that are not empty make a text at least as long as the list. -/
theorem length_le_flatMap (nonempty : ∀ item, 1 ≤ (print item).length)
    (items : List α) : items.length ≤ (items.flatMap print).length := by
  induction items with
  | nil => exact Nat.le_refl 0
  | cons item items induction =>
      have one := nonempty item
      rw [List.flatMap_cons, List.length_append, List.length_cons]
      omega

/-- Pieces that are prefix free, up to a closing character that begins none. -/
theorem flatMap_append_inj (free : PrefixFree print) {close : γ}
    (opens : ∀ item rest other, print item ++ rest ≠ close :: other)
    {left right : List α} {rest other : List γ}
    (same : left.flatMap print ++ close :: rest =
      right.flatMap print ++ close :: other) : left = right ∧ rest = other := by
  induction left generalizing right with
  | nil =>
      cases right with
      | nil => exact ⟨rfl, (List.cons.inj same).2⟩
      | cons item right =>
          rw [List.flatMap_cons, List.append_assoc] at same
          exact absurd same.symm (opens item _ _)
  | cons item left induction =>
      rw [List.flatMap_cons, List.append_assoc] at same
      cases right with
      | nil => exact absurd same (opens item _ _)
      | cons first right =>
          rw [List.flatMap_cons, List.append_assoc] at same
          obtain ⟨rfl, later⟩ := free _ _ _ _ same
          obtain ⟨rfl, rests⟩ := induction later
          exact ⟨rfl, rests⟩

/-! ## Separated lists -/

/-- The texts of the items behind the first, each after a separator, and the
closing text. -/
def printTail (print : α → List γ) (separator : γ) (close : List γ) :
    List α → List γ
  | [] => close
  | item :: items =>
      separator :: (print item ++ printTail print separator close items)

/-- The items and the closing text, or a text of its own for no items. -/
def printItems (print : α → List γ) (separator : γ) (close empty : List γ) :
    List α → List γ
  | [] => empty
  | item :: items => print item ++ printTail print separator close items

variable {good : α → Prop} {separator : γ} {close empty : List γ}

theorem stops_printTail (separatorStops : stop separator)
    (closeStops : ∀ rest, Stops stop (close ++ rest)) (items : List α)
    (rest : List γ) :
    Stops stop (printTail print separator close items ++ rest) := by
  cases items with
  | nil => exact closeStops rest
  | cons item items => exact stops_cons.mpr separatorStops

/-- The tail of a list is read off when each of its items is. -/
theorem printTail_append_inj (separatorStops : stop separator)
    (closeStops : ∀ rest, Stops stop (close ++ rest))
    (different : ∀ rest other, separator :: rest ≠ close ++ other)
    {left right : List α} {rest other : List γ}
    (readable : ∀ item ∈ left, ReadableAt stop print good item)
    (rightGood : ∀ item ∈ right, good item)
    (same : printTail print separator close left ++ rest =
      printTail print separator close right ++ other) :
    left = right ∧ rest = other := by
  induction left generalizing right with
  | nil =>
      cases right with
      | nil => exact ⟨rfl, List.append_cancel_left same⟩
      | cons item right => exact absurd same.symm (different _ _)
  | cons item left induction =>
      cases right with
      | nil => exact absurd same (different _ _)
      | cons first right =>
          rw [printTail, printTail, List.cons_append, List.cons_append,
            List.append_assoc, List.append_assoc] at same
          have texts := (List.cons.inj same).2
          have itemReadable := readable item List.mem_cons_self
          have firstGood := rightGood first List.mem_cons_self
          obtain ⟨rfl, tails⟩ := itemReadable first _ _ firstGood
            (stops_printTail separatorStops closeStops left rest)
            (stops_printTail separatorStops closeStops right other) texts
          obtain ⟨rfl, rests⟩ := induction
            (fun inner member => readable inner (List.mem_cons_of_mem _ member))
            (fun inner member => rightGood inner (List.mem_cons_of_mem _ member))
            tails
          exact ⟨rfl, rests⟩

/-- A separated list is read off when each of its items is, and none begins
with the text of the empty list. -/
theorem printItems_append_inj (separatorStops : stop separator)
    (closeStops : ∀ rest, Stops stop (close ++ rest))
    (different : ∀ rest other, separator :: rest ≠ close ++ other)
    (opens : ∀ item rest other, good item →
      print item ++ rest ≠ empty ++ other)
    {left right : List α} {rest other : List γ}
    (readable : ∀ item ∈ left, ReadableAt stop print good item)
    (leftGood : ∀ item ∈ left, good item)
    (rightGood : ∀ item ∈ right, good item)
    (same : printItems print separator close empty left ++ rest =
      printItems print separator close empty right ++ other) :
    left = right ∧ rest = other := by
  cases left with
  | nil =>
      cases right with
      | nil => exact ⟨rfl, List.append_cancel_left same⟩
      | cons item right =>
          rw [printItems, printItems, List.append_assoc] at same
          apply absurd same.symm
          exact opens item _ _ (rightGood item List.mem_cons_self)
  | cons item left =>
      cases right with
      | nil =>
          rw [printItems, printItems, List.append_assoc] at same
          apply absurd same
          exact opens item _ _ (leftGood item List.mem_cons_self)
      | cons first right =>
          rw [printItems, printItems, List.append_assoc,
            List.append_assoc] at same
          have itemReadable := readable item List.mem_cons_self
          have firstGood := rightGood first List.mem_cons_self
          obtain ⟨rfl, tails⟩ := itemReadable first _ _ firstGood
            (stops_printTail separatorStops closeStops left rest)
            (stops_printTail separatorStops closeStops right other) same
          obtain ⟨rfl, rests⟩ := printTail_append_inj separatorStops closeStops
            different
            (fun inner member => readable inner (List.mem_cons_of_mem _ member))
            (fun inner member => rightGood inner (List.mem_cons_of_mem _ member))
            tails
          exact ⟨rfl, rests⟩

end

/-! ## Fields behind a text -/

section

variable {γ : Type} {separator : γ}

/-- The fields behind a text, each after a separator. -/
def joinFields (separator : γ) (front : List γ) (fields : List (List γ)) :
    List γ :=
  front ++ fields.flatMap fun field => separator :: field

theorem joinFields_concat (front : List γ) (fields : List (List γ))
    (field : List γ) :
    joinFields separator front (fields ++ [field]) =
      joinFields separator front fields ++ separator :: field := by
  simp [joinFields]

/-- The last separator is where a field without separators begins. -/
theorem last_field_inj {front other field otherField : List γ}
    (inner : separator ∉ field) (otherInner : separator ∉ otherField)
    (same : front ++ separator :: field = other ++ separator :: otherField) :
    front = other ∧ field = otherField := by
  rcases List.append_eq_append_iff.mp same with
    ⟨between, longer, rest⟩ | ⟨between, longer, rest⟩
  · cases between with
    | nil => exact ⟨by simpa using longer.symm, (List.cons.inj rest).2⟩
    | cons first between =>
        rw [(List.cons.inj rest).2] at inner
        exact absurd (List.mem_append_right between List.mem_cons_self) inner
  · cases between with
    | nil => exact ⟨by simpa using longer, (List.cons.inj rest).2.symm⟩
    | cons first between =>
        rw [(List.cons.inj rest).2] at otherInner
        exact absurd (List.mem_append_right between List.mem_cons_self)
          otherInner

/-- Whatever the text in front holds, a given number of fields without
separators is split off from the end. -/
theorem joinFields_inj {front other : List γ} {fields others : List (List γ)}
    (inner : ∀ field ∈ fields, separator ∉ field)
    (otherInner : ∀ field ∈ others, separator ∉ field)
    (length : fields.length = others.length)
    (same : joinFields separator front fields =
      joinFields separator other others) :
    front = other ∧ fields = others := by
  induction fields using List.reverseRecOn generalizing others with
  | nil =>
      cases List.length_eq_zero_iff.mp length.symm
      exact ⟨by simpa [joinFields] using same, rfl⟩
  | append_singleton fields field induction =>
      cases others using List.reverseRecOn with
      | nil => simp at length
      | append_singleton others otherField =>
          rw [joinFields_concat, joinFields_concat] at same
          obtain ⟨fronts, rfl⟩ := last_field_inj
            (inner field (by simp)) (otherInner otherField (by simp)) same
          obtain ⟨rfl, rfl⟩ := induction
            (fun field member => inner field (List.mem_append_left _ member))
            (fun field member =>
              otherInner field (List.mem_append_left _ member))
            (by simpa using length) fronts
          exact ⟨rfl, rfl⟩

end

end TrustLayer.Library
