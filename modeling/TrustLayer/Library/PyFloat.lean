import Mathlib.Data.Rat.Floor
import TrustLayer.Library.Datetime

/-!
# Python's `float`

The finite values are read as exact numbers.
-/

namespace TrustLayer.Library

inductive PyFloat where
  | finite (value : ℚ)
  | infinite (negative : Bool)
  | nan
  deriving DecidableEq

namespace PyFloat

def neg : PyFloat → PyFloat
  | .finite value => .finite (-value)
  | .infinite negative => .infinite (!negative)
  | .nan => .nan

/-- `<`, which never holds of `nan`. -/
def lt : PyFloat → PyFloat → Bool
  | .nan, _ | _, .nan => false
  | .finite left, .finite right => left < right
  | .finite _, .infinite negative => !negative
  | .infinite negative, .finite _ => negative
  | .infinite negative, .infinite other => negative && !other

/-- `if value`. -/
def truthy : PyFloat → Bool
  | .finite value => value ≠ 0
  | .infinite _ | .nan => true

/-! ## Reading -/

/-- Every underscore stands between two digits. -/
def underscoresFit : (before : Option Char) → Str → Bool
  | _, [] => true
  | before, char :: text =>
      (char ≠ '_' || (before.any isAsciiDigit && text.head?.any isAsciiDigit)) &&
        underscoresFit (some char) text

/-- The power of ten behind an `e`. -/
def exponent : Str → Option Int
  | [] => some 0
  | mark :: text =>
      let negative := text.head? = some '-'
      let digits :=
        if negative ∨ text.head? = some '+' then text.tail else text
      if (mark = 'e' ∨ mark = 'E') ∧ digits ≠ [] ∧ digits.all isAsciiDigit then
        some (if negative then -digitsNumber digits else digitsNumber digits)
      else none

/-- A number without sign: digits, a point and digits, an exponent. -/
def decimal (text : Str) : Option ℚ :=
  let whole := text.takeWhile isAsciiDigit
  let rest := text.dropWhile isAsciiDigit
  let pointed := rest.head? = some '.'
  let fraction := if pointed then rest.tail.takeWhile isAsciiDigit else []
  let rest := if pointed then rest.tail.dropWhile isAsciiDigit else rest
  if whole = [] ∧ fraction = [] then none
  else
    (exponent rest).map fun power : Int =>
      digitsNumber (whole ++ fraction) *
        (10 : ℚ) ^ (power - (fraction.length : Int))

/-- A number without sign, `none` where it raises `ValueError`. -/
def unsigned (text : Str) : Option PyFloat :=
  let name := toAsciiLowercase text
  if name = "inf".toList ∨ name = "infinity".toList then some (.infinite false)
  else if name = "nan".toList then some .nan
  else if underscoresFit none text then
    (decimal (text.filter (· ≠ '_'))).map .finite
  else none

/-- `float(text)` of a text without spaces around it. -/
def ofText : Str → Option PyFloat
  | '-' :: text => (unsigned text).map neg
  | '+' :: text => unsigned text
  | text => unsigned text

/-! ## A digit, a point and digits -/

section

variable {first : Char} {digits : Str}

theorem isAsciiDigit_ne {char mark : Char} (digit : isAsciiDigit char = true)
    (other : isAsciiDigit mark = false) : char ≠ mark := by
  rintro rfl
  rw [digit] at other
  cases other

theorem decimal_pointed (firstDigit : isAsciiDigit first = true)
    (rest : ∀ digit ∈ digits, isAsciiDigit digit = true) :
    decimal (first :: '.' :: digits) =
      some (digitsNumber (first :: digits) * (10 : ℚ) ^ (-digits.length : ℤ)) := by
  have point : isAsciiDigit '.' = false := rfl
  have fraction : digits.takeWhile isAsciiDigit = digits :=
    List.takeWhile_eq_self_iff.mpr rest
  have behind : digits.dropWhile isAsciiDigit = [] :=
    List.dropWhile_eq_nil_iff.mpr rest
  simp [decimal, firstDigit, point, fraction, behind, exponent]

theorem decimal_digit (firstDigit : isAsciiDigit first = true) :
    decimal [first] = some (digitsNumber [first] : ℚ) := by
  simp [decimal, firstDigit, exponent]

theorem underscoresFit_of_not_mem {text : Str} (plain : '_' ∉ text)
    (before : Option Char) : underscoresFit before text = true := by
  induction text generalizing before with
  | nil => rfl
  | cons char text induction =>
      obtain ⟨here, later⟩ := not_or.mp (mt List.mem_cons.mpr plain)
      simp [underscoresFit, Ne.symm here, induction later]

/-- A text that starts with a digit is not the name of a value. -/
theorem ofText_of_digit {text : Str} (firstDigit : isAsciiDigit first = true)
    (plain : '_' ∉ first :: text) :
    ofText (first :: text) = (decimal (first :: text)).map .finite := by
  have minus := isAsciiDigit_ne firstDigit
    (show isAsciiDigit '-' = false from rfl)
  have plus := isAsciiDigit_ne firstDigit
    (show isAsciiDigit '+' = false from rfl)
  have lower : toAsciiLower first = first := by
    have bounds := Bool.and_eq_true_iff.mp firstDigit
    have high : first.toNat ≤ 57 := of_decide_eq_true bounds.2
    refine if_neg fun upper => ?_
    have low : 65 ≤ first.toNat := upper.1
    omega
  have named (mark : Char) (name : Str) (letter : isAsciiDigit mark = false) :
      toAsciiLowercase (first :: text) ≠ mark :: name := by
    intro same
    have heads := (List.cons.inj same).1
    rw [lower] at heads
    exact isAsciiDigit_ne firstDigit letter heads
  have whole : (first :: text).filter (· ≠ '_') = first :: text := by
    refine List.filter_eq_self.mpr fun char member => decide_eq_true ?_
    rintro rfl
    exact plain member
  have signless : ofText (first :: text) = unsigned (first :: text) := by
    unfold ofText
    split
    · simp_all
    · simp_all
    · rfl
  have noInf : toAsciiLowercase (first :: text) ≠ "inf".toList :=
    named 'i' _ rfl
  have noInfinity : toAsciiLowercase (first :: text) ≠ "infinity".toList :=
    named 'i' _ rfl
  have noNan : toAsciiLowercase (first :: text) ≠ "nan".toList :=
    named 'n' _ rfl
  rw [signless, unsigned, if_neg (not_or.mpr ⟨noInf, noInfinity⟩),
    if_neg noNan, if_pos (underscoresFit_of_not_mem plain none), whole]

end

end PyFloat

end TrustLayer.Library
