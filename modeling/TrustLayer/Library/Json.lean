import TrustLayer.Library.Encoding
import Mathlib.Data.List.Sort

/-!
# JSON values and their printed form

The values that `json.loads` yields, with dictionaries as association lists,
and the text that `json.dumps` prints for them.
-/

namespace TrustLayer.Library

/-- A float is kept as the text that `repr` prints for it. -/
inductive Json where
  | null
  | bool (value : Bool)
  | int (value : Int)
  | float (repr : Str)
  | str (text : Str)
  | arr (items : List Json)
  | obj (members : List (Str × Json))

/-- A dictionary with text keys, in insertion order. -/
abbrev Dict := List (Str × Json)

namespace Json

mutual

/-- Structural equality, decided along both values. -/
def decideEq : (left right : Json) → Decidable (left = right)
  | .null, .null => .isTrue rfl
  | .bool left, .bool right => decidable_of_iff (left = right) (by simp)
  | .int left, .int right => decidable_of_iff (left = right) (by simp)
  | .float left, .float right => decidable_of_iff (left = right) (by simp)
  | .str left, .str right => decidable_of_iff (left = right) (by simp)
  | .arr left, .arr right =>
      have := decideEqItems left right
      decidable_of_iff (left = right) (by simp)
  | .obj left, .obj right =>
      have := decideEqMembers left right
      decidable_of_iff (left = right) (by simp)
  | .null, .bool _ | .null, .int _ | .null, .float _ | .null, .str _
  | .null, .arr _ | .null, .obj _ | .bool _, .null | .bool _, .int _
  | .bool _, .float _ | .bool _, .str _ | .bool _, .arr _ | .bool _, .obj _
  | .int _, .null | .int _, .bool _ | .int _, .float _ | .int _, .str _
  | .int _, .arr _ | .int _, .obj _ | .float _, .null | .float _, .bool _
  | .float _, .int _ | .float _, .str _ | .float _, .arr _ | .float _, .obj _
  | .str _, .null | .str _, .bool _ | .str _, .int _ | .str _, .float _
  | .str _, .arr _ | .str _, .obj _ | .arr _, .null | .arr _, .bool _
  | .arr _, .int _ | .arr _, .float _ | .arr _, .str _ | .arr _, .obj _
  | .obj _, .null | .obj _, .bool _ | .obj _, .int _ | .obj _, .float _
  | .obj _, .str _ | .obj _, .arr _ => .isFalse (by simp)

def decideEqItems : (left right : List Json) → Decidable (left = right)
  | [], [] => .isTrue rfl
  | left :: lefts, right :: rights =>
      have := decideEq left right
      have := decideEqItems lefts rights
      decidable_of_iff (left = right ∧ lefts = rights) (by simp)
  | [], _ :: _ | _ :: _, [] => .isFalse (by simp)

def decideEqMembers :
    (left right : List (Str × Json)) → Decidable (left = right)
  | [], [] => .isTrue rfl
  | (key, left) :: lefts, (other, right) :: rights =>
      have := decideEq left right
      have := decideEqMembers lefts rights
      decidable_of_iff ((key = other ∧ left = right) ∧ lefts = rights) (by simp)
  | [], _ :: _ | _ :: _, [] => .isFalse (by simp)

end

instance decidableEqJson : DecidableEq Json := decideEq

/-- The truth value of a Python object. -/
def truthy : Json → Bool
  | .null => false
  | .bool value => value
  | .int value => value != 0
  | .float repr => repr != "0.0".toList && repr != "-0.0".toList
  | .str text => !text.isEmpty
  | .arr items => !items.isEmpty
  | .obj members => !members.isEmpty

/-- `value.get(key)`, which only a dictionary has. -/
def get? (value : Json) (key : String) : Option Json :=
  match value with
  | .obj members => some ((members.lookup key.toList).getD .null)
  | .null | .bool _ | .int _ | .float _ | .str _ | .arr _ => none

/-- What `get` finds, apart from the default of an absent key. -/
theorem get?_eq_some_iff {value found : Json} {key : String}
    (present : found ≠ .null) :
    value.get? key = some found ↔
      ∃ members, value = .obj members ∧
        members.lookup key.toList = some found := by
  cases value with
  | obj members =>
      cases lookup : members.lookup key.toList with
      | none => simp [get?, lookup, present.symm]
      | some found => simp [get?, lookup]
  | _ => simp [get?]

/-! ## Printing -/

def hex4 (code : Nat) : Str :=
  [hexDigit (code / 4096 % 16), hexDigit (code / 256 % 16),
    hexDigit (code / 16 % 16), hexDigit (code % 16)]

/-- Everything outside the printable ASCII characters is escaped, the
characters beyond U+FFFF as a surrogate pair. -/
def escapeChar (char : Char) : Str :=
  if char = '"' then ['\\', '"']
  else if char = '\\' then ['\\', '\\']
  else if char = '\n' then ['\\', 'n']
  else if char = '\r' then ['\\', 'r']
  else if char = '\t' then ['\\', 't']
  else if char.toNat = 8 then ['\\', 'b']
  else if char.toNat = 12 then ['\\', 'f']
  else if ' ' ≤ char ∧ char ≤ '~' then [char]
  else if char.toNat < 0x10000 then '\\' :: 'u' :: hex4 char.toNat
  else
    let offset := char.toNat - 0x10000
    '\\' :: 'u' :: hex4 (0xD800 + offset / 1024) ++
      '\\' :: 'u' :: hex4 (0xDC00 + offset % 1024)

def dumpsText (text : Str) : Str :=
  '"' :: text.flatMap escapeChar ++ ['"']

def separated (parts : List Str) : Str :=
  ", ".toList.intercalate parts

def dumpsMember (entry : Str × Str) : Str :=
  dumpsText entry.1 ++ ": ".toList ++ entry.2

mutual

/-- `json.dumps(value, sort_keys=sort_keys)`. -/
def dumps (sortKeys : Bool) : Json → Str
  | .null => "null".toList
  | .bool value => if value then "true".toList else "false".toList
  | .int value => (toString value).toList
  | .float repr => repr
  | .str text => dumpsText text
  | .arr items => '[' :: separated (dumpsItems sortKeys items) ++ [']']
  | .obj members =>
      let printed := dumpsMembers sortKeys members
      let ordered :=
        if sortKeys then printed.insertionSort fun left right => left.1 ≤ right.1
        else printed
      '\x7b' :: separated (ordered.map dumpsMember) ++ ['\x7d']

def dumpsItems (sortKeys : Bool) : List Json → List Str
  | [] => []
  | item :: items => dumps sortKeys item :: dumpsItems sortKeys items

def dumpsMembers (sortKeys : Bool) : List (Str × Json) → List (Str × Str)
  | [] => []
  | (key, value) :: members =>
      (key, dumps sortKeys value) :: dumpsMembers sortKeys members

end

example : dumps true (.obj [("b".toList, .arr [.int (-1), .null]),
      ("a".toList, .str ['é', '\n'])]) =
    "\x7b\"a\": \"\\u00e9\\n\", \"b\": [-1, null]\x7d".toList := by
  decide

end Json

end TrustLayer.Library
