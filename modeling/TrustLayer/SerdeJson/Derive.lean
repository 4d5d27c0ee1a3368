import TrustLayer.SerdeJson

/-!
# The readers that serde derives

A structure is read from an object by the names of its fields, or from an array
by their places.  The parser itself is third-party code; it hands the readers
the tree of a text, in which an object lists what the text has, doubles
included.
-/

namespace TrustLayer.SerdeJson

open TrustLayer.Library hiding Json
open TrustLayer.AgentGuard (Json)

/-- The parser, and the texts of its errors for a type that is asked for. -/
class Parser where
  tree : (text : Str) → Option Json
  textError : (type text : Str) → Str
  valueError : (type : Str) → Json → Str

section

variable {α : Type}

/-- The values of the fields, in the order of the names.  A field of the
structure must not stand twice; any other field is passed over. -/
def structFields (names : List Str) : Json → Option (List (Option Json))
  | .array items =>
      if items.length = names.length then some (items.map some) else none
  | .object fields =>
      if ((fields.map Prod.fst).filter names.contains).Nodup then
        some (names.map fun name => fields.lookup name)
      else none
  | _ => none

/-- The same where the fields from a place on have defaults: an array may end
there. -/
def fieldsFrom (least : Nat) (names : List Str) :
    Json → Option (List (Option Json))
  | .array items =>
      if least ≤ items.length ∧ items.length ≤ names.length then
        some (items.map some ++
          List.replicate (names.length - items.length) none)
      else none
  | json => structFields names json

/-- A field that may be absent, and has a default then. -/
def readDefault (default : α) (read : Json → Option α) :
    Option Json → Option α
  | none => some default
  | some value => read value

def readVec (read : Json → Option α) : Json → Option (List α)
  | .array items => items.mapM read
  | _ => none

def readBool : Json → Option Bool
  | .bool value => some value
  | _ => none

def readU32 : Json → Option UInt32
  | .number literal =>
      let value := literal.foldl
        (fun value digit => value * 10 + (digit.toNat - 48)) 0
      if literal ≠ [] ∧ literal.all Char.isDigit ∧ value < 2 ^ 32 then
        some (UInt32.ofNat value)
      else none
  | _ => none

/-- A field that may be absent; null is nothing as well. -/
def readOption (read : Json → Option α) : Option Json → Option (Option α)
  | none | some .null => some none
  | some value => (read value).map some

/-- A variant without data stands alone, or in front of null. -/
def readVariant (variants : List (Str × α)) : Json → Option α
  | .string tag => variants.lookup tag
  | .object [(tag, .null)] => variants.lookup tag
  | _ => none

/-- `serde_json::from_str`. -/
def fromStr [Parser] (type : Str) (read : Json → Option α) (text : Str) :
    Except Str α :=
  match (Parser.tree text).bind read with
  | some value => .ok value
  | none => .error (Parser.textError type text)

/-- `serde_json::from_value`. -/
def fromValue [Parser] (type : Str) (read : Json → Option α) (value : Json) :
    Except Str α :=
  match read value with
  | some value => .ok value
  | none => .error (Parser.valueError type value)

theorem forall_of_readVec {read : Json → Option α} {json : Json}
    {values : List α} {property : α → Prop}
    (found : readVec read json = some values)
    (sound : ∀ item value, read item = some value → property value) :
    ∀ value ∈ values, property value := by
  cases json with
  | array items =>
      rw [readVec] at found
      induction items generalizing values with
      | nil =>
          cases found
          simp
      | cons item items induction =>
          simp only [List.mapM_cons, Option.bind_eq_bind, Option.pure_def,
            Option.bind_eq_some_iff, Option.some.injEq] at found
          obtain ⟨first, head, others, tail, rfl⟩ := found
          rw [List.forall_mem_cons]
          exact ⟨sound item first head, induction tail⟩
  | _ => cases found

variable [Parser] {type text : Str} {read : Json → Option α} {value : α}

theorem fromStr_eq_ok_iff :
    fromStr type read text = .ok value ↔
      (Parser.tree text).bind read = some value := by
  cases found : (Parser.tree text).bind read <;> simp [fromStr, found]

theorem fromStr_eq_error (unread : (Parser.tree text).bind read = none) :
    fromStr type read text = .error (Parser.textError type text) := by
  rw [fromStr, unread]

theorem fromValue_eq_ok_iff {json : Json} :
    fromValue type read json = .ok value ↔ read json = some value := by
  cases found : read json <;> simp [fromValue, found]

end

example : structFields ["a".toList, "b".toList]
    (.object [("b".toList, .null), ("c".toList, .null), ("c".toList, .null)]) =
      some [none, some .null] := by
  rfl

end TrustLayer.SerdeJson
