import TrustLayer.SerdeJson.Derive
import TrustLayer.SerdeJson.Reordering

/-!
# Shapes of objects

What an object has in each of its fields.  A structure that is read and written
again is the same object exactly where each of its fields is.
-/

namespace TrustLayer.SerdeJson

open TrustLayer.Library hiding Json
open TrustLayer.AgentGuard (Json)

/-! ## Shapes -/

/-- The fields of a map: in the order of their keys, and no key twice. -/
def IsMap (fields : List (Str × Json)) : Prop :=
  (fields.map Prod.fst).Pairwise (· < ·)

instance (fields : List (Str × Json)) : Decidable (IsMap fields) :=
  inferInstanceAs (Decidable (List.Pairwise _ _))

/-- An object without other fields than these, each as it should be. -/
def HasFields (shape : List (Str × (Option Json → Prop))) (json : Json) : Prop :=
  ∃ fields, json = .object fields ∧ IsMap fields ∧
    (∀ key ∈ fields.map Prod.fst, key ∈ shape.map Prod.fst) ∧
    ∀ expected ∈ shape, expected.2 (fields.lookup expected.1)

section

variable (holds : Json → Prop)

def Required : Option Json → Prop
  | none => False
  | some value => holds value

def Optional : Option Json → Prop
  | none => True
  | some value => holds value

def Elements : Json → Prop
  | .array items => ∀ item ∈ items, holds item
  | _ => False

end

def IsText (json : Json) : Prop :=
  ∃ text, json = .string text

section

variable {known first second : Json → Prop} {value : Option Json} {json : Json}

theorem Required.congr (present : Required known value)
    (same : ∀ json, known json → (first json ↔ second json)) :
    Required first value ↔ Required second value := by
  cases value with
  | none => cases present
  | some json => exact same json present

theorem Elements.congr (each : Elements known json)
    (same : ∀ json, known json → (first json ↔ second json)) :
    Elements first json ↔ Elements second json := by
  cases json with
  | array items =>
      exact forall₂_congr fun item member => same item (each item member)
  | _ => cases each

theorem hasFields_object_iff {shape : List (Str × (Option Json → Prop))}
    {fields : List (Str × Json)} :
    HasFields shape (.object fields) ↔
      IsMap fields ∧ (∀ key ∈ fields.map Prod.fst, key ∈ shape.map Prod.fst) ∧
        ∀ expected ∈ shape, expected.2 (fields.lookup expected.1) := by
  constructor
  · rintro ⟨_, same, holds⟩
    cases same
    exact holds
  · intro holds
    exact ⟨fields, rfl, holds⟩

/-- Two shapes that agree on the fields that are known to be there. -/
theorem HasFields.congr
    (rows : List (Str × (Option Json → Prop) × (Option Json → Prop) ×
      (Option Json → Prop)))
    (has : HasFields (rows.map fun row => (row.1, row.2.1)) json)
    (same : ∀ row ∈ rows, ∀ value, row.2.1 value →
      (row.2.2.1 value ↔ row.2.2.2 value)) :
    HasFields (rows.map fun row => (row.1, row.2.2.1)) json ↔
      HasFields (rows.map fun row => (row.1, row.2.2.2)) json := by
  obtain ⟨fields, rfl, -, -, holds⟩ := has
  rw [List.forall_mem_map] at holds
  rw [hasFields_object_iff, hasFields_object_iff, List.map_map, List.map_map]
  apply and_congr_right
  intro _
  apply and_congr_right
  intro _
  rw [List.forall_mem_map, List.forall_mem_map]
  exact forall₂_congr fun row member => same row member _ (holds row member)

end

/-! ## Structures that are read and written again -/

/-- A structure as serde writes it; a field without a value is left out. -/
def structValue (entries : List (Str × Option Json)) : Json :=
  .object (byKey (entries.filterMap fun entry => entry.2.map (entry.1, ·)))

example : structValue [("b".toList, some .null), ("c".toList, none),
      ("a".toList, some (.bool true))] =
    .object [("a".toList, .bool true), ("b".toList, .null)] := by
  rfl

/-- What becomes of a field. -/
abbrev Pass := Option Json → Option (Option Json)

def passFields : List (Str × Pass) → List (Option Json) →
    Option (List (Str × Option Json))
  | (name, pass) :: fields, value :: values =>
      (pass value).bind fun written =>
        (passFields fields values).map ((name, written) :: ·)
  | [], [] => some []
  | _, _ => none

/-- What becomes of a structure. -/
def pass (least : Nat) (fields : List (Str × Pass)) (json : Json) : Option Json :=
  ((fieldsFrom least (fields.map Prod.fst) json).bind (passFields fields)).map
    structValue

section

variable {fields : List (Str × Json)} {passes : List (Str × Pass)}
  {entries : List (Str × Option Json)}

theorem IsMap.nodup (map : IsMap fields) : (fields.map Prod.fst).Nodup :=
  map.imp ne_of_lt

theorem isMap_byKey (nodup : (fields.map Prod.fst).Nodup) :
    IsMap (byKey fields) := by
  have distinct := ((byKey_perm fields).map Prod.fst).symm.nodup nodup
  rw [IsMap, List.pairwise_map]
  rw [List.Nodup, List.pairwise_map] at distinct
  exact (byKey_pairwise fields).imp₂ (fun _ _ below => lt_of_le_of_ne below) distinct

theorem IsMap.eq_byKey {others : List (Str × Json)} (map : IsMap fields)
    (permuted : others.Perm fields) : byKey others = fields := by
  have sorted : byKey fields = fields := by
    apply List.Pairwise.insertionSort_eq
    rw [IsMap, List.pairwise_map] at map
    exact map.imp le_of_lt
  rw [byKey_eq_of_perm ((permuted.map Prod.fst).symm.nodup map.nodup) permuted,
    sorted]

/-- The fields that are written of the entries. -/
theorem mem_written_iff {key : Str} {value : Json} :
    (key, value) ∈ entries.filterMap (fun entry => entry.2.map (entry.1, ·)) ↔
      (key, some value) ∈ entries := by
  rw [List.mem_filterMap]
  constructor
  · rintro ⟨⟨name, written⟩, member, same⟩
    obtain ⟨_, rfl, same⟩ := Option.map_eq_some_iff.mp same
    cases same
    exact member
  · intro member
    exact ⟨_, member, rfl⟩

theorem written_keys_sublist (entries : List (Str × Option Json)) :
    ((entries.filterMap fun entry => entry.2.map (entry.1, ·)).map
      Prod.fst).Sublist (entries.map Prod.fst) := by
  induction entries with
  | nil => exact .slnil
  | cons entry entries induction =>
      obtain ⟨name, value⟩ := entry
      cases value with
      | none => exact induction.cons name
      | some value => exact induction.cons_cons name

/-- What is written is a given map exactly when the entries are its fields. -/
theorem structValue_eq_iff (nodup : (entries.map Prod.fst).Nodup) :
    structValue entries = .object fields ↔
      IsMap fields ∧
        (∀ key ∈ fields.map Prod.fst, key ∈ entries.map Prod.fst) ∧
        ∀ entry ∈ entries, entry.2 = fields.lookup entry.1 := by
  have writtenNodup := nodup.sublist (written_keys_sublist entries)
  rw [structValue, Json.object.injEq]
  constructor
  · rintro rfl
    have map := isMap_byKey writtenNodup
    refine ⟨map, ?_, ?_⟩
    · intro key member
      have written := ((byKey_perm _).map Prod.fst).mem_iff.mp member
      exact (written_keys_sublist entries).subset written
    · rintro ⟨name, value⟩ member
      apply Option.ext
      intro written
      rw [lookup_eq_some_iff map.nodup, (byKey_perm _).mem_iff, mem_written_iff]
      constructor
      · rintro rfl
        exact member
      · intro other
        exact congrArg Prod.snd (List.inj_on_of_nodup_map nodup member other rfl)
  · rintro ⟨map, keys, same⟩
    apply map.eq_byKey
    rw [List.perm_ext_iff_of_nodup writtenNodup.of_map map.nodup.of_map]
    rintro ⟨key, value⟩
    rw [mem_written_iff, ← lookup_eq_some_iff map.nodup]
    constructor
    · intro member
      exact (same _ member).symm
    · intro found
      have inFields := (lookup_eq_some_iff map.nodup).mp found
      obtain ⟨⟨name, written⟩, member, rfl⟩ :=
        List.mem_map.mp (keys key (List.mem_map_of_mem inFields))
      have here : written = fields.lookup name := same _ member
      rw [← found, ← here]
      exact member

theorem passFields_names {values : List (Option Json)}
    (passed : passFields passes values = some entries) :
    entries.map Prod.fst = passes.map Prod.fst := by
  induction passes generalizing values entries with
  | nil =>
      cases values with
      | nil =>
          cases passed
          rfl
      | cons => cases passed
  | cons field passes induction =>
      cases values with
      | nil => cases passed
      | cons value values =>
          obtain ⟨written, -, rest⟩ := Option.bind_eq_some_iff.mp passed
          obtain ⟨others, later, rfl⟩ := Option.map_eq_some_iff.mp rest
          rw [List.map_cons, List.map_cons, induction later]

/-- Each field comes out as it is exactly when all entries do. -/
theorem passFields_eq_iff (value : Str → Option Json) :
    (∃ entries, passFields passes (passes.map fun field => value field.1) =
        some entries ∧ ∀ entry ∈ entries, entry.2 = value entry.1) ↔
      ∀ field ∈ passes, field.2 (value field.1) = some (value field.1) := by
  induction passes with
  | nil => simp [passFields]
  | cons field passes induction =>
      rw [List.forall_mem_cons, ← induction]
      constructor
      · rintro ⟨entries, passed, same⟩
        obtain ⟨written, first, rest⟩ := Option.bind_eq_some_iff.mp passed
        obtain ⟨others, later, rfl⟩ := Option.map_eq_some_iff.mp rest
        rw [List.forall_mem_cons] at same
        have here : written = value field.1 := same.1
        rw [here] at first
        exact ⟨first, others, later, same.2⟩
      · rintro ⟨first, others, later, same⟩
        refine ⟨(field.1, value field.1) :: others, ?_, ?_⟩
        · rw [List.map_cons, passFields, first, later]
          rfl
        · rw [List.forall_mem_cons]
          exact ⟨rfl, same⟩

theorem fieldsFrom_object {least : Nat} {names : List Str}
    (nodup : (fields.map Prod.fst).Nodup) :
    fieldsFrom least names (.object fields) =
      some (names.map fun name => fields.lookup name) := by
  exact if_pos (nodup.filter _)

/-- A value passes unchanged exactly when it is an object of the fields, each
of which does. -/
theorem pass_eq_self_iff {least : Nat} {json : Json}
    (nodup : (passes.map Prod.fst).Nodup) :
    pass least passes json = some json ↔
      HasFields (passes.map fun field =>
        (field.1, fun value => field.2 value = some value)) json := by
  have names : (passes.map fun field : Str × Pass =>
      (field.1, fun value => field.2 value = some value)).map Prod.fst =
        passes.map Prod.fst := by
    rw [List.map_map]
    rfl
  rw [HasFields, names]
  constructor
  · intro passed
    obtain ⟨entries, read, written⟩ := Option.map_eq_some_iff.mp passed
    obtain ⟨values, found, through⟩ := Option.bind_eq_some_iff.mp read
    have entryNames := passFields_names through
    cases json with
    | object fields =>
        rw [← entryNames] at nodup
        obtain ⟨map, keys, same⟩ := (structValue_eq_iff nodup).mp written
        rw [fieldsFrom_object map.nodup, Option.some.injEq] at found
        rw [← found, List.map_map] at through
        rw [entryNames] at keys
        have each := (passFields_eq_iff fun name => fields.lookup name).mp
          ⟨entries, through, same⟩
        refine ⟨fields, rfl, map, keys, ?_⟩
        rw [List.forall_mem_map]
        exact each
    | _ => cases written
  · rintro ⟨fields, rfl, map, keys, each⟩
    rw [List.forall_mem_map] at each
    obtain ⟨entries, through, same⟩ :=
      (passFields_eq_iff fun name => fields.lookup name).mpr each
    have entryNames := passFields_names through
    rw [← entryNames] at nodup keys
    rw [pass, fieldsFrom_object map.nodup, List.map_map]
    refine Option.map_eq_some_iff.mpr ⟨entries, through, ?_⟩
    exact (structValue_eq_iff nodup).mpr ⟨map, keys, same⟩

theorem length_fieldsFrom {least : Nat} {names : List Str} {json : Json}
    {values : List (Option Json)}
    (found : fieldsFrom least names json = some values) :
    values.length = names.length := by
  cases json with
  | array items =>
      rw [fieldsFrom, Option.ite_none_right_eq_some] at found
      obtain ⟨⟨-, few⟩, same⟩ := found
      cases same
      simp [few]
  | object fields =>
      rw [fieldsFrom, structFields, Option.ite_none_right_eq_some] at found
      · obtain ⟨-, same⟩ := found
        cases same
        rw [List.length_map]
      · simp
  | _ => cases found

end

/-! ## The fields of a structure -/

section

variable {α : Type}

/-- What is read is written as it was. -/
def RoundTrips (read : Json → Option α) (write : α → Json) (json : Json) : Prop :=
  (read json).map write = some json

def passRequired (read : Json → Option α) (write : α → Json) : Pass := fun value =>
  (value.bind read).map fun found => some (write found)

/-- Nothing is written where nothing is read. -/
def passOption (read : Json → Option α) (write : α → Json) : Pass := fun value =>
  (readOption read value).map (Option.map write)

def passDefault (default : α) (read : Json → Option α) (write : α → Json) :
    Pass := fun value =>
  (readDefault default read value).map fun found => some (write found)

def vecValue (write : α → Json) (items : List α) : Json :=
  .array (items.map write)

variable {read : Json → Option α} {write : α → Json} {value : Option Json}
  {json : Json}

theorem passRequired_iff :
    passRequired read write value = some value ↔
      Required (RoundTrips read write) value := by
  cases value with
  | none => exact iff_of_false nofun id
  | some json =>
      rw [passRequired, Option.bind_some, Required, RoundTrips]
      cases read json <;> simp

theorem passOption_iff :
    passOption read write value = some value ↔
      Optional (fun json => json ≠ .null ∧ RoundTrips read write json) value := by
  cases value with
  | none => exact iff_of_true rfl trivial
  | some json =>
      by_cases null : json = .null
      · subst null
        exact iff_of_false nofun fun both => both.1 rfl
      · have read_eq : readOption read (some json) = (read json).map some := by
          cases json with
          | null => contradiction
          | _ => rfl
        rw [passOption, read_eq, Optional, RoundTrips]
        cases read json <;> simp [null]

/-- What is never written as null is not lost. -/
theorem passOption_iff_of_write (visible : ∀ found, write found ≠ .null) :
    passOption read write value = some value ↔
      Optional (RoundTrips read write) value := by
  rw [passOption_iff]
  cases value with
  | none => exact Iff.rfl
  | some json =>
      apply and_iff_right_of_imp
      intro same
      obtain ⟨found, -, written⟩ := Option.map_eq_some_iff.mp same
      rw [← written]
      exact visible found

/-- A default is written, so the field must be there. -/
theorem passDefault_iff {default : α} :
    passDefault default read write value = some value ↔
      Required (RoundTrips read write) value := by
  cases value with
  | none => exact iff_of_false nofun id
  | some json =>
      rw [passDefault, readDefault, Required, RoundTrips]
      cases read json <;> simp

/-- A structure is read and written field by field. -/
theorem roundTrips_struct_iff (least : Nat) (names : List Str)
    (build : List (Option Json) → Option α) (write : α → Json)
    (passes : List (Str × Pass)) (nodup : names.Nodup)
    (same : passes.map Prod.fst = names)
    (each : ∀ values, values.length = names.length →
      (build values).map write = (passFields passes values).map structValue) :
    RoundTrips (fun json => (fieldsFrom least names json).bind build) write json ↔
      HasFields (passes.map fun field =>
        (field.1, fun value => field.2 value = some value)) json := by
  subst same
  rw [← pass_eq_self_iff nodup, RoundTrips, pass]
  cases found : fieldsFrom least (passes.map Prod.fst) json with
  | none => rfl
  | some values =>
      rw [Option.bind_some, Option.bind_some, each values (length_fieldsFrom found)]

theorem roundTrips_vec :
    RoundTrips (readVec read) (vecValue write) =
      Elements (RoundTrips read write) := by
  funext json
  apply propext
  cases json with
  | array items =>
      rw [RoundTrips, Elements, readVec]
      induction items with
      | nil => simp [vecValue]
      | cons item items induction =>
          rw [List.forall_mem_cons, ← induction, RoundTrips, List.mapM_cons]
          cases read item <;> cases items.mapM read <;> simp [vecValue]
  | _ => simp [RoundTrips, Elements, readVec]

theorem length_of_readVec {items : List Json} {values : List α}
    (found : readVec read (.array items) = some values) :
    items.length = values.length := by
  rw [readVec] at found
  induction items generalizing values with
  | nil =>
      cases found
      rfl
  | cons item items induction =>
      simp only [List.mapM_cons, Option.bind_eq_bind, Option.pure_def,
        Option.bind_eq_some_iff, Option.some.injEq] at found
      obtain ⟨first, -, others, tail, rfl⟩ := found
      rw [List.length_cons, List.length_cons, induction tail]

theorem roundTrips_text : RoundTrips Json.asStr .string = IsText := by
  funext json
  cases json <;> simp [RoundTrips, IsText, Json.asStr]

theorem roundTrips_some : RoundTrips some id json ↔ True := by
  exact iff_of_true rfl trivial

/-! ## Lines -/

theorem readU32_integer {value : Nat} (small : value < 2 ^ 32) :
    readU32 (integer value) = some (UInt32.ofNat value) := by
  have read : (Nat.toDigits 10 value).foldl
      (fun value digit => value * 10 + (digit.toNat - 48)) 0 = value := by
    have same := Nat.ofDigitChars_ten_toDigits (n := value)
    rw [Nat.ofDigitChars_eq_foldl] at same
    simp only [Nat.mul_comm 10] at same
    exact same
  have digits : (Nat.toDigits 10 value).all Char.isDigit = true := by
    rw [List.all_eq_true]
    intro char member
    exact Nat.isDigit_of_mem_toDigits (by omega) (by omega) member
  have nonempty : Nat.toDigits 10 value ≠ [] := Nat.toDigits_ne_nil
  change (if _ then _ else _) = _
  simp only [decimal, read]
  rw [if_pos ⟨nonempty, digits, small⟩]

theorem roundTrips_u32 :
    RoundTrips readU32 (fun value => integer value.toNat) =
      fun json => ∃ value : UInt32, json = integer value.toNat := by
  funext json
  apply propext
  constructor
  · intro same
    obtain ⟨value, -, written⟩ := Option.map_eq_some_iff.mp same
    exact ⟨value, written.symm⟩
  · rintro ⟨value, rfl⟩
    rw [RoundTrips, readU32_integer value.toNat_lt, UInt32.ofNat_toNat]
    rfl

end

end TrustLayer.SerdeJson
