import TrustLayer.SerdeJson.Leaves

/-!
# Reordered objects

An object is a map, so the order of its keys carries nothing.  Ordering the
keys is a choice among the ways of listing them.
-/

namespace TrustLayer.SerdeJson

open TrustLayer.Library hiding Json
open TrustLayer.AgentGuard (Json)

/-- No key stands twice in an object. -/
inductive DistinctKeys : Json → Prop where
  | null : DistinctKeys .null
  | bool (value : Bool) : DistinctKeys (.bool value)
  | number (literal : Str) : DistinctKeys (.number literal)
  | string (text : Str) : DistinctKeys (.string text)
  | array {items : List Json} :
      (∀ item ∈ items, DistinctKeys item) → DistinctKeys (.array items)
  | object {fields : List (Str × Json)} :
      (fields.map Prod.fst).Nodup → (∀ field ∈ fields, DistinctKeys field.2) →
      DistinctKeys (.object fields)

/-- A `serde_json::Value`: its objects are maps, and its numbers have literals. -/
structure Value where
  json : Json
  distinct : DistinctKeys json
  formed : WellFormed json

/-- The keys of objects are permuted, at any depth. -/
inductive Reordered : Json → Json → Prop where
  | refl (value : Json) : Reordered value value
  | keys {fields others : List (Str × Json)} :
      fields.Perm others → Reordered (.object fields) (.object others)
  | item (before behind : List Json) {item other : Json} :
      Reordered item other →
      Reordered (.array (before ++ item :: behind))
        (.array (before ++ other :: behind))
  | field (before behind : List (Str × Json)) (key : Str) {value other : Json} :
      Reordered value other →
      Reordered (.object (before ++ (key, value) :: behind))
        (.object (before ++ (key, other) :: behind))
  | trans {first second third : Json} :
      Reordered first second → Reordered second third → Reordered first third

variable {left right : Json} {fields others : List (Str × Json)}

attribute [simp] DistinctKeys.null DistinctKeys.bool DistinctKeys.number
  DistinctKeys.string

@[simp] theorem distinctKeys_array {items : List Json} :
    DistinctKeys (.array items) ↔ ∀ item ∈ items, DistinctKeys item := by
  constructor
  · rintro ⟨⟩
    assumption
  · exact .array

@[simp] theorem distinctKeys_object :
    DistinctKeys (.object fields) ↔
      (fields.map Prod.fst).Nodup ∧ ∀ field ∈ fields, DistinctKeys field.2 := by
  constructor
  · rintro ⟨⟩
    constructor <;> assumption
  · rintro ⟨nodup, values⟩
    exact .object nodup values

/-- What stands in an object is a value as well. -/
theorem Value.of_get (value : Value) {key : Str} {found : Json}
    (some : value.json.get key = some found) :
    DistinctKeys found ∧ WellFormed found := by
  obtain ⟨json, distinct, formed⟩ := value
  cases json with
  | object fields =>
      obtain ⟨front, back, rfl, -⟩ := List.lookup_eq_some_iff.mp some
      have member : (key, found) ∈ front ++ (key, found) :: back :=
        List.mem_append_right _ List.mem_cons_self
      exact ⟨(distinctKeys_object.mp distinct).2 _ member,
        wellFormed_object.mp formed _ member⟩
  | _ => cases some

theorem Reordered.symm (reordered : Reordered left right) :
    Reordered right left := by
  induction reordered with
  | refl value => exact .refl value
  | keys permuted => exact .keys permuted.symm
  | item before behind _ induction => exact .item before behind induction
  | field before behind key _ induction =>
      exact .field before behind key induction
  | trans _ _ first second => exact second.trans first

theorem Reordered.distinctKeys (reordered : Reordered left right)
    (distinct : DistinctKeys left) : DistinctKeys right := by
  induction reordered with
  | refl value => exact distinct
  | keys permuted =>
      cases distinct with
      | object nodup values =>
          refine .object ((permuted.map Prod.fst).nodup nodup) ?_
          intro field member
          exact values field (permuted.mem_iff.mpr member)
  | item before behind _ induction =>
      cases distinct with
      | array items =>
          simp only [List.forall_mem_append, List.forall_mem_cons] at items
          apply DistinctKeys.array
          simp only [List.forall_mem_append, List.forall_mem_cons]
          exact ⟨items.1, induction items.2.1, items.2.2⟩
  | field before behind key _ induction =>
      cases distinct with
      | object nodup values =>
          simp only [List.forall_mem_append, List.forall_mem_cons] at values
          apply DistinctKeys.object
          · simpa using nodup
          · simp only [List.forall_mem_append, List.forall_mem_cons]
            exact ⟨values.1, induction values.2.1, values.2.2⟩
  | trans _ _ first second => exact second (first distinct)

/-! ## The ordered value -/

theorem orderedElements_eq (items : List Json) :
    orderedElements items = items.map ordered := by
  induction items with
  | nil => rfl
  | cons item items induction => rw [orderedElements, List.map_cons, induction]

theorem orderedFields_eq (fields : List (Str × Json)) :
    orderedFields fields = fields.map fun field => (field.1, ordered field.2) := by
  induction fields with
  | nil => rfl
  | cons field fields induction =>
      rw [orderedFields, List.map_cons, induction]

theorem byKey_pairwise (fields : List (Str × Json)) :
    (byKey fields).Pairwise fun first second => first.1 ≤ second.1 := by
  exact List.pairwise_insertionSort _ _

theorem byKey_byKey (fields : List (Str × Json)) :
    byKey (byKey fields) = byKey fields :=
  (byKey_pairwise fields).insertionSort_eq

theorem byKey_orderedFields (fields : List (Str × Json)) :
    byKey (orderedFields fields) = orderedFields (byKey fields) := by
  rw [orderedFields_eq, orderedFields_eq]
  exact byKey_map ordered fields

/-- Distinct keys have one order. -/
theorem byKey_eq_of_perm (nodup : (fields.map Prod.fst).Nodup)
    (permuted : fields.Perm others) : byKey fields = byKey others := by
  have same : (byKey fields).Perm (byKey others) :=
    (byKey_perm fields).trans (permuted.trans (byKey_perm others).symm)
  refine same.eq_of_pairwise ?_ (byKey_pairwise fields) (byKey_pairwise others)
  intro first second inFirst inSecond below above
  have inFields : first ∈ fields := (byKey_perm fields).mem_iff.mp inFirst
  have inOthers : second ∈ fields :=
    permuted.mem_iff.mpr ((byKey_perm others).mem_iff.mp inSecond)
  exact List.inj_on_of_nodup_map nodup inFields inOthers (le_antisymm below above)

mutual

theorem ordered_ordered : (value : Json) → ordered (ordered value) = ordered value
  | .null | .bool _ | .number _ | .string _ => rfl
  | .array items => by
      rw [ordered, ordered, orderedElements_ordered items]
  | .object fields => by
      rw [ordered, ordered, ← byKey_orderedFields (orderedFields fields),
        byKey_byKey, orderedFields_ordered]

theorem orderedElements_ordered : (items : List Json) →
    orderedElements (orderedElements items) = orderedElements items
  | [] => rfl
  | item :: items => by
      rw [orderedElements, orderedElements, ordered_ordered item,
        orderedElements_ordered items]

theorem orderedFields_ordered : (fields : List (Str × Json)) →
    orderedFields (orderedFields fields) = orderedFields fields
  | [] => rfl
  | (key, value) :: fields => by
      rw [orderedFields, orderedFields, ordered_ordered value,
        orderedFields_ordered fields]

end

theorem Reordered.ordered_eq (reordered : Reordered left right)
    (distinct : DistinctKeys left) : ordered left = ordered right := by
  induction reordered with
  | refl value => rfl
  | keys permuted =>
      cases distinct with
      | object nodup values =>
          rw [ordered, ordered, byKey_orderedFields, byKey_orderedFields,
            byKey_eq_of_perm nodup permuted]
  | item before behind _ induction =>
      cases distinct with
      | array items =>
          have same := induction (items _ (by simp))
          rw [ordered, ordered, orderedElements_eq, orderedElements_eq,
            List.map_append, List.map_cons, same, List.map_append, List.map_cons]
  | field before behind key _ induction =>
      cases distinct with
      | object nodup values =>
          have same := induction (values (key, _) (by simp))
          rw [ordered, ordered, orderedFields_eq, orderedFields_eq,
            List.map_append, List.map_cons, same, List.map_append, List.map_cons]
  | trans reordered _ first second =>
      exact (first distinct).trans (second (reordered.distinctKeys distinct))

/-! ## Reordering into order -/

theorem Reordered.items (before : List Json) {items others : List Json}
    (each : List.Forall₂ Reordered items others) :
    Reordered (.array (before ++ items)) (.array (before ++ others)) := by
  induction each generalizing before with
  | nil => exact .refl _
  | @cons item other items others here _ induction =>
      have later := induction (before ++ [other])
      rw [List.append_assoc, List.append_assoc] at later
      exact (Reordered.item before items here).trans later

theorem Reordered.values (before : List (Str × Json))
    {fields others : List (Str × Json)}
    (each : List.Forall₂ (fun field other =>
      field.1 = other.1 ∧ Reordered field.2 other.2) fields others) :
    Reordered (.object (before ++ fields)) (.object (before ++ others)) := by
  induction each generalizing before with
  | nil => exact .refl _
  | @cons field other fields others here _ induction =>
      obtain ⟨key, value⟩ := field
      obtain ⟨_, changed⟩ := other
      obtain ⟨rfl, reordered⟩ := here
      have later := induction (before ++ [(key, changed)])
      rw [List.append_assoc, List.append_assoc] at later
      exact (Reordered.field before fields key reordered).trans later

mutual

theorem reordered_ordered : (value : Json) → Reordered value (ordered value)
  | .null | .bool _ | .number _ | .string _ => .refl _
  | .array items => by
      rw [ordered]
      exact Reordered.items [] (reordered_orderedElements items)
  | .object fields => by
      rw [ordered]
      have values := Reordered.values [] (reordered_orderedFields fields)
      exact values.trans (.keys (byKey_perm _).symm)

theorem reordered_orderedElements : (items : List Json) →
    List.Forall₂ Reordered items (orderedElements items)
  | [] => .nil
  | item :: items =>
      .cons (reordered_ordered item) (reordered_orderedElements items)

theorem reordered_orderedFields : (fields : List (Str × Json)) →
    List.Forall₂ (fun field other =>
      field.1 = other.1 ∧ Reordered field.2 other.2) fields (orderedFields fields)
  | [] => .nil
  | (_, value) :: fields =>
      .cons ⟨rfl, reordered_ordered value⟩ (reordered_orderedFields fields)

end

/-- Values have one ordered form exactly when they differ in order only. -/
theorem ordered_eq_iff (distinct : DistinctKeys left) :
    ordered left = ordered right ↔ Reordered left right := by
  constructor
  · intro same
    have forth := reordered_ordered left
    rw [same] at forth
    exact forth.trans (reordered_ordered right).symm
  · intro reordered
    exact reordered.ordered_eq distinct

/-- What is written in order tells values apart but for their order. -/
theorem valueToVec_eq_iff (left right : Value) :
    valueToVec left.json = valueToVec right.json ↔
      Reordered left.json right.json := by
  rw [← ordered_eq_iff left.distinct]
  constructor
  · exact toVec_inj (wellFormed_ordered _ left.formed)
      (wellFormed_ordered _ right.formed)
  · exact congrArg toVec

/-! ## The fields of an ordered object -/

theorem lookup_eq_some_iff {key : Str} {value : Json}
    (nodup : (fields.map Prod.fst).Nodup) :
    fields.lookup key = some value ↔ (key, value) ∈ fields := by
  induction fields with
  | nil => simp
  | cons field fields induction =>
      obtain ⟨name, first⟩ := field
      rw [List.map_cons, List.nodup_cons] at nodup
      rw [List.lookup_cons, List.mem_cons, Prod.mk.injEq]
      by_cases same : key = name
      · subst same
        have absent : (key, value) ∉ fields := by
          intro member
          exact nodup.1 (List.mem_map.mpr ⟨(key, value), member, rfl⟩)
        simp [absent, eq_comm]
      · simp [beq_eq_false_iff_ne.mpr same, same, induction nodup.2]

theorem get_ordered (nodup : (fields.map Prod.fst).Nodup) (key : Str) :
    (ordered (.object fields)).get key = (fields.lookup key).map ordered := by
  have keys : ((byKey (orderedFields fields)).map Prod.fst).Nodup :=
    (byKey_keys_perm fields).symm.nodup nodup
  rw [ordered, Json.get]
  apply Option.ext
  intro value
  rw [lookup_eq_some_iff keys, (byKey_perm _).mem_iff, orderedFields_eq,
    List.mem_map, Option.map_eq_some_iff]
  constructor
  · rintro ⟨⟨_, first⟩, member, same⟩
    obtain ⟨rfl, rfl⟩ := Prod.mk.inj same
    exact ⟨first, (lookup_eq_some_iff nodup).mpr member, rfl⟩
  · rintro ⟨first, found, rfl⟩
    exact ⟨(key, first), (lookup_eq_some_iff nodup).mp found, rfl⟩

end TrustLayer.SerdeJson
