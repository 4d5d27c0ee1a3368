import TrustLayer.Library.Settling
import TrustLayer.Library.PyFloat
import TrustLayer.Rfc9162

/-!
# The inclusion proof of a certificate

The page reads a stored proof from a text of any shape, and verifies it when
none of its fields is missing.  Truth values decide what is missing, so that
an index of 0 is.
-/

namespace TrustLayer.VerificationPage

open TrustLayer.Library
open TrustLayer.Rfc9162 (Sha256 sha256 fromhex)

/-! ## Values -/

/-- A character, or half of a surrogate pair. -/
abbrev CodePoint : Type :=
  Char ⊕ Fin 0x800

abbrev PyStr : Type :=
  List CodePoint

def ofStr (text : Str) : PyStr :=
  text.map .inl

/-- The characters of a text without surrogates. -/
def chars? (text : PyStr) : Option Str :=
  text.mapM Sum.getLeft?

inductive PyValue where
  | none
  | bool (value : Bool)
  | int (value : Int)
  | float (value : PyFloat)
  | str (text : PyStr)
  | list (items : List PyValue)
  | dict (members : List (PyStr × PyValue))

inductive PyError where
  | valueError
  | typeError
  | keyError
  | overflowError
  | attributeError
  | recursionError
  deriving DecidableEq

/-- `except (ValueError, TypeError, KeyError)`. -/
def PyError.caught : PyError → Bool
  | .valueError | .typeError | .keyError => true
  | .overflowError | .attributeError | .recursionError => false

/-- What the page takes from the Python library. -/
class PythonHost where
  /-- `json.loads`. -/
  loads : Str → Except PyError PyValue
  /-- `int` of a text, `none` where it raises `ValueError`. -/
  intOfText : PyStr → Option Int
  /-- `==` of two values that are not both texts. -/
  eq : PyValue → PyValue → Bool

namespace PyValue

/-- `if value`. -/
def truthy : PyValue → Bool
  | .none => false
  | .bool value => value
  | .int value => value ≠ 0
  | .float value => value.truthy
  | .str text => text ≠ []
  | .list items => !items.isEmpty
  | .dict members => !members.isEmpty

/-- `value.get(key, default)`, which only a dictionary has. -/
def get (value : PyValue) (key : Str) (default : PyValue) :
    Except PyError PyValue :=
  match value with
  | .dict members => .ok ((members.lookup (ofStr key)).getD default)
  | .none | .bool _ | .int _ | .float _ | .str _ | .list _ =>
      .error .attributeError

/-- `int(value)`. -/
def toInt [PythonHost] : PyValue → Except PyError Int
  | .bool value => .ok value.toNat
  | .int value => .ok value
  | .float (.finite value) => .ok (if value < 0 then ⌈value⌉ else ⌊value⌋)
  | .float (.infinite _) => .error .overflowError
  | .float .nan => .error .valueError
  | .str text =>
      match PythonHost.intOfText text with
      | some value => .ok value
      | Option.none => .error .valueError
  | .none | .list _ | .dict _ => .error .typeError

/-- `left == right`. -/
def eq [PythonHost] : (left right : PyValue) → Bool
  | .str left, .str right => left = right
  | left, right => PythonHost.eq left right

/-- `bytes.fromhex(value)`. -/
def fromhex : PyValue → Except PyError (List UInt8)
  | .str text =>
      match chars? text with
      | some text => (Rfc9162.fromhex text).mapError fun _ => .valueError
      | Option.none => .error .valueError
  | .none | .bool _ | .int _ | .float _ | .list _ | .dict _ => .error .typeError

/-- What `len` counts and a loop runs over. -/
def items : PyValue → Except PyError (List PyValue)
  | .list items => .ok items
  | .str text => .ok (text.map fun char => .str [char])
  | .dict members => .ok (members.map fun member => .str member.1)
  | .none | .bool _ | .int _ | .float _ => .error .typeError

end PyValue

/-! ## The verifier on any values -/

section

variable [Sha256]

/-- The loop over the audit path. -/
def foldPath (h : List UInt8) (idx : Int) :
    List PyValue → Except PyError (List UInt8)
  | [] => .ok h
  | siblingHex :: auditPath => do
      let sibling ← siblingHex.fromhex
      if idx % 2 = 0 then
        foldPath (sha256 (h ++ sibling)).toList (idx / 2) auditPath
      else foldPath (sha256 (sibling ++ h)).toList (idx / 2) auditPath

def reconstructRootRfc9162 (leafHex : PyValue) (leafIndex treeSize : Int)
    (auditPath : PyValue) : Except PyError PyValue :=
  if treeSize ≤ 0 then .error .valueError
  else if leafIndex < 0 ∨ leafIndex ≥ treeSize then .error .valueError
  else do
    let siblings ← auditPath.items
    if siblings.length = 0 ∧ treeSize > 1 then pure leafHex
    else
      let h ← leafHex.fromhex
      let root ← foldPath h leafIndex siblings
      pure (.str (ofStr (toHex root)))

def verifyInclusionProof [PythonHost] (leafHex : PyValue)
    (leafIndex treeSize : Int) (auditPath expectedRootHex : PyValue) :
    Except PyError Bool :=
  match reconstructRootRfc9162 leafHex leafIndex treeSize auditPath with
  | .ok reconstructed => .ok (reconstructed.eq expectedRootHex)
  | .error .valueError => .ok false
  | .error error => .error error

end

/-! ## The step -/

/-- The columns of a certificate that the step reads. -/
structure Certificate where
  rekorEntryId : Option Str
  rekorEntryJson : Option Str

inductive Step where
  /-- `[ABSENT] SCITT/Rekor entry not stored` -/
  | absent
  /-- `[PRESENT] SCITT/Rekor entry recorded: {rekor_id} (inclusion proof not
  persisted — verification deferred)` -/
  | notPersisted (rekorId : Str)
  /-- `[FAILED] SCITT/Rekor inclusion proof parse error: {e}` -/
  | parseError (error : PyError)
  /-- `[PRESENT] SCITT/Rekor entry recorded: {rekor_id} (proof fields
  incomplete — verification deferred)` -/
  | incomplete (rekorId : Str)
  /-- `[VERIFIED] SCITT/Rekor inclusion proof verified locally
  (entry={rekor_id}, log_index={log_index}, tree_size={tree_size})` -/
  | verified (rekorId : Str) (logIndex treeSize : Int)
  /-- `[FAILED] SCITT/Rekor inclusion proof failed for entry={rekor_id}
  (reconstructed root != expected)` -/
  | failed (rekorId : Str)
  deriving DecidableEq

/-- The fields of an entry, as they are read. -/
structure Proof where
  leafHash : PyValue
  logIndex : Int
  treeSize : Int
  rootHash : PyValue
  auditPath : PyValue

section

variable [PythonHost]

/-- `entry.get("leaf_hash") or entry.get("uuid")`. -/
def leafHashOf (entry : PyValue) : Except PyError PyValue := do
  let leafHash ← entry.get "leaf_hash".toList .none
  if leafHash.truthy then pure leafHash else entry.get "uuid".toList .none

/-- The body of the `try`. -/
def readProof (rekorEntryJson : Str) : Except PyError Proof := do
  let entry ← PythonHost.loads rekorEntryJson
  let leafHash ← leafHashOf entry
  let logIndex ← entry.get "log_index".toList (.int 0)
  let logIndex ← logIndex.toInt
  let treeSize ← entry.get "tree_size".toList (.int 0)
  let treeSize ← treeSize.toInt
  let rootHash ← entry.get "root_hash".toList .none
  let auditPath ← entry.get "audit_path".toList (.list [])
  pure { leafHash, logIndex, treeSize, rootHash, auditPath }

/-- `leaf_hash and log_index and tree_size and root_hash`. -/
def Proof.complete (proof : Proof) : Bool :=
  proof.leafHash.truthy && proof.logIndex ≠ 0 && proof.treeSize ≠ 0 &&
    proof.rootHash.truthy

variable [Sha256]

/-- What is done with the fields of an entry. -/
def stepProof (rekorId : Str) (proof : Proof) : Except PyError Step :=
  if proof.complete then do
    let ok ← verifyInclusionProof proof.leafHash proof.logIndex proof.treeSize
      proof.auditPath proof.rootHash
    pure (if ok then .verified rekorId proof.logIndex proof.treeSize
      else .failed rekorId)
  else .ok (.incomplete rekorId)

def stepScittRekor (cert : Certificate) : Except PyError Step :=
  match cert.rekorEntryId with
  | none | some [] => .ok .absent
  | some rekorId =>
      match cert.rekorEntryJson with
      | none | some [] => .ok (.notPersisted rekorId)
      | some rekorEntryJson =>
          match readProof rekorEntryJson with
          | .ok proof => stepProof rekorId proof
          | .error error =>
              if error.caught then .ok (.parseError error) else .error error

end

/-! ## Proofs of texts -/

theorem chars?_ofStr (text : Str) : chars? (ofStr text) = some text := by
  induction text with
  | nil => rfl
  | cons char text induction =>
      rw [chars?, ofStr, List.map_cons, List.mapM_cons]
      change (some char).bind (fun char => (chars? (ofStr text)).bind _) = _
      rw [induction]
      rfl

theorem ofStr_injective : Function.Injective ofStr :=
  List.map_injective_iff.mpr Sum.inl_injective

/-- A text as a value. -/
def textValue (text : Str) : PyValue :=
  .str (ofStr text)

theorem textValue_truthy {text : Str} (nonempty : text ≠ []) :
    (textValue text).truthy = true := by
  simp [textValue, PyValue.truthy, ofStr, nonempty]

theorem fromhex_textValue (text : Str) : (textValue text).fromhex =
    (fromhex text).mapError fun _ => .valueError := by
  rw [textValue, PyValue.fromhex, chars?_ofStr]

section

variable [Sha256]

theorem foldPath_textValue (h : List UInt8) (idx : Int) (auditPath : List Str) :
    foldPath h idx (auditPath.map textValue) =
      (Rfc9162.foldPath h idx auditPath).mapError fun _ => .valueError := by
  induction auditPath generalizing h idx with
  | nil => rfl
  | cons siblingHex auditPath induction =>
      rw [List.map_cons, foldPath, fromhex_textValue, Rfc9162.foldPath]
      cases fromhex siblingHex with
      | error error => rfl
      | ok sibling =>
          change (if idx % 2 = 0 then _ else _) = _
          split_ifs <;> exact induction _ _

/-- On texts the verifier is the one of the proofs. -/
theorem verifyInclusionProof_textValue [PythonHost] (leafHex : Str)
    (leafIndex treeSize : Int) (auditPath : List Str) (expectedRootHex : Str) :
    verifyInclusionProof (textValue leafHex) leafIndex treeSize
        (.list (auditPath.map textValue)) (textValue expectedRootHex) =
      .ok (Rfc9162.verifyInclusionProof leafHex leafIndex treeSize auditPath
        expectedRootHex) := by
  have same (text : Str) : (textValue text).eq (textValue expectedRootHex) =
      decide (text = expectedRootHex) := by
    simp only [textValue, PyValue.eq, ofStr_injective.eq_iff]
  unfold verifyInclusionProof reconstructRootRfc9162
    Rfc9162.verifyInclusionProof Rfc9162.reconstructRootRfc9162
  split_ifs with empty outside noPath
  · rfl
  · rfl
  · simp [PyValue.items, bind, Except.bind, pure, Except.pure, noPath, same]
  · simp only [PyValue.items, bind, Except.bind, List.length_map, noPath,
      if_false, fromhex_textValue]
    cases fromhex leafHex with
    | error error => rfl
    | ok h =>
        simp only [Except.mapError, foldPath_textValue]
        cases Rfc9162.foldPath h leafIndex auditPath with
        | error error => rfl
        | ok root => exact congrArg Except.ok (same (toHex root))

end

/-! ## Errors that are not caught -/

namespace PyValue

def isText : PyValue → Bool
  | .str _ => true
  | .none | .bool _ | .int _ | .float _ | .list _ | .dict _ => false

/-- The value is hexadecimal text. -/
def isHex (value : PyValue) : Bool :=
  value.fromhex.isOk

def isInfinite : PyValue → Bool
  | .float (.infinite _) => true
  | .none | .bool _ | .int _ | .float _ | .str _ | .list _ | .dict _ => false

variable (value : PyValue)

theorem fromhex_cases :
    (value.isText = true ∧ value.isHex = true ∧
        ∃ bytes, value.fromhex = .ok bytes) ∨
      (value.isText = true ∧ value.isHex = false ∧
        value.fromhex = .error .valueError) ∨
      (value.isText = false ∧ value.isHex = false ∧
        value.fromhex = .error .typeError) := by
  cases value with
  | str text =>
      simp only [isText, isHex, fromhex, true_and, Bool.true_eq_false,
        false_and, or_false]
      cases chars? text with
      | none => exact .inr ⟨rfl, rfl⟩
      | some text =>
          simp only
          cases Rfc9162.fromhex text with
          | error error => exact .inr ⟨rfl, rfl⟩
          | ok bytes => exact .inl ⟨rfl, bytes, rfl⟩
  | _ => exact .inr (.inr ⟨rfl, rfl, rfl⟩)

theorem toInt_cases [PythonHost] :
    (value.isInfinite = false ∧ ∃ number, value.toInt = .ok number) ∨
      (value.isInfinite = false ∧
        ∃ error, value.toInt = .error error ∧ error.caught = true) ∨
      (value.isInfinite = true ∧ value.toInt = .error .overflowError) := by
  cases value with
  | bool value => exact .inl ⟨rfl, _, rfl⟩
  | int value => exact .inl ⟨rfl, _, rfl⟩
  | float value =>
      cases value with
      | finite value => exact .inl ⟨rfl, _, rfl⟩
      | infinite negative => exact .inr (.inr ⟨rfl, rfl⟩)
      | nan => exact .inr (.inl ⟨rfl, _, rfl, rfl⟩)
  | str text =>
      simp only [toInt]
      cases PythonHost.intOfText text with
      | none => exact .inr (.inl ⟨rfl, _, rfl, rfl⟩)
      | some number => exact .inl ⟨rfl, number, rfl⟩
  | _ => exact .inr (.inl ⟨rfl, _, rfl, rfl⟩)

theorem items_cases : (∃ items, value.items = .ok items) ∨
    value.items = .error .typeError := by
  cases value with
  | str text => exact .inl ⟨_, rfl⟩
  | list items => exact .inl ⟨_, rfl⟩
  | dict members => exact .inl ⟨_, rfl⟩
  | _ => exact .inr rfl

end PyValue

/-- The first item that is not hexadecimal, if there is one, is a text. -/
def StopsAtText (items : List PyValue) : Prop :=
  ∀ item ∈ items.find? fun item => !item.isHex, item.isText = true

section

variable [Sha256]

theorem foldPath_cases (h : List UInt8) (idx : Int) (items : List PyValue) :
    (StopsAtText items ∧ ((∃ root, foldPath h idx items = .ok root) ∨
        foldPath h idx items = .error .valueError)) ∨
      (¬ StopsAtText items ∧ foldPath h idx items = .error .typeError) := by
  induction items generalizing h idx with
  | nil => exact .inl ⟨nofun, .inl ⟨h, rfl⟩⟩
  | cons item items induction =>
      rw [foldPath]
      rcases item.fromhex_cases with ⟨-, isHex, sibling, reads⟩ |
        ⟨isText, noHex, reads⟩ | ⟨noText, noHex, reads⟩
      · have later : StopsAtText (item :: items) ↔ StopsAtText items := by
          simp [StopsAtText, isHex]
        rw [reads, later]
        change _ ∧ ((∃ root, (if idx % 2 = 0 then _ else _) = _) ∨
          (if idx % 2 = 0 then _ else _) = _) ∨
            _ ∧ (if idx % 2 = 0 then _ else _) = _
        split_ifs
        · exact induction _ _
        · exact induction _ _
      · rw [reads]
        exact .inl ⟨by simp [StopsAtText, noHex, isText], .inr rfl⟩
      · rw [reads]
        exact .inr ⟨by simp [StopsAtText, noHex, noText], rfl⟩

/-- The verifier can be asked: inside the tree the path has a length, and what
is read as hexadecimal is text. -/
def Verifiable (proof : Proof) : Prop :=
  0 ≤ proof.logIndex → proof.logIndex < proof.treeSize →
    ∃ items, proof.auditPath.items = .ok items ∧
      (items = [] ∧ 1 < proof.treeSize ∨
        proof.leafHash.isText = true ∧
          (proof.leafHash.isHex = true → StopsAtText items))

theorem verify_returns_iff [PythonHost] (proof : Proof) :
    (∃ ok, verifyInclusionProof proof.leafHash proof.logIndex proof.treeSize
        proof.auditPath proof.rootHash = .ok ok) ↔ Verifiable proof := by
  unfold verifyInclusionProof reconstructRootRfc9162 Verifiable
  split_ifs with empty outside
  · exact iff_of_true ⟨_, rfl⟩ fun _ _ => by omega
  · exact iff_of_true ⟨_, rfl⟩ fun _ _ => by omega
  · have inside : 0 ≤ proof.logIndex ∧ proof.logIndex < proof.treeSize := by
      omega
    simp only [inside.1, inside.2, forall_const]
    rcases proof.auditPath.items_cases with ⟨items, reads⟩ | raises
    · have found : (∃ other, proof.auditPath.items = .ok other ∧
          (other = [] ∧ 1 < proof.treeSize ∨
            proof.leafHash.isText = true ∧
              (proof.leafHash.isHex = true → StopsAtText other))) ↔
          (items = [] ∧ 1 < proof.treeSize ∨
            proof.leafHash.isText = true ∧
              (proof.leafHash.isHex = true → StopsAtText items)) := by
        rw [reads]
        simp
      rw [found, reads]
      simp only [bind, Except.bind, List.length_eq_zero_iff]
      split_ifs with noPath
      · exact iff_of_true ⟨_, rfl⟩ (.inl noPath)
      · have path : ¬ (items = [] ∧ 1 < proof.treeSize) := noPath
        rcases proof.leafHash.fromhex_cases with ⟨isText, isHex, h, leaf⟩ |
          ⟨isText, noHex, leaf⟩ | ⟨noText, noHex, leaf⟩
        · simp only [leaf, path, isText, isHex, true_and, forall_const,
            false_or]
          rcases foldPath_cases h proof.logIndex items with
            ⟨stops, ⟨root, folds⟩ | folds⟩ | ⟨goesOn, folds⟩
          · exact iff_of_true ⟨_, by rw [folds]; rfl⟩ stops
          · exact iff_of_true ⟨false, by rw [folds]⟩ stops
          · refine iff_of_false ?_ goesOn
            rintro ⟨ok, impossible⟩
            rw [folds] at impossible
            cases impossible
        · exact iff_of_true ⟨false, by rw [leaf]⟩
            (.inr ⟨isText, by simp [noHex]⟩)
        · simp [leaf, path, noText]
    · rw [raises]
      simp [bind, Except.bind]

theorem stepProof_returns_iff [PythonHost] (rekorId : Str) (proof : Proof) :
    (∃ step, stepProof rekorId proof = .ok step) ↔
      (proof.complete = true → Verifiable proof) := by
  rw [stepProof, ← verify_returns_iff]
  split_ifs with complete
  · simp only [complete, forall_const]
    constructor
    · rintro ⟨step, returned⟩
      obtain ⟨ok, verified, -⟩ := bind_eq_ok_iff.mp returned
      exact ⟨ok, verified⟩
    · rintro ⟨ok, verified⟩
      exact ⟨_, bind_eq_ok_iff.mpr ⟨ok, verified, rfl⟩⟩
  · exact iff_of_true ⟨_, rfl⟩ fun impossible => absurd impossible complete

end

/-! ## Entries -/

/-- What `get` finds in a dictionary. -/
def member (members : List (PyStr × PyValue)) (key : Str) (default : PyValue) :
    PyValue :=
  (members.lookup (ofStr key)).getD default

/-- The fields of an entry whose index and size read as numbers. -/
def proofOf (members : List (PyStr × PyValue)) (logIndex treeSize : Int) :
    Proof :=
  let leafHash := member members "leaf_hash".toList .none
  { leafHash :=
      if leafHash.truthy then leafHash else member members "uuid".toList .none
    logIndex
    treeSize
    rootHash := member members "root_hash".toList .none
    auditPath := member members "audit_path".toList (.list []) }

section

variable [PythonHost] {members : List (PyStr × PyValue)}

def indexOf (members : List (PyStr × PyValue)) : PyValue :=
  member members "log_index".toList (.int 0)

def sizeOf (members : List (PyStr × PyValue)) : PyValue :=
  member members "tree_size".toList (.int 0)

theorem readProof_dict {text : Str}
    (loads : PythonHost.loads text = .ok (.dict members)) :
    readProof text = (do
      let logIndex ← (indexOf members).toInt
      let treeSize ← (sizeOf members).toInt
      pure (proofOf members logIndex treeSize)) := by
  have leaf : leafHashOf (.dict members) =
      .ok (proofOf members 0 0).leafHash := by
    simp only [leafHashOf, PyValue.get, proofOf, member, bind, Except.bind]
    split_ifs with present
    · simp only [pure, Except.pure, present, if_true]
    · simp only [present, if_false, Bool.false_eq_true]
  rw [readProof, loads]
  change (leafHashOf (.dict members) >>= _) = _
  rw [leaf]
  rfl

/-- The index and the size are not infinite, as far as they are read, and a
proof without missing fields can be verified. -/
structure Checkable [Sha256] (members : List (PyStr × PyValue)) : Prop where
  logIndex : (indexOf members).isInfinite = false
  treeSize : ∀ logIndex, (indexOf members).toInt = .ok logIndex →
    (sizeOf members).isInfinite = false
  proof : ∀ logIndex treeSize, (indexOf members).toInt = .ok logIndex →
    (sizeOf members).toInt = .ok treeSize →
      (proofOf members logIndex treeSize).complete = true →
        Verifiable (proofOf members logIndex treeSize)

/-- The text loads as a dictionary that can be checked, or is refused. -/
def LoadsCheckable [Sha256] (text : Str) : Prop :=
  (∃ error, PythonHost.loads text = .error error ∧ error.caught = true) ∨
    ∃ members, PythonHost.loads text = .ok (.dict members) ∧ Checkable members

/-- What the handler of the `try` makes of a read proof. -/
def stepRead [Sha256] (rekorId : Str) (read : Except PyError Proof) :
    Except PyError Step :=
  match read with
  | .ok proof => stepProof rekorId proof
  | .error error =>
      if error.caught then .ok (.parseError error) else .error error

theorem stepRead_error [Sha256] {rekorId : Str} {error : PyError}
    (caught : error.caught = true) :
    ∃ step, stepRead rekorId (.error error) = .ok step :=
  ⟨_, if_pos caught⟩

theorem stepRead_uncaught [Sha256] {rekorId : Str} {error : PyError}
    (uncaught : error.caught = false) :
    ¬ ∃ step, stepRead rekorId (.error error) = .ok step := by
  rintro ⟨step, returned⟩
  rw [stepRead, if_neg (by simp [uncaught])] at returned
  cases returned

theorem stepRead_dict_iff [Sha256] {rekorId text : Str}
    (loads : PythonHost.loads text = .ok (.dict members)) :
    (∃ step, stepRead rekorId (readProof text) = .ok step) ↔
      Checkable members := by
  rw [readProof_dict loads]
  rcases (indexOf members).toInt_cases with ⟨finite, logIndex, index⟩ |
    ⟨finite, error, index, caught⟩ | ⟨infinite, index⟩
  · rcases (sizeOf members).toInt_cases with ⟨sizeFinite, treeSize, size⟩ |
      ⟨sizeFinite, error, size, caught⟩ | ⟨sizeInfinite, size⟩
    · rw [index, size]
      refine (stepProof_returns_iff rekorId _).trans ⟨fun verifiable => ?_,
        fun checkable => checkable.proof logIndex treeSize index size⟩
      refine ⟨finite, fun _ _ => sizeFinite, ?_⟩
      intro otherIndex otherSize sameIndex sameSize complete
      cases index.symm.trans sameIndex
      cases size.symm.trans sameSize
      exact verifiable complete
    · rw [index, size]
      refine iff_of_true (stepRead_error caught)
        ⟨finite, fun _ _ => sizeFinite, ?_⟩
      intro otherIndex otherSize _ sameSize
      cases size.symm.trans sameSize
    · rw [index, size]
      refine iff_of_false (stepRead_uncaught rfl) fun checkable => ?_
      rw [checkable.treeSize logIndex index] at sizeInfinite
      cases sizeInfinite
  · rw [index]
    refine iff_of_true (stepRead_error caught) ⟨finite, ?_, ?_⟩
    · intro logIndex same
      cases index.symm.trans same
    · intro logIndex treeSize same
      cases index.symm.trans same
  · rw [index]
    refine iff_of_false (stepRead_uncaught rfl) fun checkable => ?_
    rw [checkable.logIndex] at infinite
    cases infinite

theorem readProof_not_dict {text : Str} {value : PyValue}
    (loads : PythonHost.loads text = .ok value)
    (other : ∀ members, value ≠ .dict members) :
    readProof text = .error .attributeError := by
  rw [readProof, loads]
  cases value with
  | dict members => exact absurd rfl (other members)
  | _ => rfl

theorem stepRead_iff [Sha256] (rekorId text : Str) :
    (∃ step, stepRead rekorId (readProof text) = .ok step) ↔
      LoadsCheckable text := by
  rw [LoadsCheckable]
  cases loads : PythonHost.loads text with
  | error error =>
      have read : readProof text = .error error := by
        rw [readProof, loads]
        rfl
      rw [read]
      cases caught : error.caught with
      | true => exact iff_of_true (stepRead_error caught) (.inl ⟨_, rfl, caught⟩)
      | false =>
          refine iff_of_false (stepRead_uncaught caught) ?_
          rintro (⟨_, ⟨⟩, isCaught⟩ | ⟨_, ⟨⟩, _⟩)
          rw [caught] at isCaught
          cases isCaught
  | ok value =>
      by_cases isDict : ∃ members, value = .dict members
      · obtain ⟨members, rfl⟩ := isDict
        rw [stepRead_dict_iff loads]
        simp
      · have other : ∀ members, value ≠ .dict members := fun members same =>
          isDict ⟨members, same⟩
        rw [readProof_not_dict loads other]
        refine iff_of_false (stepRead_uncaught rfl) ?_
        rintro (⟨_, ⟨⟩, _⟩ | ⟨members, same, _⟩)
        exact other members (Except.ok.inj same)

/-! ## Complete proofs -/

/-- A proof as the client stores it. -/
structure CompleteProof where
  leafHash : Str
  logIndex : Nat
  treeSize : Nat
  rootHash : Str
  auditPath : List Str
  leafHash_ne_nil : leafHash ≠ []
  inside : logIndex < treeSize
  rootHash_ne_nil : rootHash ≠ []

/-- The text of the certificate loads as an entry with the fields of a
proof. -/
structure Stores (cert : Certificate) (rekorId : Str) (proof : CompleteProof) :
    Prop where
  rekorId_ne_nil : rekorId ≠ []
  entryId : cert.rekorEntryId = some rekorId
  entryJson : ∃ text members, cert.rekorEntryJson = some text ∧ text ≠ [] ∧
    PythonHost.loads text = .ok (.dict members) ∧
    members.lookup (ofStr "leaf_hash".toList) = some (textValue proof.leafHash) ∧
    members.lookup (ofStr "log_index".toList) = some (.int proof.logIndex) ∧
    members.lookup (ofStr "tree_size".toList) = some (.int proof.treeSize) ∧
    members.lookup (ofStr "root_hash".toList) = some (textValue proof.rootHash) ∧
    members.lookup (ofStr "audit_path".toList) =
      some (.list (proof.auditPath.map textValue))

/-- The answer is that of the verifier. -/
def AnswersAs [Sha256] (cert : Certificate) (rekorId : Str)
    (proof : CompleteProof) : Prop :=
  stepScittRekor cert =
    .ok (if Rfc9162.verifyInclusionProof proof.leafHash proof.logIndex
        proof.treeSize proof.auditPath proof.rootHash then
      .verified rekorId proof.logIndex proof.treeSize
    else .failed rekorId)

theorem stepScittRekor_eq [Sha256] {cert : Certificate} {rekorId text : Str}
    (entryId : cert.rekorEntryId = some rekorId) (named : rekorId ≠ [])
    (entryJson : cert.rekorEntryJson = some text) (stored : text ≠ []) :
    stepScittRekor cert = stepRead rekorId (readProof text) := by
  obtain ⟨char, rekorId, rfl⟩ := List.exists_cons_of_ne_nil named
  obtain ⟨first, text, rfl⟩ := List.exists_cons_of_ne_nil stored
  rw [stepScittRekor, entryId, entryJson]
  rfl

/-- An index of 0 is taken for a missing one. -/
theorem answersAs_iff [Sha256] {cert : Certificate} {rekorId : Str}
    {proof : CompleteProof} (stores : Stores cert rekorId proof) :
    AnswersAs cert rekorId proof ↔ proof.logIndex ≠ 0 := by
  obtain ⟨text, members, entryJson, stored, loads, leaf, index, size, root,
    path⟩ := stores.entryJson
  have fields : proofOf members proof.logIndex proof.treeSize =
      { leafHash := textValue proof.leafHash
        logIndex := proof.logIndex
        treeSize := proof.treeSize
        rootHash := textValue proof.rootHash
        auditPath := .list (proof.auditPath.map textValue) } := by
    simp only [proofOf, member, leaf, root, path, Option.getD_some,
      textValue_truthy proof.leafHash_ne_nil, if_true]
  have read : readProof text =
      .ok (proofOf members proof.logIndex proof.treeSize) := by
    rw [readProof_dict loads]
    simp only [indexOf, sizeOf, member, index, size, Option.getD_some,
      PyValue.toInt]
    rfl
  have size : proof.treeSize ≠ 0 := Nat.ne_zero_of_lt proof.inside
  rw [AnswersAs, stepScittRekor_eq stores.entryId stores.rekorId_ne_nil
    entryJson stored, read, stepRead, fields, stepProof]
  have complete : (Proof.complete
      { leafHash := textValue proof.leafHash
        logIndex := proof.logIndex
        treeSize := proof.treeSize
        rootHash := textValue proof.rootHash
        auditPath := .list (proof.auditPath.map textValue) }) = true ↔
      proof.logIndex ≠ 0 := by
    simp [Proof.complete, textValue_truthy proof.leafHash_ne_nil,
      textValue_truthy proof.rootHash_ne_nil, size]
  by_cases later : proof.logIndex ≠ 0
  · rw [if_pos (complete.mpr later), verifyInclusionProof_textValue]
    exact iff_of_true rfl later
  · rw [if_neg (mt complete.mp later)]
    refine iff_of_false (fun same => ?_) later
    have answers := Except.ok.inj same
    split_ifs at answers

/-- The step returns exactly for entries that can be checked, and answers as
the verifier does exactly behind the first leaf. -/
theorem stepScittRekor_iff [Sha256] (cert : Certificate) :
    ((∃ step, stepScittRekor cert = .ok step) ↔
      ∀ rekorId ∈ cert.rekorEntryId, rekorId ≠ [] →
        ∀ text ∈ cert.rekorEntryJson, text ≠ [] → LoadsCheckable text) ∧
    ∀ rekorId proof, Stores cert rekorId proof →
      (AnswersAs cert rekorId proof ↔ proof.logIndex ≠ 0) := by
  refine ⟨?_, fun rekorId proof stores => answersAs_iff stores⟩
  obtain ⟨entryId, entryJson⟩ := cert
  rcases entryId with _ | _ | ⟨char, rekorId⟩
  · exact iff_of_true ⟨.absent, rfl⟩ nofun
  · refine iff_of_true ⟨.absent, rfl⟩ ?_
    rintro _ ⟨⟩ impossible
    exact absurd rfl impossible
  · rcases entryJson with _ | _ | ⟨first, text⟩
    · exact iff_of_true ⟨_, rfl⟩ fun _ _ _ => nofun
    · refine iff_of_true ⟨_, rfl⟩ ?_
      rintro _ _ _ _ ⟨⟩ impossible
      exact absurd rfl impossible
    · rw [stepScittRekor_eq rfl (List.cons_ne_nil _ _) rfl (List.cons_ne_nil _ _),
        stepRead_iff]
      simp

end

/-! ## Two leaves -/

def hexOf (digest : Nat) : Str :=
  toHex (Rfc9162.digestOf digest).toList

/-- The only leaf of a log is its root. -/
def firstLeaf : CompleteProof where
  leafHash := hexOf Rfc9162.leafA
  logIndex := 0
  treeSize := 1
  rootHash := hexOf Rfc9162.leafA
  auditPath := []
  leafHash_ne_nil := by decide
  inside := by decide
  rootHash_ne_nil := by decide

/-- The second leaf of two, under the root that the fold reaches. -/
def secondLeaf : CompleteProof where
  leafHash := hexOf Rfc9162.leafB
  logIndex := 1
  treeSize := 2
  rootHash :=
    hexOf 0x000bf4d0f316cb2e6ca4dd4c2dfbf875787b8126d4a78732d984482f98fa4cc9
  auditPath := [hexOf Rfc9162.leafA]
  leafHash_ne_nil := by decide
  inside := by decide
  rootHash_ne_nil := by decide

def entryText (proof : CompleteProof) : Str :=
  "\x7b\"leaf_hash\": \"".toList ++ proof.leafHash ++
    "\", \"log_index\": ".toList ++ (toString proof.logIndex).toList ++
    ", \"tree_size\": ".toList ++ (toString proof.treeSize).toList ++
    ", \"root_hash\": \"".toList ++ proof.rootHash ++
    "\", \"audit_path\": [".toList ++
    ", ".toList.intercalate
      (proof.auditPath.map fun sibling => '"' :: sibling ++ ['"']) ++ "]\x7d".toList

def entryMembers (proof : CompleteProof) : List (PyStr × PyValue) :=
  [(ofStr "leaf_hash".toList, textValue proof.leafHash),
    (ofStr "log_index".toList, .int proof.logIndex),
    (ofStr "tree_size".toList, .int proof.treeSize),
    (ofStr "root_hash".toList, textValue proof.rootHash),
    (ofStr "audit_path".toList, .list (proof.auditPath.map textValue))]

def rekorId : Str := "108e9186e8c5677a".toList

def storedCertificate (text : Str) : Certificate :=
  { rekorEntryId := some rekorId, rekorEntryJson := some text }

/-- What the library answers on the texts below. -/
@[reducible] def sampleHost : PythonHost where
  loads text :=
    if text = entryText firstLeaf then .ok (.dict (entryMembers firstLeaf))
    else if text = entryText secondLeaf then
      .ok (.dict (entryMembers secondLeaf))
    else if text = "[]".toList then .ok (.list [])
    else .error .valueError
  intOfText _ := none
  eq _ _ := false

theorem stepScittRekor_iff_secondLeaf :
    let := sampleHost
    stepScittRekor (storedCertificate (entryText secondLeaf)) =
      .ok (.verified rekorId 1 2) := by
  let := sampleHost
  have stores : Stores (storedCertificate (entryText secondLeaf)) rekorId
      secondLeaf := by
    refine ⟨by decide, rfl, _, entryMembers secondLeaf, rfl, by decide, ?_,
      rfl, rfl, rfl, rfl, rfl⟩
    exact (if_neg (by decide)).trans (if_pos rfl)
  have accepted : Rfc9162.verifyInclusionProof secondLeaf.leafHash
      secondLeaf.logIndex secondLeaf.treeSize secondLeaf.auditPath
      secondLeaf.rootHash = true := by
    decide
  have answers := ((stepScittRekor_iff (storedCertificate
    (entryText secondLeaf))).2 rekorId secondLeaf stores).mpr (by decide)
  rw [AnswersAs, accepted] at answers
  exact answers

set_option maxRecDepth 2000 in
/-- A list is not read, and the first leaf is not verified. -/
theorem firstLeaf_not_verified :
    let := sampleHost
    stepScittRekor (storedCertificate "[]".toList) = .error .attributeError ∧
      Stores (storedCertificate (entryText firstLeaf)) rekorId firstLeaf ∧
      Rfc9162.verifyInclusionProof firstLeaf.leafHash firstLeaf.logIndex
        firstLeaf.treeSize firstLeaf.auditPath firstLeaf.rootHash = true ∧
      stepScittRekor (storedCertificate (entryText firstLeaf)) =
        .ok (.incomplete rekorId) ∧
      ¬ AnswersAs (storedCertificate (entryText firstLeaf)) rekorId
        firstLeaf := by
  let := sampleHost
  have stores : Stores (storedCertificate (entryText firstLeaf)) rekorId
      firstLeaf := by
    refine ⟨by decide, rfl, _, entryMembers firstLeaf, rfl, by decide, ?_,
      rfl, rfl, rfl, rfl, rfl⟩
    exact if_pos rfl
  exact ⟨by decide, stores, by decide, by decide,
    fun answers => absurd rfl ((answersAs_iff stores).mp answers)⟩

end TrustLayer.VerificationPage
