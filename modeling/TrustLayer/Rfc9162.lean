import TrustLayer.Library.Encoding
import TrustLayer.Library.MerkleTree

/-!
# The proof verifiers of transparency logs

The Python functions fold a path of hexadecimal strings with plain SHA-256.
They are compared with the trees, audit paths and consistency proofs of the
standard, which hash a leaf and a node under different prefixes.
-/

namespace TrustLayer.Rfc9162

open TrustLayer.Library

/-- `hashlib.sha256(data).digest()`. -/
class Sha256 where
  sha256 : List UInt8 → Vector UInt8 32

export Sha256 (sha256)

inductive ValueError where
  /-- `tree_size must be > 0, got {tree_size}` -/
  | treeSize (treeSize : Int)
  /-- `leaf_index {leaf_index} out of range [0, {tree_size})` -/
  | leafIndex (leafIndex treeSize : Int)
  /-- Raised by `bytes.fromhex`. -/
  | notHex
  deriving DecidableEq

/-! ## Hexadecimal text -/

def hexValue (char : Char) : Option UInt8 :=
  if '0' ≤ char ∧ char ≤ '9' then some (UInt8.ofNat (char.toNat - 48))
  else if 'a' ≤ char ∧ char ≤ 'f' then some (UInt8.ofNat (char.toNat - 87))
  else if 'A' ≤ char ∧ char ≤ 'F' then some (UInt8.ofNat (char.toNat - 55))
  else none

/-- `Py_ISSPACE`. -/
def isAsciiSpace (char : Char) : Bool :=
  char = ' ' || (9 ≤ char.toNat && char.toNat ≤ 13)

/-- `bytes.fromhex`, which skips spaces between bytes. -/
def fromhex : Str → Except ValueError (List UInt8)
  | [] => .ok []
  | [char] => if isAsciiSpace char then .ok [] else .error .notHex
  | char :: next :: rest =>
      if isAsciiSpace char then fromhex (next :: rest)
      else
        match hexValue char, hexValue next with
        | some high, some low => (fromhex rest).map ((high * 16 + low) :: ·)
        | _, _ => .error .notHex

theorem hexValue_hexDigit {value : Nat} (digit : value < 16) :
    isAsciiSpace (hexDigit value) = false ∧
      hexValue (hexDigit value) = some (UInt8.ofNat value) := by
  have all : ∀ value < 16, isAsciiSpace (hexDigit value) = false ∧
      hexValue (hexDigit value) = some (UInt8.ofNat value) := by decide
  exact all value digit

theorem fromhex_toHex (bytes : List UInt8) : fromhex (toHex bytes) = .ok bytes := by
  induction bytes with
  | nil => rfl
  | cons byte bytes induction =>
      have bound := byte.toNat_lt
      obtain ⟨highSpace, high⟩ :=
        hexValue_hexDigit (show byte.toNat / 16 < 16 by omega)
      obtain ⟨_, low⟩ := hexValue_hexDigit (show byte.toNat % 16 < 16 by omega)
      have recombined : UInt8.ofNat (byte.toNat / 16) * 16 +
          UInt8.ofNat (byte.toNat % 16) = byte := by
        apply UInt8.toNat_inj.mp
        simp only [UInt8.toNat_add, UInt8.toNat_mul, UInt8.toNat_ofNat',
          show UInt8.toNat 16 = 16 from rfl]
        omega
      change fromhex (hexDigit (byte.toNat / 16) ::
        hexDigit (byte.toNat % 16) :: toHex bytes) = _
      rw [fromhex, highSpace, high, low, induction]
      simp [recombined, Except.map]

section

variable [Sha256]

/-! ## Inclusion -/

/-- The loop over the audit path. -/
def foldPath (h : List UInt8) (idx : Int) :
    List Str → Except ValueError (List UInt8)
  | [] => .ok h
  | siblingHex :: auditPath =>
      match fromhex siblingHex with
      | .error error => .error error
      | .ok sibling =>
          if idx % 2 = 0 then
            foldPath (sha256 (h ++ sibling)).toList (idx / 2) auditPath
          else foldPath (sha256 (sibling ++ h)).toList (idx / 2) auditPath

def reconstructRootRfc9162 (leafHex : Str) (leafIndex treeSize : Int)
    (auditPath : List Str) : Except ValueError Str :=
  if treeSize ≤ 0 then .error (.treeSize treeSize)
  else if leafIndex < 0 ∨ leafIndex ≥ treeSize then
    .error (.leafIndex leafIndex treeSize)
  else if auditPath.length = 0 ∧ treeSize > 1 then .ok leafHex
  else
    match fromhex leafHex with
    | .error error => .error error
    | .ok h => (foldPath h leafIndex auditPath).map toHex

def verifyInclusionProof (leafHex : Str) (leafIndex treeSize : Int)
    (auditPath : List Str) (expectedRootHex : Str) : Bool :=
  match reconstructRootRfc9162 leafHex leafIndex treeSize auditPath with
  | .ok reconstructed => reconstructed = expectedRootHex
  | .error _ => false

/-! ## Consistency -/

/-- The loop over the consistency path. -/
def foldFlagged (h : List UInt8) :
    List (Bool × Str) → Except ValueError (List UInt8)
  | [] => .ok h
  | (isLeft, siblingHex) :: consistencyPath =>
      match fromhex siblingHex with
      | .error error => .error error
      | .ok sibling =>
          if isLeft then foldFlagged (sha256 (h ++ sibling)).toList consistencyPath
          else foldFlagged (sha256 (sibling ++ h)).toList consistencyPath

/-- An error here is raised to the caller. -/
def verifyConsistencyProof (_oldSize : Int) (oldRootHex : Str) (_newSize : Int)
    (newRootHex : Str) (consistencyPath : List (Bool × Str)) :
    Except ValueError Bool :=
  match fromhex newRootHex with
  | .error error => .error error
  | .ok h =>
      (foldFlagged h consistencyPath).map fun final => toHex final = oldRootHex

/-! ## The folds as climbs -/

/-- The sides that the bits of an index give. -/
def indexSteps (idx : Int) : List (List UInt8) → List (Bool × List UInt8)
  | [] => []
  | sibling :: siblings =>
      (idx % 2 = 0, sibling) :: indexSteps (idx / 2) siblings

omit [Sha256] in
theorem indexSteps_eq_nil_iff {idx : Int} {siblings : List (List UInt8)} :
    indexSteps idx siblings = [] ↔ siblings = [] := by
  cases siblings <;> simp [indexSteps]

omit [Sha256] in
theorem indexSteps_digests (idx : Int) (digests : List (Vector UInt8 32)) :
    ∀ step ∈ indexSteps idx (digests.map Vector.toList),
      step.2.length = 32 := by
  induction digests generalizing idx with
  | nil => simp [indexSteps]
  | cons digest digests induction =>
      intro step member
      rcases List.mem_cons.mp member with rfl | later
      · exact digest.length_toList
      · exact induction _ step later

/-- The decoded strings of a path. -/
def decodePath : List Str → Except ValueError (List (List UInt8))
  | [] => .ok []
  | siblingHex :: path =>
      match fromhex siblingHex with
      | .error error => .error error
      | .ok sibling => (decodePath path).map (sibling :: ·)

theorem foldPath_eq (h : List UInt8) (idx : Int) (path : List Str) :
    foldPath h idx path = (decodePath path).map fun siblings =>
      climb sha256 h (indexSteps idx siblings) := by
  induction path generalizing h idx with
  | nil => rfl
  | cons siblingHex path induction =>
      rw [foldPath, decodePath]
      cases fromhex siblingHex with
      | error error => rfl
      | ok sibling =>
          have step : (if idx % 2 = 0 then
                foldPath (sha256 (h ++ sibling)).toList (idx / 2) path
              else foldPath (sha256 (sibling ++ h)).toList (idx / 2) path) =
              foldPath (sha256 (climbInput h (idx % 2 = 0) sibling)).toList
                (idx / 2) path := by
            by_cases even : idx % 2 = 0 <;> simp [even, climbInput]
          dsimp only
          rw [step, induction]
          cases decodePath path <;> rfl

theorem foldFlagged_eq (h : List UInt8) (path : List (Bool × Str)) :
    foldFlagged h path = (decodePath (path.map Prod.snd)).map fun siblings =>
      climb sha256 h ((path.map Prod.fst).zip siblings) := by
  induction path generalizing h with
  | nil => rfl
  | cons step path induction =>
      obtain ⟨isLeft, siblingHex⟩ := step
      rw [foldFlagged, List.map_cons, List.map_cons, decodePath]
      cases fromhex siblingHex with
      | error error => rfl
      | ok sibling =>
          have step : (if isLeft then
                foldFlagged (sha256 (h ++ sibling)).toList path
              else foldFlagged (sha256 (sibling ++ h)).toList path) =
              foldFlagged (sha256 (climbInput h isLeft sibling)).toList path := by
            cases isLeft <;> rfl
          dsimp only
          rw [step, induction]
          cases decodePath (path.map Prod.snd) <;> rfl

omit [Sha256] in
theorem decodePath_map_toHex (siblings : List (Vector UInt8 32)) :
    decodePath (siblings.map fun digest => toHex digest.toList) =
      .ok (siblings.map Vector.toList) := by
  induction siblings with
  | nil => rfl
  | cons sibling siblings induction =>
      change decodePath (toHex sibling.toList :: siblings.map _) = _
      rw [decodePath, fromhex_toHex, induction]
      rfl

/-- Every input the reconstruction hashes. -/
def inclusionInputs (leafHex : Str) (leafIndex : Int) (auditPath : List Str) :
    List (List UInt8) :=
  match fromhex leafHex, decodePath auditPath with
  | .ok leaf, .ok siblings =>
      climbInputs sha256 leaf (indexSteps leafIndex siblings)
  | _, _ => []

theorem inclusionInputs_of_decoded {leafHex : Str} {leafIndex : Int}
    {auditPath : List Str} {leaf : List UInt8} {siblings : List (List UInt8)}
    (leafDecoded : fromhex leafHex = .ok leaf)
    (decoded : decodePath auditPath = .ok siblings) :
    inclusionInputs leafHex leafIndex auditPath =
      climbInputs sha256 leaf (indexSteps leafIndex siblings) := by
  rw [inclusionInputs, leafDecoded, decoded]

/-- Every input the consistency check hashes. -/
def consistencyInputs (newRootHex : Str) (path : List (Bool × Str)) :
    List (List UInt8) :=
  match fromhex newRootHex, decodePath (path.map Prod.snd) with
  | .ok root, .ok siblings =>
      climbInputs sha256 root ((path.map Prod.fst).zip siblings)
  | _, _ => []

theorem reconstruct_of_decoded {leafHex : Str} {leafIndex treeSize : Int}
    {auditPath : List Str} {leaf : List UInt8} {siblings : List (List UInt8)}
    (inRange : 0 ≤ leafIndex ∧ leafIndex < treeSize)
    (folds : auditPath ≠ [] ∨ treeSize = 1)
    (leafDecoded : fromhex leafHex = .ok leaf)
    (decoded : decodePath auditPath = .ok siblings) :
    reconstructRootRfc9162 leafHex leafIndex treeSize auditPath =
      .ok (toHex (climb sha256 leaf (indexSteps leafIndex siblings))) := by
  have hashes : ¬ (auditPath.length = 0 ∧ treeSize > 1) := by
    rw [List.length_eq_zero_iff]
    rintro ⟨empty, several⟩
    rcases folds with nonempty | single
    · exact nonempty empty
    · omega
  rw [reconstructRootRfc9162, if_neg (by omega), if_neg (by omega),
    if_neg hashes, leafDecoded]
  dsimp only
  rw [foldPath_eq, decoded]
  rfl

/-! ## The standard's hashes, as text -/

def leafHash (entry : List UInt8) : Vector UInt8 32 :=
  (MerkleTree.leaf entry).root sha256

def leafHex (entry : List UInt8) : Str :=
  toHex (leafHash entry).toList

theorem fromhex_leafHex (entry : List UInt8) :
    fromhex (leafHex entry) = .ok (leafHash entry).toList :=
  fromhex_toHex _

def rootHex (entries : List (List UInt8)) : Str :=
  toHex ((MerkleTree.ofEntries entries).root sha256).toList

def auditPathHex (index : Nat) (entries : List (List UInt8)) : List Str :=
  (MerkleTree.auditPath sha256 index (MerkleTree.ofEntries entries)).map
    fun digest => toHex digest.toList

def consistencyProofHex (old : Nat) (entries : List (List UInt8)) : List Str :=
  (MerkleTree.consistencyProof sha256 old (MerkleTree.ofEntries entries)).map
    fun digest => toHex digest.toList

theorem auditPathHex_length (index : Nat) (entries : List (List UInt8)) :
    (auditPathHex index entries).length =
      MerkleTree.auditLength index entries.length := by
  rw [auditPathHex, List.length_map, MerkleTree.auditPath_length]

/-! ## Completeness of inclusion -/

/-- The reconstruction hashes pairs of digests without the prefix of a node,
so it finds the root of a tree of one entry and of no other. -/
theorem reconstruct_eq_rootHex_iff {entries : List (List UInt8)} {index : Nat}
    {entry : List UInt8} (found : entries[index]? = some entry)
    (free : NoCollision sha256
      ((MerkleTree.ofEntries entries).inputs sha256 ++
        inclusionInputs (leafHex entry) index (auditPathHex index entries))) :
    reconstructRootRfc9162 (leafHex entry) index entries.length
        (auditPathHex index entries) = .ok (rootHex entries) ↔
      entries.length = 1 := by
  obtain ⟨inRange, atIndex⟩ := List.getElem?_eq_some_iff.mp found
  have decoded : decodePath (auditPathHex index entries) =
      .ok ((MerkleTree.auditPath sha256 index
        (MerkleTree.ofEntries entries)).map Vector.toList) :=
    decodePath_map_toHex _
  constructor
  · intro reconstructed
    by_contra notSingle
    have several : 2 ≤ entries.length := by omega
    have nonempty : auditPathHex index entries ≠ [] := by
      rw [← List.length_pos_iff, auditPathHex_length]
      exact MerkleTree.auditLength_pos several
    rw [reconstruct_of_decoded ⟨by omega, by omega⟩ (Or.inl nonempty)
      (fromhex_leafHex entry) decoded, rootHex, Except.ok.injEq,
      toHex_injective.eq_iff] at reconstructed
    rw [inclusionInputs_of_decoded (fromhex_leafHex entry) decoded] at free
    have steps : indexSteps index ((MerkleTree.auditPath sha256 index
        (MerkleTree.ofEntries entries)).map Vector.toList) ≠ [] := by
      rw [Ne, indexSteps_eq_nil_iff, List.map_eq_nil_iff,
        ← List.map_eq_nil_iff]
      exact nonempty
    have last := (climb_eq_root_iff free steps).mp reconstructed
    -- the last pair has 64 bytes, what the root hashes has 65
    have short := climbInputs_length (Vector.length_toList ..)
      (indexSteps_digests _ _) _ (List.mem_of_getLast? last)
    rw [MerkleTree.ofEntries_split several,
      MerkleTree.rootInput_node_length] at short
    omega
  · intro single
    obtain ⟨only, rfl⟩ := List.length_eq_one_iff.mp single
    cases index with
    | succ index => simp at inRange
    | zero =>
        cases atIndex
        have noPath : auditPathHex 0 [only] = [] := by
          rw [auditPathHex, MerkleTree.ofEntries]
          rfl
        have reached : reconstructRootRfc9162 (leafHex only) 0 1 [] =
            .ok (toHex (leafHash only).toList) :=
          reconstruct_of_decoded ⟨Int.le_refl 0, by decide⟩ (Or.inr rfl)
            (fromhex_leafHex only) (show decodePath [] = .ok [] from rfl)
        rw [noPath, rootHex, MerkleTree.ofEntries]
        exact reached

/-! ## Soundness of inclusion -/

/-- A tree of this size that has this root and, at the index, a leaf of this
hash, and that collides with nothing the reconstruction hashes. -/
structure TreeFor (leafHex : Str) (leafIndex treeSize : Int)
    (auditPath : List Str) (expectedRootHex : Str)
    (entries : List (List UInt8)) : Prop where
  size : (entries.length : Int) = treeSize
  leaf : ∃ entry, entries[leafIndex.toNat]? = some entry ∧
    fromhex leafHex = .ok (leafHash entry).toList
  root : rootHex entries = expectedRootHex
  free : NoCollision sha256 ((MerkleTree.ofEntries entries).inputs sha256 ++
    inclusionInputs leafHex leafIndex auditPath)

/-- Whatever root the verifier accepts, there is a tree for it, and the path
has the length that the index and the size determine. -/
def InclusionSound (leafHex : Str) (leafIndex treeSize : Int)
    (auditPath : List Str) : Prop :=
  ∀ expectedRootHex,
    verifyInclusionProof leafHex leafIndex treeSize auditPath
        expectedRootHex = true →
      (∃ entries, TreeFor leafHex leafIndex treeSize auditPath expectedRootHex
        entries) ∧
      auditPath.length =
        MerkleTree.auditLength leafIndex.toNat treeSize.toNat

/-- The range checks, or the decoding of a string that is decoded, refuse the
call. -/
def Refused (leafHex : Str) (leafIndex treeSize : Int) (auditPath : List Str) :
    Prop :=
  treeSize ≤ 0 ∨ leafIndex < 0 ∨ treeSize ≤ leafIndex ∨
    (auditPath ≠ [] ∨ treeSize = 1) ∧
      ∃ text ∈ leafHex :: auditPath, ∀ bytes, fromhex text ≠ .ok bytes

/-- The last pair of the fold is what the root of a tree of this size, with
this leaf, hashes: the last string of the path brings the prefix of a node. -/
def SpellsRoot (leafHex : Str) (leafIndex treeSize : Int)
    (auditPath : List Str) : Prop :=
  ∃ entries, TreeFor leafHex leafIndex treeSize auditPath (rootHex entries)
      entries ∧
    (inclusionInputs leafHex leafIndex auditPath).getLast? =
      some ((MerkleTree.ofEntries entries).rootInput sha256)

omit [Sha256] in
theorem decodePath_eq_ok_iff {path : List Str} :
    (∃ siblings, decodePath path = .ok siblings) ↔
      ∀ text ∈ path, ∃ bytes, fromhex text = .ok bytes := by
  induction path with
  | nil => simp [decodePath]
  | cons text path induction =>
      rw [List.forall_mem_cons, ← induction, decodePath]
      cases fromhex text with
      | error error => simp
      | ok sibling => cases decodePath path <;> simp [Except.map]

omit [Sha256] in
theorem decodePath_length {path : List Str} {siblings : List (List UInt8)}
    (decoded : decodePath path = .ok siblings) :
    siblings.length = path.length := by
  induction path generalizing siblings with
  | nil => cases decoded; rfl
  | cons text path induction =>
      rw [decodePath] at decoded
      cases isHex : fromhex text with
      | error error => simp [isHex] at decoded
      | ok sibling =>
          rw [isHex] at decoded
          cases later : decodePath path with
          | error error => simp [later, Except.map] at decoded
          | ok rest =>
              rw [later] at decoded
              cases decoded
              simp [induction later]

omit [Sha256] in
theorem map_fromhex_of_decoded {path : List Str} {siblings : List (List UInt8)}
    (decoded : decodePath path = .ok siblings) :
    path.map fromhex = siblings.map .ok := by
  induction path generalizing siblings with
  | nil => cases decoded; rfl
  | cons text path induction =>
      rw [decodePath] at decoded
      cases isHex : fromhex text with
      | error error => simp [isHex] at decoded
      | ok sibling =>
          rw [isHex] at decoded
          cases later : decodePath path with
          | error error => simp [later, Except.map] at decoded
          | ok rest =>
              rw [later] at decoded
              cases decoded
              rw [List.map_cons, List.map_cons, isHex, induction later]

omit [Sha256] in
theorem map_snd_indexSteps (idx : Int) (siblings : List (List UInt8)) :
    (indexSteps idx siblings).map Prod.snd = siblings := by
  induction siblings generalizing idx with
  | nil => rfl
  | cons sibling siblings induction =>
      rw [indexSteps, List.map_cons, induction]

omit [Sha256] in
/-- The last string of a decoded path is what the last step meets. -/
theorem getLast?_of_decoded {path : List Str} {siblings : List (List UInt8)}
    {steps : List (Bool × List UInt8)} {isLeft : Bool} {sibling : List UInt8}
    (decoded : decodePath path = .ok siblings)
    (meet : steps.map Prod.snd = siblings)
    (last : steps.getLast? = some (isLeft, sibling)) :
    ∃ text, path.getLast? = some text ∧ fromhex text = .ok sibling := by
  have lasts := congrArg List.getLast? (map_fromhex_of_decoded decoded)
  rw [List.getLast?_map, List.getLast?_map, ← meet, List.getLast?_map, last]
    at lasts
  obtain ⟨text, isLast, isHex⟩ := Option.map_eq_some_iff.mp lasts
  exact ⟨text, isLast, isHex⟩

omit [Sha256] in
/-- Where a call is not refused, what it decodes is hexadecimal. -/
theorem decoded_of_not_refused {leafHex : Str} {leafIndex treeSize : Int}
    {auditPath : List Str} (accepted : ¬ Refused leafHex leafIndex treeSize auditPath)
    (folds : auditPath ≠ [] ∨ treeSize = 1) :
    ∃ leaf siblings, fromhex leafHex = .ok leaf ∧
      decodePath auditPath = .ok siblings := by
  have allHex : ∀ text ∈ leafHex :: auditPath,
      ∃ bytes, fromhex text = .ok bytes := by
    intro text member
    by_contra notHex
    exact accepted (Or.inr (Or.inr (Or.inr ⟨folds, text, member,
      not_exists.mp notHex⟩)))
  rw [List.forall_mem_cons, ← decodePath_eq_ok_iff] at allHex
  obtain ⟨⟨leaf, leafDecoded⟩, siblings, decoded⟩ := allHex
  exact ⟨leaf, siblings, leafDecoded, decoded⟩

theorem verify_of_refused {leafHex : Str} {leafIndex treeSize : Int}
    {auditPath : List Str} (refused : Refused leafHex leafIndex treeSize auditPath)
    (expectedRootHex : Str) :
    verifyInclusionProof leafHex leafIndex treeSize auditPath
      expectedRootHex = false := by
  rw [verifyInclusionProof, reconstructRootRfc9162]
  by_cases nonpositive : treeSize ≤ 0
  · rw [if_pos nonpositive]
  by_cases outside : leafIndex < 0 ∨ leafIndex ≥ treeSize
  · rw [if_neg nonpositive, if_pos outside]
  rcases refused with small | negative | large | ⟨folds, text, member, notHex⟩
  · exact absurd small nonpositive
  · exact absurd (Or.inl negative) outside
  · exact absurd (Or.inr large) outside
  have hashes : ¬ (auditPath.length = 0 ∧ treeSize > 1) := by
    rw [List.length_eq_zero_iff]
    rintro ⟨empty, several⟩
    exact folds.elim (fun nonempty => nonempty empty) (by omega)
  rw [if_neg nonpositive, if_neg outside, if_neg hashes]
  cases leafDecoded : fromhex leafHex with
  | error error => rfl
  | ok leaf =>
      dsimp only
      rw [foldPath_eq]
      cases decoded : decodePath auditPath with
      | error error => rfl
      | ok siblings =>
          rcases List.mem_cons.mp member with rfl | inPath
          · exact absurd leafDecoded (notHex leaf)
          · obtain ⟨bytes, isHex⟩ :=
              decodePath_eq_ok_iff.mp ⟨siblings, decoded⟩ text inPath
            exact absurd isHex (notHex bytes)

omit [Sha256] in
theorem inRange_of_not_refused {leafHex : Str} {leafIndex treeSize : Int}
    {auditPath : List Str}
    (accepted : ¬ Refused leafHex leafIndex treeSize auditPath) :
    0 ≤ leafIndex ∧ leafIndex < treeSize := by
  simp only [Refused, not_or] at accepted
  omega

/-- An empty path is accepted for every size, with the leaf as the root. -/
theorem verify_of_noPath {leafHex : Str} {leafIndex treeSize : Int}
    (inRange : 0 ≤ leafIndex ∧ leafIndex < treeSize) (several : 2 ≤ treeSize) :
    verifyInclusionProof leafHex leafIndex treeSize [] leafHex = true := by
  rw [verifyInclusionProof, reconstructRootRfc9162, if_neg (by omega),
    if_neg (by omega), if_pos ⟨rfl, by omega⟩]
  exact decide_eq_true rfl

theorem verify_of_decoded {leafHex : Str} {leafIndex treeSize : Int}
    {auditPath : List Str} {leaf : List UInt8} {siblings : List (List UInt8)}
    (inRange : 0 ≤ leafIndex ∧ leafIndex < treeSize)
    (folds : auditPath ≠ [] ∨ treeSize = 1)
    (leafDecoded : fromhex leafHex = .ok leaf)
    (decoded : decodePath auditPath = .ok siblings) {expectedRootHex : Str} :
    verifyInclusionProof leafHex leafIndex treeSize auditPath
        expectedRootHex = true ↔
      toHex (climb sha256 leaf (indexSteps leafIndex siblings)) =
        expectedRootHex := by
  rw [verifyInclusionProof,
    reconstruct_of_decoded inRange folds leafDecoded decoded]
  exact decide_eq_true_iff

theorem inclusionSound_of_noPath {leafHex : Str} {leafIndex : Int}
    {leaf : List UInt8} (inRange : 0 ≤ leafIndex ∧ leafIndex < 1)
    (leafDecoded : fromhex leafHex = .ok leaf) :
    InclusionSound leafHex leafIndex 1 [] ↔
      ∃ entry, fromhex leafHex = .ok (leafHash entry).toList := by
  obtain rfl : leafIndex = 0 := by omega
  have decoded : decodePath [] = .ok [] := rfl
  constructor
  · intro sound
    have verified :=
      (verify_of_decoded inRange (Or.inr rfl) leafDecoded decoded).mpr rfl
    obtain ⟨⟨entries, tree⟩, _⟩ := sound _ verified
    obtain ⟨entry, _, isLeaf⟩ := tree.leaf
    exact ⟨entry, isLeaf⟩
  · rintro ⟨entry, isLeaf⟩ expectedRootHex verified
    rw [verify_of_decoded inRange (Or.inr rfl) isLeaf decoded] at verified
    refine ⟨⟨[entry], rfl, ⟨entry, rfl, isLeaf⟩, ?_, ?_⟩, ?_⟩
    · rw [rootHex, MerkleTree.ofEntries]
      exact verified
    · rw [MerkleTree.ofEntries, inclusionInputs_of_decoded isLeaf decoded]
      intro first firstMember second secondMember _
      rw [List.mem_singleton.mp firstMember, List.mem_singleton.mp secondMember]
    · exact (MerkleTree.auditLength_small Nat.one_lt_two).symm

theorem inclusionSound_of_path {leafHex : Str} {leafIndex treeSize : Int}
    {auditPath : List Str} {leaf : List UInt8} {siblings : List (List UInt8)}
    (inRange : 0 ≤ leafIndex ∧ leafIndex < treeSize) (nonempty : auditPath ≠ [])
    (leafDecoded : fromhex leafHex = .ok leaf)
    (decoded : decodePath auditPath = .ok siblings) :
    InclusionSound leafHex leafIndex treeSize auditPath ↔
      auditPath.length =
          MerkleTree.auditLength leafIndex.toNat treeSize.toNat ∧
        SpellsRoot leafHex leafIndex treeSize auditPath := by
  have verifies := @verify_of_decoded _ _ _ _ _ _ _ inRange (Or.inl nonempty)
    leafDecoded decoded
  have hashed := @inclusionInputs_of_decoded _ _ leafIndex _ _ _ leafDecoded
    decoded
  have steps : indexSteps leafIndex siblings ≠ [] := by
    rw [Ne, indexSteps_eq_nil_iff, ← List.length_eq_zero_iff,
      decodePath_length decoded, List.length_eq_zero_iff]
    exact nonempty
  constructor
  · intro sound
    obtain ⟨⟨entries, tree⟩, sameLength⟩ := sound _ (verifies.mpr rfl)
    refine ⟨sameLength, entries, ⟨tree.size, tree.leaf, rfl, tree.free⟩, ?_⟩
    have reached := toHex_injective tree.root.symm
    have free := tree.free
    rw [hashed] at free ⊢
    exact (climb_eq_root_iff free steps).mp reached
  · rintro ⟨sameLength, entries, tree, last⟩ expectedRootHex verified
    have free := tree.free
    rw [hashed] at free last
    have reached := (climb_eq_root_iff free steps).mpr last
    refine ⟨⟨entries, tree.size, tree.leaf, ?_, tree.free⟩, sameLength⟩
    rw [← verifies.mp verified, reached, rootHex]

/-- A call that the verifier may be trusted with: it is refused, or asks about
the only leaf of a tree, without a path. -/
def Trusted (leafHex : Str) (leafIndex treeSize : Int) (auditPath : List Str) :
    Prop :=
  Refused leafHex leafIndex treeSize auditPath ∨
    treeSize = 1 ∧ auditPath = [] ∧
      ∃ entry, fromhex leafHex = .ok (leafHash entry).toList

/-- The last string of the path is no digest but one byte longer, and so can
bring the prefix of a node. -/
def BringsPrefix (auditPath : List Str) : Prop :=
  ∃ text ∈ auditPath.getLast?, ∃ bytes,
    fromhex text = .ok bytes ∧ bytes.length = 33

/-- The root of a tree of several entries hashes 65 bytes. -/
theorem SpellsRoot.bringsPrefix {leafHex : Str} {leafIndex treeSize : Int}
    {auditPath : List Str} {siblings : List (List UInt8)}
    (several : 2 ≤ treeSize) (nonempty : auditPath ≠ [])
    (decoded : decodePath auditPath = .ok siblings)
    (spells : SpellsRoot leafHex leafIndex treeSize auditPath) :
    BringsPrefix auditPath := by
  obtain ⟨entries, tree, hashed⟩ := spells
  obtain ⟨entry, _, isLeaf⟩ := tree.leaf
  have size := tree.size
  have steps : indexSteps leafIndex siblings ≠ [] := by
    rw [Ne, indexSteps_eq_nil_iff, ← List.length_eq_zero_iff,
      decodePath_length decoded, List.length_eq_zero_iff]
    exact nonempty
  have last := List.getLast?_eq_some_getLast steps
  obtain ⟨text, isLast, isHex⟩ :=
    getLast?_of_decoded decoded (map_snd_indexSteps leafIndex siblings) last
  obtain ⟨below, width, pair⟩ := @exists_climbInput_last 32 sha256 _ _ _ _
    (leafHash entry).length_toList last
  rw [inclusionInputs_of_decoded isLeaf decoded, pair, Option.some.injEq]
    at hashed
  have lengths := congrArg List.length hashed
  rw [climbInput_length, width, MerkleTree.ofEntries_split (by omega),
    MerkleTree.rootInput_node_length] at lengths
  exact ⟨text, isLast, _, isHex, by omega⟩

theorem inclusionSound_of_refused {leafHex : Str} {leafIndex treeSize : Int}
    {auditPath : List Str} (refused : Refused leafHex leafIndex treeSize auditPath) :
    InclusionSound leafHex leafIndex treeSize auditPath := by
  intro expectedRootHex verified
  rw [verify_of_refused refused] at verified
  cases verified

theorem inclusionSound_of_trusted {leafHex : Str} {leafIndex treeSize : Int}
    {auditPath : List Str} (trusted : Trusted leafHex leafIndex treeSize auditPath) :
    InclusionSound leafHex leafIndex treeSize auditPath := by
  rcases trusted with refused | ⟨rfl, rfl, isLeaf⟩
  · exact inclusionSound_of_refused refused
  by_cases refused : Refused leafHex leafIndex 1 []
  · exact inclusionSound_of_refused refused
  obtain ⟨leaf, _, leafDecoded, _⟩ :=
    decoded_of_not_refused refused (Or.inr rfl)
  exact (inclusionSound_of_noPath (inRange_of_not_refused refused)
    leafDecoded).mpr isLeaf

/-- A call that is neither refused nor about a single leaf without a path hashes
pairs without the prefix of a node.  It is sound only where the path brings that
prefix itself. -/
theorem inclusionSound_iff {leafHex : Str} {leafIndex treeSize : Int}
    {auditPath : List Str} :
    (Trusted leafHex leafIndex treeSize auditPath →
        InclusionSound leafHex leafIndex treeSize auditPath) ∧
      (¬ BringsPrefix auditPath →
        (InclusionSound leafHex leafIndex treeSize auditPath ↔
          Trusted leafHex leafIndex treeSize auditPath)) := by
  refine ⟨inclusionSound_of_trusted, fun digests =>
    ⟨fun sound => ?_, inclusionSound_of_trusted⟩⟩
  by_cases refused : Refused leafHex leafIndex treeSize auditPath
  · exact Or.inl refused
  have inRange := inRange_of_not_refused refused
  by_cases noPath : auditPath = []
  · subst noPath
    by_cases single : treeSize = 1
    · subst single
      obtain ⟨leaf, _, leafDecoded, _⟩ :=
        decoded_of_not_refused refused (Or.inr rfl)
      exact Or.inr ⟨rfl, rfl,
        (inclusionSound_of_noPath inRange leafDecoded).mp sound⟩
    · have several : 2 ≤ treeSize := by omega
      have longer := @MerkleTree.auditLength_pos leafIndex.toNat treeSize.toNat
        (by omega)
      exact absurd (sound leafHex (verify_of_noPath inRange several)).2
        longer.ne
  · obtain ⟨leaf, siblings, leafDecoded, decoded⟩ :=
      decoded_of_not_refused refused (Or.inl noPath)
    obtain ⟨sameLength, spells⟩ :=
      (inclusionSound_of_path inRange noPath leafDecoded decoded).mp sound
    have several : 2 ≤ treeSize := by
      by_contra single
      have none : auditPath.length = 0 :=
        sameLength.trans (MerkleTree.auditLength_small (by omega))
      exact noPath (List.length_eq_zero_iff.mp none)
    exact absurd (spells.bringsPrefix several noPath decoded) digests

/-! ## Consistency proofs -/

def Accepts (old new : List (List UInt8)) (path : List (Bool × Str)) : Prop :=
  verifyConsistencyProof old.length (rootHex old) new.length (rootHex new)
    path = .ok true

/-- The last pair of the fold is what the old root hashes. -/
def SpellsOld (old new : List (List UInt8)) (path : List (Bool × Str)) : Prop :=
  (consistencyInputs (rootHex new) path).getLast? =
    some ((MerkleTree.ofEntries old).rootInput sha256)

/-- The strings of the path are the proof of the standard, which there is for
a list that is not empty. -/
def IsConsistencyProof (old new : List (List UInt8)) (path : List (Bool × Str)) :
    Prop :=
  old ≠ [] ∧ path.map Prod.snd = consistencyProofHex old.length new

/-- The proof of a prefix is accepted; between a list and a shorter one that is
not its prefix, the path is not. -/
def ConsistencyHolds (old new : List (List UInt8)) (path : List (Bool × Str)) :
    Prop :=
  (old <+: new → IsConsistencyProof old new path → Accepts old new path) ∧
    (old.length < new.length → ¬ old <+: new → ¬ Accepts old new path)

theorem accepts_nil_iff {old new : List (List UInt8)} :
    Accepts old new [] ↔
      (MerkleTree.ofEntries old).root sha256 =
        (MerkleTree.ofEntries new).root sha256 := by
  rw [Accepts, verifyConsistencyProof, rootHex, fromhex_toHex]
  dsimp only [foldFlagged, Except.map]
  rw [Except.ok.injEq, decide_eq_true_iff, rootHex, toHex_injective.eq_iff,
    Vector.toList_inj, eq_comm]

theorem accepts_iff_of_path {old new : List (List UInt8)}
    {path : List (Bool × Str)} (nonempty : path ≠ [])
    (free : NoCollision sha256 ((MerkleTree.ofEntries old).inputs sha256 ++
      consistencyInputs (rootHex new) path)) :
    Accepts old new path ↔ SpellsOld old new path := by
  rw [Accepts, verifyConsistencyProof, SpellsOld]
  rw [consistencyInputs] at free ⊢
  rw [rootHex, fromhex_toHex] at free ⊢
  dsimp only at free ⊢
  rw [foldFlagged_eq]
  cases decoded : decodePath (path.map Prod.snd) with
  | error error => simp [Except.map]
  | ok siblings =>
      rw [decoded] at free
      have steps : (path.map Prod.fst).zip siblings ≠ [] := by
        have length := decodePath_length decoded
        rw [List.length_map] at length
        rw [Ne, ← List.length_eq_zero_iff, List.length_zip, List.length_map,
          length, Nat.min_self, List.length_eq_zero_iff]
        exact nonempty
      rw [← climb_eq_root_iff free steps]
      simp only [Except.map, Except.ok.injEq, decide_eq_true_eq, rootHex,
        toHex_injective.eq_iff]

/-- The last string of the path is, but for 32 bytes at its side, what the old
root hashes. -/
def EndsInOld (old : List (List UInt8)) (path : List (Bool × Str)) : Prop :=
  ∃ step ∈ path.getLast?, ∃ sibling below : List UInt8,
    fromhex step.2 = .ok sibling ∧ below.length = 32 ∧
      climbInput below step.1 sibling =
        (MerkleTree.ofEntries old).rootInput sha256

omit [Sha256] in
theorem exists_last_flagged {path : List (Bool × Str)}
    {siblings : List (List UInt8)} {isLeft : Bool} {sibling : List UInt8}
    (decoded : decodePath (path.map Prod.snd) = .ok siblings)
    (last : ((path.map Prod.fst).zip siblings).getLast? =
      some (isLeft, sibling)) :
    ∃ text, path.getLast? = some (isLeft, text) ∧
      fromhex text = .ok sibling := by
  have lengths : (path.map Prod.fst).length = siblings.length := by
    rw [decodePath_length decoded, List.length_map, List.length_map]
  have sides := List.getLast?_map (f := Prod.fst)
    (l := (path.map Prod.fst).zip siblings)
  rw [List.map_fst_zip lengths.le, List.getLast?_map, last] at sides
  obtain ⟨text, isLast, isHex⟩ :=
    getLast?_of_decoded decoded (List.map_snd_zip lengths.ge) last
  rw [List.getLast?_map] at isLast
  obtain ⟨⟨side, found⟩, isStep, rfl⟩ := Option.map_eq_some_iff.mp isLast
  rw [isStep] at sides
  obtain rfl : side = isLeft := Option.some.inj sides
  exact ⟨found, isStep, isHex⟩

theorem SpellsOld.endsInOld {old new : List (List UInt8)}
    {path : List (Bool × Str)} (spells : SpellsOld old new path) :
    EndsInOld old path := by
  rw [SpellsOld, consistencyInputs, rootHex, fromhex_toHex] at spells
  cases decoded : decodePath (path.map Prod.snd) with
  | error error => simp [decoded] at spells
  | ok siblings =>
      rw [decoded] at spells
      dsimp only at spells
      cases last : ((path.map Prod.fst).zip siblings).getLast? with
      | none =>
          rw [List.getLast?_eq_none_iff.mp last] at spells
          cases spells
      | some step =>
          obtain ⟨isLeft, sibling⟩ := step
          obtain ⟨text, isLast, isHex⟩ := exists_last_flagged decoded last
          obtain ⟨below, width, pair⟩ := @exists_climbInput_last 32 sha256 _ _ _
            _ ((MerkleTree.ofEntries new).root sha256).length_toList last
          rw [pair, Option.some.injEq] at spells
          exact ⟨_, isLast, sibling, below, isHex, width, spells⟩

/-- The call is not about growth, or it is not about the proof of a prefix and
its path does not end in what the old root hashes. -/
def Indifferent (old new : List (List UInt8)) (path : List (Bool × Str)) :
    Prop :=
  old = [] ∨ old.length = new.length ∨
    ¬ (old <+: new ∧ IsConsistencyProof old new path) ∧ ¬ EndsInOld old path

/-- The proof for a list and itself is empty, and accepted. -/
theorem consistencyHolds_of_length_eq {old new : List (List UInt8)}
    {path : List (Bool × Str)} (equal : old.length = new.length) :
    ConsistencyHolds old new path := by
  refine ⟨fun isPrefix proof => ?_, fun fewer => by omega⟩
  obtain rfl := isPrefix.eq_of_length equal
  have noPath : path = [] := by
    have empty := MerkleTree.consistencyProof_size sha256
      (MerkleTree.ofEntries old)
    rw [MerkleTree.size_ofEntries] at empty
    rw [← List.map_eq_nil_iff (f := Prod.snd), proof.2, consistencyProofHex,
      empty, List.map_nil]
  subst noPath
  exact accepts_nil_iff.mpr rfl

/-- Between lists of different lengths nothing is accepted but a path that ends
in what the old root hashes. -/
theorem not_accepts_of_not_endsInOld {old new : List (List UInt8)}
    {path : List (Bool × Str)} (different : old.length ≠ new.length)
    (free : NoCollision sha256 ((MerkleTree.ofEntries old).inputs sha256 ++
      (MerkleTree.ofEntries new).inputs sha256 ++
      consistencyInputs (rootHex new) path))
    (apart : ¬ EndsInOld old path) : ¬ Accepts old new path := by
  intro accepted
  by_cases noPath : path = []
  · subst noPath
    have treesFree := free.mono (List.subset_append_left ..)
    exact different (congrArg List.length (MerkleTree.ofEntries_root_injective
      treesFree (accepts_nil_iff.mp accepted)))
  · apply apart
    apply SpellsOld.endsInOld
    refine (accepts_iff_of_path noPath (free.mono ?_)).mp accepted
    intro input member
    rcases List.mem_append.mp member with inOld | inPath
    · exact List.mem_append_left _ (List.mem_append_left _ inOld)
    · exact List.mem_append_right _ inPath

/-- The fold never looks at the sizes.  Between lists of different lengths it
accepts no path but one that ends in what the old root hashes. -/
theorem consistencyHolds_iff {old new : List (List UInt8)}
    {path : List (Bool × Str)} (sizes : old.length ≤ new.length)
    (free : NoCollision sha256 ((MerkleTree.ofEntries old).inputs sha256 ++
      (MerkleTree.ofEntries new).inputs sha256 ++
      consistencyInputs (rootHex new) path)) :
    (Indifferent old new path → ConsistencyHolds old new path) ∧
      (¬ EndsInOld old path →
        (ConsistencyHolds old new path ↔ Indifferent old new path)) := by
  by_cases none : old = []
  · subst none
    have holds : ConsistencyHolds [] new path :=
      ⟨fun _ proof => absurd rfl proof.1, fun _ notPrefix =>
        absurd List.nil_prefix notPrefix⟩
    exact ⟨fun _ => holds, fun _ => iff_of_true holds (Or.inl rfl)⟩
  by_cases equal : old.length = new.length
  · have holds : ConsistencyHolds old new path :=
      consistencyHolds_of_length_eq equal
    exact ⟨fun _ => holds, fun _ => iff_of_true holds (Or.inr (Or.inl equal))⟩
  have holds_iff : ¬ EndsInOld old path → (ConsistencyHolds old new path ↔
      ¬ (old <+: new ∧ IsConsistencyProof old new path)) := by
    intro apart
    have rejected := not_accepts_of_not_endsInOld equal free apart
    rw [ConsistencyHolds, not_and]
    refine ⟨fun holds isPrefix proof => ?_, fun noProof => ⟨?_, ?_⟩⟩
    · exact rejected (holds.1 isPrefix proof)
    · exact fun isPrefix proof => absurd proof (noProof isPrefix)
    · exact fun _ _ => rejected
  constructor
  · rintro (empty | same | ⟨noProof, apart⟩)
    · exact absurd empty none
    · exact absurd same equal
    · exact (holds_iff apart).mpr noProof
  · intro apart
    rw [holds_iff apart, Indifferent, or_iff_right none, or_iff_right equal,
      and_iff_left apart]

end

/-! ## Two entries -/

def entryA : List UInt8 := [0x61]

def entryB : List UInt8 := [0x62]

def digestOf (value : Nat) : Vector UInt8 32 :=
  Vector.ofFn fun index => UInt8.ofNat (value / 256 ^ (31 - index.val))

def leafA : Nat :=
  0x022a6979e6dab7aa5ae4c3e5e45f7e977112a7e63593820dbec1ec738a24f93c

def leafB : Nat :=
  0x57eb35615d47f34ec714cacdf5fd74608a5e8e102724e80b24b287c0c27b6a31

def rootAB : Nat :=
  0xb137985ff484fb600db93107c77b0365c80d78f5b429ded0fd97361d077999eb

/-- What SHA-256 answers on the inputs below. -/
def recorded : List (List UInt8 × Nat) :=
  [(0x00 :: entryA, leafA), (0x00 :: entryB, leafB),
    (0x01 :: ((digestOf leafA).toList ++ (digestOf leafB).toList), rootAB),
    ((digestOf leafA).toList ++ (digestOf leafB).toList,
      0x000bf4d0f316cb2e6ca4dd4c2dfbf875787b8126d4a78732d984482f98fa4cc9),
    ((digestOf leafB).toList ++ (digestOf rootAB).toList,
      0x5e6ad3a19b6f1e532ba1cd40f468ef32850bb9ae7adaa204b2b5cb951452a770),
    ((digestOf rootAB).toList ++ (digestOf leafB).toList,
      0x2f6ffbd3baaebf93de6179a36dfb75974fb44861b79b77aa931c04a6e29fb440),
    (List.replicate 32 0x00 ++ (digestOf rootAB).toList,
      0xf4717d8b24fa47ad2c240094a465788434f37a830e358828332f9f3f2f4beae1)]

instance : Sha256 where
  sha256 data := digestOf ((recorded.lookup data).getD 0)

theorem pair_not_reconstructed :
    reconstructRootRfc9162 (leafHex entryA) 0 2
        (auditPathHex 0 [entryA, entryB]) ≠
      .ok (rootHex [entryA, entryB]) := by
  rw [auditPathHex, rootHex, MerkleTree.ofEntries_pair]
  decide

theorem reconstruct_eq_rootHex_iff_pair :
    [entryA, entryB][0]? = some entryA ∧
      (reconstructRootRfc9162 (leafHex entryA) (0 : Nat)
          [entryA, entryB].length (auditPathHex 0 [entryA, entryB]) =
          .ok (rootHex [entryA, entryB]) ↔
        [entryA, entryB].length = 1) := by
  refine ⟨rfl, reconstruct_eq_rootHex_iff rfl ?_⟩
  rw [auditPathHex, MerkleTree.ofEntries_pair]
  decide

theorem singleLeaf_sound :
    InclusionSound (leafHex entryA) 0 1 [] :=
  inclusionSound_iff.1
    (Or.inr ⟨rfl, rfl, entryA, fromhex_leafHex entryA⟩)

theorem emptyPath_not_sound :
    ¬ InclusionSound (leafHex entryA) 0 2 [] := by
  intro sound
  have verified : verifyInclusionProof (leafHex entryA) 0 2 []
      (leafHex entryA) = true := by
    decide
  have length := (sound _ verified).2
  have longer := @MerkleTree.auditLength_pos 0 2 (Nat.le_refl 2)
  exact longer.ne length

/-- An entry of 63 bytes that ends in the new root. -/
def forgedEntry : List UInt8 :=
  List.replicate 31 0x00 ++ (digestOf rootAB).toList

def zeroSibling : List (Bool × Str) :=
  [(false, toHex (List.replicate 32 0x00))]

/-- The proof of a prefix is rejected with either flag, and a list that is not
a prefix is accepted. -/
theorem pair_not_consistent :
    ¬ ConsistencyHolds [entryA] [entryA, entryB] [(true, leafHex entryB)] ∧
      ¬ ConsistencyHolds [entryA] [entryA, entryB] [(false, leafHex entryB)] ∧
      ¬ ConsistencyHolds [forgedEntry] [entryA, entryB] zeroSibling := by
  have proof : consistencyProofHex 1 [entryA, entryB] = [leafHex entryB] := by
    rw [consistencyProofHex, MerkleTree.ofEntries_pair]
    rfl
  have isPrefix : [entryA] <+: [entryA, entryB] := ⟨[entryB], rfl⟩
  have rejected : ∀ isLeft,
      ¬ Accepts [entryA] [entryA, entryB] [(isLeft, leafHex entryB)] := by
    intro isLeft
    rw [Accepts, rootHex, rootHex, MerkleTree.ofEntries_pair,
      MerkleTree.ofEntries]
    cases isLeft <;> decide
  have forged : Accepts [forgedEntry] [entryA, entryB] zeroSibling := by
    rw [Accepts, rootHex, rootHex, MerkleTree.ofEntries_pair,
      MerkleTree.ofEntries]
    decide
  refine ⟨fun holds => ?_, fun holds => ?_, fun holds => ?_⟩
  · exact rejected true (holds.1 isPrefix ⟨List.cons_ne_nil _ _, proof.symm⟩)
  · exact rejected false (holds.1 isPrefix ⟨List.cons_ne_nil _ _, proof.symm⟩)
  · exact holds.2 (by decide) (by decide) forged

/-- A prefix with its proof, which does not end in what the old root hashes. -/
theorem consistencyHolds_iff_pair :
    ¬ EndsInOld [entryA] [(true, leafHex entryB)] ∧
      ¬ ConsistencyHolds [entryA] [entryA, entryB] [(true, leafHex entryB)] := by
  have proof : consistencyProofHex 1 [entryA, entryB] = [leafHex entryB] := by
    rw [consistencyProofHex, MerkleTree.ofEntries_pair]
    rfl
  have apart : ¬ EndsInOld [entryA] [(true, leafHex entryB)] := by
    rintro ⟨step, last, sibling, below, isHex, width, same⟩
    obtain rfl : (true, leafHex entryB) = step := Option.some.inj last
    obtain rfl := Except.ok.inj ((fromhex_leafHex entryB).symm.trans isHex)
    have lengths := congrArg List.length same
    rw [climbInput_length, width, Vector.length_toList, MerkleTree.ofEntries]
      at lengths
    exact absurd lengths (by decide)
  refine ⟨apart, fun holds => ?_⟩
  have law := @consistencyHolds_iff _ [entryA] [entryA, entryB]
    [(true, leafHex entryB)] (by decide) (by
      rw [rootHex, MerkleTree.ofEntries_pair, MerkleTree.ofEntries]
      decide)
  rcases (law.2 apart).mp holds with empty | same | ⟨noProof, -⟩
  · cases empty
  · cases same
  · exact noProof ⟨⟨[entryB], rfl⟩, List.cons_ne_nil _ _, proof.symm⟩

end TrustLayer.Rfc9162
