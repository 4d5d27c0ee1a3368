import TrustLayer.Rfc9162

/-!
# Receipts of CCF ledgers

The leaf of a ledger has three parts and is hashed as 96 bytes, a node as 64.
The sizes that the reconstruction checks are all that keeps the two apart.
-/

namespace TrustLayer.Rfc9162.Ccf

open TrustLayer.Library

def hashOutputBytes : Nat := 32

def maxInternalEvidenceBytes : Nat := 1024

inductive ValueError where
  /-- `internal_transaction_hash must be 32 bytes` -/
  | internalTransactionHash
  /-- `internal_evidence must be 1-1024 bytes, got {length}` -/
  | internalEvidence (length : Nat)
  /-- `data_hash must be 32 bytes` -/
  | dataHash
  /-- `audit path siblings must be 32 bytes` -/
  | sibling
  deriving DecidableEq

/-- The arguments of the reconstruction. -/
structure Receipt where
  internalTransactionHash : List UInt8
  internalEvidence : List UInt8
  dataHash : List UInt8
  auditPath : List (Bool × List UInt8)
  deriving DecidableEq

section

variable [Sha256]

/-- The loop over the audit path. -/
def foldSiblings (h : List UInt8) :
    List (Bool × List UInt8) → Except ValueError (List UInt8)
  | [] => .ok h
  | (isLeft, sibling) :: auditPath =>
      if sibling.length ≠ hashOutputBytes then .error .sibling
      else if isLeft then foldSiblings (sha256 (h ++ sibling)).toList auditPath
      else foldSiblings (sha256 (sibling ++ h)).toList auditPath

/-- What the hash of the leaf is taken of. -/
def Receipt.leafInput (receipt : Receipt) : List UInt8 :=
  let evidenceDigest := (sha256 receipt.internalEvidence).toList
  receipt.internalTransactionHash ++ evidenceDigest ++ receipt.dataHash

def reconstructRootCcf (receipt : Receipt) :
    Except ValueError (List UInt8) :=
  if receipt.internalTransactionHash.length ≠ hashOutputBytes then
    .error .internalTransactionHash
  else if ¬ (1 ≤ receipt.internalEvidence.length ∧
      receipt.internalEvidence.length ≤ maxInternalEvidenceBytes) then
    .error (.internalEvidence receipt.internalEvidence.length)
  else if receipt.dataHash.length ≠ hashOutputBytes then .error .dataHash
  else foldSiblings (sha256 receipt.leafInput).toList receipt.auditPath

namespace Receipt

variable (receipt : Receipt)

/-- The left and right turns of the path, from the leaf up. -/
def directions : List Bool :=
  receipt.auditPath.map Prod.fst

/-- Every input the reconstruction hashes. -/
def inputs : List (List UInt8) :=
  receipt.internalEvidence :: receipt.leafInput ::
    climbInputs sha256 (sha256 receipt.leafInput).toList receipt.auditPath

/-- What the checks of the reconstruction let pass. -/
structure Sized : Prop where
  internalTransactionHash :
    receipt.internalTransactionHash.length = hashOutputBytes
  internalEvidence : 1 ≤ receipt.internalEvidence.length ∧
    receipt.internalEvidence.length ≤ maxInternalEvidenceBytes
  dataHash : receipt.dataHash.length = hashOutputBytes
  siblings : ∀ step ∈ receipt.auditPath, step.2.length = hashOutputBytes

end Receipt

/-! ## What is accepted -/

theorem foldSiblings_eq_ok_iff {h root : List UInt8}
    {auditPath : List (Bool × List UInt8)} :
    foldSiblings h auditPath = .ok root ↔
      (∀ step ∈ auditPath, step.2.length = hashOutputBytes) ∧
        climb sha256 h auditPath = root := by
  induction auditPath generalizing h with
  | nil => simp [foldSiblings, climb]
  | cons step auditPath induction =>
      obtain ⟨isLeft, sibling⟩ := step
      have branches : (if isLeft then
            foldSiblings (sha256 (h ++ sibling)).toList auditPath
          else foldSiblings (sha256 (sibling ++ h)).toList auditPath) =
          foldSiblings (sha256 (climbInput h isLeft sibling)).toList
            auditPath := by
        cases isLeft <;> rfl
      rw [foldSiblings, branches, List.forall_mem_cons, climb]
      by_cases size : sibling.length = hashOutputBytes
      · rw [if_neg (not_not.mpr size), induction]
        exact ⟨fun both => ⟨⟨size, both.1⟩, both.2⟩,
          fun both => ⟨both.1.2, both.2⟩⟩
      · rw [if_pos size]
        constructor
        · intro impossible
          cases impossible
        · rintro ⟨⟨same, -⟩, -⟩
          exact absurd same size

/-- A receipt passes when every part has its size; its root is where the climb
from the leaf ends. -/
theorem reconstructRootCcf_eq_ok_iff {receipt : Receipt} {root : List UInt8} :
    reconstructRootCcf receipt = .ok root ↔
      receipt.Sized ∧
        climb sha256 (sha256 receipt.leafInput).toList receipt.auditPath =
          root := by
  constructor
  · intro accepted
    unfold reconstructRootCcf at accepted
    split_ifs at accepted with transaction evidence data
    obtain ⟨siblings, reached⟩ := foldSiblings_eq_ok_iff.mp accepted
    exact ⟨⟨not_not.mp transaction, evidence, not_not.mp data, siblings⟩,
      reached⟩
  · rintro ⟨sized, reached⟩
    rw [reconstructRootCcf,
      if_neg (not_not.mpr sized.internalTransactionHash),
      if_neg (not_not.mpr sized.internalEvidence),
      if_neg (not_not.mpr sized.dataHash)]
    exact foldSiblings_eq_ok_iff.mpr ⟨sized.siblings, reached⟩

/-! ## Binding -/

section

variable {one other : Receipt}

theorem Receipt.Sized.leafInput_length (sized : one.Sized) :
    one.leafInput.length = 96 := by
  simp [Receipt.leafInput, sized.internalTransactionHash, sized.dataHash,
    hashOutputBytes]

/-- The parts of a leaf stand at fixed places of its input. -/
theorem leaf_eq_of_leafInput_eq (sized : one.Sized) (otherSized : other.Sized)
    (evidenceKept : sha256 one.internalEvidence = sha256 other.internalEvidence →
      one.internalEvidence = other.internalEvidence)
    (same : one.leafInput = other.leafInput) :
    one.internalTransactionHash = other.internalTransactionHash ∧
      one.internalEvidence = other.internalEvidence ∧
      one.dataHash = other.dataHash := by
  have dataSizes : one.dataHash.length = other.dataHash.length :=
    sized.dataHash.trans otherSized.dataHash.symm
  obtain ⟨front, data⟩ := List.append_inj' same dataSizes
  obtain ⟨transaction, digest⟩ := List.append_inj' front (by simp)
  exact ⟨transaction, evidenceKept (Vector.toList_inj.mp digest), data⟩

theorem eq_of_same_directions
    (free : NoCollision sha256 (one.inputs ++ other.inputs))
    (sized : one.Sized) (otherSized : other.Sized)
    (directions : one.directions = other.directions)
    (same : climb sha256 (sha256 one.leafInput).toList one.auditPath =
      climb sha256 (sha256 other.leafInput).toList other.auditPath) :
    one = other := by
  have climbed : climbInputs sha256 (sha256 one.leafInput).toList
        one.auditPath ++
      climbInputs sha256 (sha256 other.leafInput).toList other.auditPath ⊆
      one.inputs ++ other.inputs := by
    intro input
    simp only [Receipt.inputs, List.mem_append, List.mem_cons]
    tauto
  obtain ⟨leaves, paths⟩ := climb_inj (free.mono climbed) sized.siblings
    otherSized.siblings directions same
  have leafInputs : one.leafInput = other.leafInput :=
    free _ (by simp [Receipt.inputs]) _ (by simp [Receipt.inputs])
      (Vector.toList_inj.mp leaves)
  obtain ⟨transaction, evidence, data⟩ :=
    leaf_eq_of_leafInput_eq sized otherSized
      (free _ (by simp [Receipt.inputs]) _ (by simp [Receipt.inputs]))
      leafInputs
  obtain ⟨_, _, _, _⟩ := one
  obtain ⟨_, _, _, _⟩ := other
  cases transaction
  cases evidence
  cases data
  cases paths
  rfl

/-- Below the turns that two paths share, the longer one would end at the hash
of a leaf: 64 bytes would be 96. -/
theorem no_leaf_as_node
    (free : NoCollision sha256 (one.inputs ++ other.inputs))
    (sized : one.Sized) (otherSized : other.Sized)
    {front behind : List (Bool × List UInt8)} (deeper : front ≠ [])
    (path : one.auditPath = front ++ behind)
    (directions : behind.map Prod.fst = other.directions) :
    climb sha256 (sha256 one.leafInput).toList one.auditPath ≠
      climb sha256 (sha256 other.leafInput).toList other.auditPath := by
  intro same
  rw [path, climb_append] at same
  have siblings := sized.siblings
  rw [path] at siblings
  have climbed : climbInputs sha256
        (climb sha256 (sha256 one.leafInput).toList front) behind ++
      climbInputs sha256 (sha256 other.leafInput).toList other.auditPath ⊆
      one.inputs ++ other.inputs := by
    intro input
    simp only [Receipt.inputs, path, climbInputs_append, List.mem_append,
      List.mem_cons]
    tauto
  obtain ⟨reached, -⟩ := climb_inj (free.mono climbed)
    (fun step member => siblings step (List.mem_append_right _ member))
    otherSized.siblings directions same
  have hashed : climbInputs sha256 (sha256 one.leafInput).toList front ≠ [] :=
    mt climbInputs_eq_nil_iff.mp deeper
  have last := List.getLast_mem hashed
  rw [climb_eq_last (List.getLast?_eq_some_getLast hashed)] at reached
  have met := free _
    (List.mem_append_left _ (show _ ∈ one.inputs by
      simp only [Receipt.inputs, path, climbInputs_append, List.mem_cons,
        List.mem_append]
      exact .inr (.inr (.inl last))))
    other.leafInput (by simp [Receipt.inputs]) (Vector.toList_inj.mp reached)
  have node := climbInputs_length (Vector.length_toList ..)
    (fun step member => siblings step (List.mem_append_left _ member)) _ last
  rw [met, otherSized.leafInput_length] at node
  exact absurd node (by decide)

/-- A root binds the leaf and the siblings along given turns, and no path that
is longer by turns at its leaf end has the same root. -/
theorem reconstructRootCcf_binds {root : List UInt8}
    (free : NoCollision sha256 (one.inputs ++ other.inputs))
    (accepted : reconstructRootCcf one = .ok root)
    (otherAccepted : reconstructRootCcf other = .ok root) :
    (one.directions = other.directions → one = other) ∧
      ¬ (other.directions <:+ one.directions ∧
        other.directions ≠ one.directions) := by
  obtain ⟨sized, reached⟩ := reconstructRootCcf_eq_ok_iff.mp accepted
  obtain ⟨otherSized, otherReached⟩ :=
    reconstructRootCcf_eq_ok_iff.mp otherAccepted
  have same := reached.trans otherReached.symm
  refine ⟨fun directions =>
    eq_of_same_directions free sized otherSized directions same, ?_⟩
  rintro ⟨⟨turns, suffix⟩, shorter⟩
  obtain ⟨front, behind, path, fronts, behinds⟩ :=
    List.map_eq_append_iff.mp suffix.symm
  have deeper : front ≠ [] := by
    rintro rfl
    rw [← fronts] at suffix
    exact shorter suffix
  exact no_leaf_as_node free sized otherSized deeper path behinds same

end

end

/-! ## Two receipts of a ledger -/

def evidenceDigests : Nat × Nat :=
  (0x4bf5122f344554c53bde2ebb8cd2b7e3d1600ad631c385a5d7cce23c7785459a,
    0xdbc1b4c900ffe48d575b5da5c638040125f65db0fe3e24494b76ea986457d986)

def leafDigests : Nat × Nat :=
  (0x3571310ba68208533ca3798c8c6f8c913b86754e5db618ba5d9e6eef69057e7e,
    0x1eb2dfb2d72c8e58ce45197ab8628e4ccf704d42590c0a692ce1fb8071ffe549)

def rootDigest : Nat :=
  0xf2ebafcd81c3864952e37e3c6bda0364768518bf22a5771a4d89a8a1c5778f30

def firstReceipt : Receipt :=
  { internalTransactionHash := List.replicate 32 0x11
    internalEvidence := [0x01]
    dataHash := List.replicate 32 0x22
    auditPath := [(true, (digestOf leafDigests.2).toList)] }

def secondReceipt : Receipt :=
  { internalTransactionHash := List.replicate 32 0x11
    internalEvidence := [0x02]
    dataHash := List.replicate 32 0x22
    auditPath := [(false, (digestOf leafDigests.1).toList)] }

def ledgerLeaf (evidenceDigest : Nat) : List UInt8 :=
  List.replicate 32 0x11 ++ (digestOf evidenceDigest).toList ++
    List.replicate 32 0x22

/-- What SHA-256 answers on the inputs of the two receipts. -/
@[reducible] def answers : Sha256 where
  sha256 data :=
    digestOf (([([0x01], evidenceDigests.1), ([0x02], evidenceDigests.2),
      (ledgerLeaf evidenceDigests.1, leafDigests.1),
      (ledgerLeaf evidenceDigests.2, leafDigests.2),
      ((digestOf leafDigests.1).toList ++ (digestOf leafDigests.2).toList,
        rootDigest)].lookup data).getD 0)

theorem reconstructRootCcf_binds_ledger :
    let := answers
    reconstructRootCcf firstReceipt = .ok (digestOf rootDigest).toList ∧
      reconstructRootCcf secondReceipt = .ok (digestOf rootDigest).toList ∧
      (firstReceipt.directions = secondReceipt.directions →
          firstReceipt = secondReceipt) ∧
        ¬ (secondReceipt.directions <:+ firstReceipt.directions ∧
          secondReceipt.directions ≠ firstReceipt.directions) := by
  let := answers
  have accepted :
      reconstructRootCcf firstReceipt = .ok (digestOf rootDigest).toList := by
    decide
  have otherAccepted :
      reconstructRootCcf secondReceipt = .ok (digestOf rootDigest).toList := by
    decide
  exact ⟨accepted, otherAccepted,
    reconstructRootCcf_binds (by decide) accepted otherAccepted⟩

end TrustLayer.Rfc9162.Ccf
