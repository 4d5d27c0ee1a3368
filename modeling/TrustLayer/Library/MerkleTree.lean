import Mathlib.Data.List.Basic
import Mathlib.Algebra.Group.Nat.Defs

/-!
# Merkle trees over byte strings

The tree of a list splits it at the largest power of two below its length.
The hash takes a prefix that tells a leaf from a node.  A statement about
collisions names the inputs that were hashed, since no hash to a fixed width
is free of collisions on all inputs.
-/

namespace TrustLayer.Library

/-- The hash tells these inputs apart. -/
def NoCollision {α β : Type} (hash : α → β) (inputs : List α) : Prop :=
  ∀ first ∈ inputs, ∀ second ∈ inputs, hash first = hash second → first = second

instance {α β : Type} [DecidableEq α] [DecidableEq β] (hash : α → β)
    (inputs : List α) : Decidable (NoCollision hash inputs) :=
  inferInstanceAs (Decidable (∀ first ∈ inputs, ∀ second ∈ inputs,
    hash first = hash second → first = second))

theorem NoCollision.mono {α β : Type} {hash : α → β} {fewer more : List α}
    (free : NoCollision hash more) (included : fewer ⊆ more) :
    NoCollision hash fewer :=
  fun first firstMember second secondMember =>
    free first (included firstMember) second (included secondMember)

inductive MerkleTree where
  | empty
  | leaf (entry : List UInt8)
  | node (left right : MerkleTree)

namespace MerkleTree

/-! ## The tree of a list -/

/-- The largest power of two below a size of at least two. -/
def splitSize (size : Nat) : Nat :=
  2 ^ (size - 1).log2

theorem splitSize_pos (size : Nat) : 0 < splitSize size :=
  Nat.two_pow_pos _

theorem splitSize_lt {size : Nat} (several : 2 ≤ size) :
    splitSize size < size := by
  have := Nat.log2_self_le (show size - 1 ≠ 0 by omega)
  unfold splitSize
  omega

def ofEntries : List (List UInt8) → MerkleTree
  | [] => .empty
  | [entry] => .leaf entry
  | first :: second :: rest =>
      let entries := first :: second :: rest
      .node (ofEntries (entries.take (splitSize entries.length)))
        (ofEntries (entries.drop (splitSize entries.length)))
termination_by entries => entries.length
decreasing_by
  · have := splitSize_lt (show 2 ≤ (first :: second :: rest).length by simp)
    simp only [List.length_take]
    omega
  · have := splitSize_pos (first :: second :: rest).length
    simp only [List.length_drop, List.length_cons] at this ⊢
    omega

theorem ofEntries_split {entries : List (List UInt8)}
    (several : 2 ≤ entries.length) :
    ofEntries entries =
      .node (ofEntries (entries.take (splitSize entries.length)))
        (ofEntries (entries.drop (splitSize entries.length))) := by
  match entries, several with
  | first :: second :: rest, _ => rw [ofEntries]

theorem ofEntries_pair (first second : List UInt8) :
    ofEntries [first, second] = .node (.leaf first) (.leaf second) := by
  rw [ofEntries_split (show 2 ≤ [first, second].length by simp)]
  change node (ofEntries [first]) (ofEntries [second]) = _
  rw [ofEntries, ofEntries]

def entries : MerkleTree → List (List UInt8)
  | .empty => []
  | .leaf entry => [entry]
  | .node left right => left.entries ++ right.entries

def size : MerkleTree → Nat
  | .empty => 0
  | .leaf _ => 1
  | .node left right => left.size + right.size

theorem entries_length (tree : MerkleTree) : tree.entries.length = tree.size := by
  induction tree with
  | empty => rfl
  | leaf entry => rfl
  | node left right leftInduction rightInduction =>
      rw [entries, List.length_append, leftInduction, rightInduction, size]

theorem entries_ofEntries (entries : List (List UInt8)) :
    (ofEntries entries).entries = entries := by
  induction entries using ofEntries.induct with
  | case1 => rw [ofEntries, MerkleTree.entries]
  | case2 entry => rw [ofEntries, MerkleTree.entries]
  | case3 first second rest entries leftInduction rightInduction =>
      rw [ofEntries, MerkleTree.entries, leftInduction, rightInduction]
      exact List.take_append_drop _ _

@[simp] theorem size_ofEntries (entries : List (List UInt8)) :
    (ofEntries entries).size = entries.length := by
  rw [← entries_length, entries_ofEntries]

/-! ## Roots -/

section

variable {width : Nat} (hash : List UInt8 → Vector UInt8 width)

/-- What the root of a tree is the hash of. -/
def rootInput : MerkleTree → List UInt8
  | .empty => []
  | .leaf entry => 0x00 :: entry
  | .node left right =>
      0x01 :: ((hash left.rootInput).toList ++ (hash right.rootInput).toList)

def root (tree : MerkleTree) : Vector UInt8 width :=
  hash (tree.rootInput hash)

/-- Every input hashed on the way to the root. -/
def inputs : MerkleTree → List (List UInt8)
  | .empty => [rootInput hash .empty]
  | .leaf entry => [rootInput hash (.leaf entry)]
  | .node left right =>
      rootInput hash (.node left right) :: (left.inputs ++ right.inputs)

theorem rootInput_mem_inputs (tree : MerkleTree) :
    tree.rootInput hash ∈ tree.inputs hash := by
  cases tree <;> simp [inputs]

theorem rootInput_node_length (left right : MerkleTree) :
    (rootInput hash (.node left right)).length = 2 * width + 1 := by
  simp only [rootInput, List.length_cons, List.length_append, Vector.length_toList]
  omega

end

section

variable {width : Nat} {hash : List UInt8 → Vector UInt8 width}

theorem root_injective {one other : MerkleTree}
    (free : NoCollision hash (one.inputs hash ++ other.inputs hash))
    (same : one.root hash = other.root hash) : one = other := by
  induction one generalizing other with
  | empty =>
      have sameInput := free _ (by simp [inputs]) _
        (List.mem_append_right _ (other.rootInput_mem_inputs hash)) same
      cases other <;> simp [rootInput] at sameInput ⊢
  | leaf entry =>
      have sameInput := free _ (by simp [inputs]) _
        (List.mem_append_right _ (other.rootInput_mem_inputs hash)) same
      cases other <;> simp [rootInput] at sameInput ⊢
      exact sameInput
  | node left right leftInduction rightInduction =>
      have sameInput := free _ (by simp [inputs]) _
        (List.mem_append_right _ (other.rootInput_mem_inputs hash)) same
      cases other with
      | empty => simp [rootInput] at sameInput
      | leaf entry => simp [rootInput] at sameInput
      | node otherLeft otherRight =>
          have leftPart : left.inputs hash ++ otherLeft.inputs hash ⊆
              (node left right).inputs hash ++
                (node otherLeft otherRight).inputs hash := by
            intro input
            simp only [inputs, List.mem_append, List.mem_cons]
            tauto
          have rightPart : right.inputs hash ++ otherRight.inputs hash ⊆
              (node left right).inputs hash ++
                (node otherLeft otherRight).inputs hash := by
            intro input
            simp only [inputs, List.mem_append, List.mem_cons]
            tauto
          have digests := List.append_inj (List.cons.inj sameInput).2 (by simp)
          rw [leftInduction (free.mono leftPart) (Vector.toList_inj.mp digests.1),
            rightInduction (free.mono rightPart) (Vector.toList_inj.mp digests.2)]

theorem ofEntries_root_injective {one other : List (List UInt8)}
    (free : NoCollision hash
      ((ofEntries one).inputs hash ++ (ofEntries other).inputs hash))
    (same : (ofEntries one).root hash = (ofEntries other).root hash) :
    one = other := by
  rw [← entries_ofEntries one, root_injective free same, entries_ofEntries]

end

/-! ## Audit paths and consistency proofs -/

section

variable {width : Nat} (hash : List UInt8 → Vector UInt8 width)

/-- The roots beside the way to an entry, from the entry up. -/
def auditPath : Nat → MerkleTree → List (Vector UInt8 width)
  | _, .empty => []
  | _, .leaf _ => []
  | index, .node left right =>
      if index < left.size then
        auditPath index left ++ [right.root hash]
      else auditPath (index - left.size) right ++ [left.root hash]

/-- `whole` says that the tree of the first `old` entries is known. -/
def subproof : (old : Nat) → (whole : Bool) → MerkleTree →
    List (Vector UInt8 width)
  | old, whole, .node left right =>
      if old = (node left right).size then
        if whole then [] else [(node left right).root hash]
      else if old ≤ left.size then
        subproof old whole left ++ [right.root hash]
      else subproof (old - left.size) false right ++ [left.root hash]
  | _, whole, tree => if whole then [] else [tree.root hash]

/-- That the tree extends the tree of its first `old` entries. -/
def consistencyProof (old : Nat) (tree : MerkleTree) :
    List (Vector UInt8 width) :=
  subproof hash old true tree

theorem consistencyProof_size (tree : MerkleTree) :
    consistencyProof hash tree.size tree = [] := by
  cases tree <;> simp [consistencyProof, subproof]

end

/-- The length of the audit path of an entry. -/
def auditLength (index size : Nat) : Nat :=
  if 2 ≤ size then
    if index < splitSize size then auditLength index (splitSize size) + 1
    else auditLength (index - splitSize size) (size - splitSize size) + 1
  else 0
termination_by size
decreasing_by
  · exact splitSize_lt ‹_›
  · have := splitSize_pos size
    omega

theorem auditLength_small {index size : Nat} (small : size < 2) :
    auditLength index size = 0 := by
  rw [auditLength, if_neg (Nat.not_le.mpr small)]

theorem auditLength_pos {index size : Nat} (several : 2 ≤ size) :
    0 < auditLength index size := by
  rw [auditLength, if_pos several]
  split <;> omega

/-- The index and the size determine how long an audit path is. -/
theorem auditPath_length {width : Nat} (hash : List UInt8 → Vector UInt8 width)
    (index : Nat) (entries : List (List UInt8)) :
    (auditPath hash index (ofEntries entries)).length =
      auditLength index entries.length := by
  induction entries using ofEntries.induct generalizing index with
  | case1 => rw [ofEntries, auditPath, auditLength_small (by simp)]; rfl
  | case2 entry => rw [ofEntries, auditPath, auditLength_small (by simp)]; rfl
  | case3 first second rest entries leftInduction rightInduction =>
      have several : 2 ≤ entries.length := by simp [entries]
      have split := splitSize_lt several
      rw [ofEntries_split several, auditPath, auditLength, if_pos several,
        size_ofEntries, List.length_take, Nat.min_eq_left (Nat.le_of_lt split)]
      split
      · rw [List.length_append, leftInduction, List.length_take,
          Nat.min_eq_left (Nat.le_of_lt split), List.length_singleton]
      · rw [List.length_append, rightInduction, List.length_drop,
          List.length_singleton]

end MerkleTree

/-! ## Climbing by siblings -/

section

variable {width : Nat} (hash : List UInt8 → Vector UInt8 width)

/-- What is hashed when a sibling is met; `isLeft` says that the climb comes
from the left. -/
def climbInput (current : List UInt8) (isLeft : Bool) (sibling : List UInt8) :
    List UInt8 :=
  if isLeft then current ++ sibling else sibling ++ current

/-- Where a climb by these siblings ends. -/
def climb : List UInt8 → List (Bool × List UInt8) → List UInt8
  | current, [] => current
  | current, (isLeft, sibling) :: path =>
      climb (hash (climbInput current isLeft sibling)).toList path

/-- Every input hashed in a climb. -/
def climbInputs : List UInt8 → List (Bool × List UInt8) → List (List UInt8)
  | _, [] => []
  | current, (isLeft, sibling) :: path =>
      climbInput current isLeft sibling ::
        climbInputs (hash (climbInput current isLeft sibling)).toList path

variable {hash}

theorem climbInputs_eq_nil_iff {current : List UInt8}
    {path : List (Bool × List UInt8)} :
    climbInputs hash current path = [] ↔ path = [] := by
  cases path <;> simp [climbInputs]

/-- A climb ends at the hash of its last input. -/
theorem climb_eq_last {current : List UInt8} {path : List (Bool × List UInt8)}
    {input : List UInt8}
    (last : (climbInputs hash current path).getLast? = some input) :
    climb hash current path = (hash input).toList := by
  induction path generalizing current with
  | nil => simp [climbInputs] at last
  | cons step path induction =>
      obtain ⟨isLeft, sibling⟩ := step
      rw [climb]
      rw [climbInputs, List.getLast?_cons] at last
      cases later : (climbInputs hash
          (hash (climbInput current isLeft sibling)).toList path).getLast? with
      | none =>
          rw [later] at last
          cases climbInputs_eq_nil_iff.mp (List.getLast?_eq_none_iff.mp later)
          rw [climb, ← Option.some.inj last]
          rfl
      | some found =>
          rw [later] at last
          cases last
          exact induction later

/-- A climb reaches the root of a tree by hashing what the root hashes. -/
theorem climb_eq_root_iff {current : List UInt8}
    {path : List (Bool × List UInt8)} {tree : MerkleTree}
    (free : NoCollision hash
      (tree.inputs hash ++ climbInputs hash current path))
    (steps : path ≠ []) :
    climb hash current path = (tree.root hash).toList ↔
      (climbInputs hash current path).getLast? =
        some (tree.rootInput hash) := by
  have hashed : climbInputs hash current path ≠ [] :=
    mt climbInputs_eq_nil_iff.mp steps
  have last := List.getLast?_eq_some_getLast hashed
  rw [climb_eq_last last, last, Vector.toList_inj, Option.some.injEq]
  constructor
  · intro same
    exact free _ (List.mem_append_right _ (List.getLast_mem hashed)) _
      (List.mem_append_left _ (tree.rootInput_mem_inputs hash)) same
  · intro same
    rw [same, MerkleTree.root]

theorem climb_append (current : List UInt8)
    (front behind : List (Bool × List UInt8)) :
    climb hash current (front ++ behind) =
      climb hash (climb hash current front) behind := by
  induction front generalizing current with
  | nil => rfl
  | cons step front induction => exact induction _

theorem climbInputs_append (current : List UInt8)
    (front behind : List (Bool × List UInt8)) :
    climbInputs hash current (front ++ behind) =
      climbInputs hash current front ++
        climbInputs hash (climb hash current front) behind := by
  induction front generalizing current with
  | nil => rfl
  | cons step front induction =>
      exact congrArg (List.cons _) (induction _)

theorem climbInput_length (current : List UInt8) (isLeft : Bool)
    (sibling : List UInt8) :
    (climbInput current isLeft sibling).length =
      current.length + sibling.length := by
  cases isLeft with
  | true => exact List.length_append
  | false => exact List.length_append.trans (Nat.add_comm _ _)

theorem climbInput_inj {one other sibling otherSibling : List UInt8}
    {isLeft : Bool} (sizes : sibling.length = otherSibling.length)
    (same : climbInput one isLeft sibling =
      climbInput other isLeft otherSibling) :
    one = other ∧ sibling = otherSibling := by
  cases isLeft with
  | true => exact List.append_inj' same sizes
  | false => exact (List.append_inj same sizes).symm

/-- Two climbs with the same directions to the same end start at the same
place and meet the same siblings. -/
theorem climb_inj {one other : List UInt8}
    {path otherPath : List (Bool × List UInt8)}
    (free : NoCollision hash
      (climbInputs hash one path ++ climbInputs hash other otherPath))
    (siblings : ∀ step ∈ path, step.2.length = width)
    (otherSiblings : ∀ step ∈ otherPath, step.2.length = width)
    (directions : path.map Prod.fst = otherPath.map Prod.fst)
    (same : climb hash one path = climb hash other otherPath) :
    one = other ∧ path = otherPath := by
  induction path generalizing one other otherPath with
  | nil =>
      cases otherPath with
      | nil => exact ⟨same, rfl⟩
      | cons step otherPath => cases directions
  | cons step path induction =>
      cases otherPath with
      | nil => cases directions
      | cons otherStep otherPath =>
          obtain ⟨isLeft, sibling⟩ := step
          obtain ⟨otherIsLeft, otherSibling⟩ := otherStep
          obtain ⟨rfl, later⟩ := List.cons.inj directions
          obtain ⟨size, sizes⟩ := List.forall_mem_cons.mp siblings
          obtain ⟨otherSize, otherSizes⟩ :=
            List.forall_mem_cons.mp otherSiblings
          have fewer : climbInputs hash
                (hash (climbInput one isLeft sibling)).toList path ++
              climbInputs hash
                (hash (climbInput other isLeft otherSibling)).toList otherPath ⊆
              climbInputs hash one ((isLeft, sibling) :: path) ++
                climbInputs hash other ((isLeft, otherSibling) :: otherPath) := by
            intro input
            simp only [climbInputs, List.mem_append, List.mem_cons]
            tauto
          obtain ⟨digests, rfl⟩ :=
            induction (free.mono fewer) sizes otherSizes later same
          have inputs := free _ (List.mem_append_left _ List.mem_cons_self) _
            (List.mem_append_right _ List.mem_cons_self)
            (Vector.toList_inj.mp digests)
          obtain ⟨rfl, rfl⟩ := climbInput_inj (size.trans otherSize.symm) inputs
          exact ⟨rfl, rfl⟩

/-- The last input of a climb is the last sibling, beside the hash's width. -/
theorem exists_climbInput_last {current sibling : List UInt8} {isLeft : Bool}
    {path : List (Bool × List UInt8)} (start : current.length = width)
    (last : path.getLast? = some (isLeft, sibling)) :
    ∃ below : List UInt8, below.length = width ∧
      (climbInputs hash current path).getLast? =
        some (climbInput below isLeft sibling) := by
  induction path generalizing current with
  | nil => cases last
  | cons step path induction =>
      obtain ⟨firstIsLeft, first⟩ := step
      rw [climbInputs, List.getLast?_cons]
      cases path with
      | nil =>
          cases last
          exact ⟨current, start, rfl⟩
      | cons next path =>
          rw [List.getLast?_cons_cons] at last
          obtain ⟨below, size, found⟩ := @induction
            (hash (climbInput current firstIsLeft first)).toList (by simp) last
          exact ⟨below, size, by rw [found]; rfl⟩

/-- Siblings of the hash's width make inputs of twice that width. -/
theorem climbInputs_length {current : List UInt8}
    {path : List (Bool × List UInt8)} (start : current.length = width)
    (siblings : ∀ step ∈ path, step.2.length = width) :
    ∀ input ∈ climbInputs hash current path, input.length = 2 * width := by
  induction path generalizing current with
  | nil => simp [climbInputs]
  | cons step path induction =>
      obtain ⟨isLeft, sibling⟩ := step
      have first : sibling.length = width := siblings _ List.mem_cons_self
      intro input member
      rcases List.mem_cons.mp member with rfl | later
      · rw [climbInput_length]
        omega
      · exact induction (by simp)
          (fun step stepMember => siblings step (List.mem_cons_of_mem _ stepMember))
          input later

end

end TrustLayer.Library
