import TrustLayer.Library.Encoding
import TrustLayer.Library.HashChain

/-!
# The BLAKE3 chain

An append-only chain of text payloads.  `verify` recomputes every stored hash
from the entry's own fields; it never compares an entry with its neighbour.
-/

namespace TrustLayer.TlChain

open TrustLayer.Library

/-- The hash function, third-party code: 32 bytes for any input. -/
class Blake3 where
  hash : List UInt8 → Vector UInt8 32

/-- Genesis `prev_hash`: 64 hex zeros. -/
def genesisPrevHash : Str := List.replicate 64 '0'

structure ChainEntry where
  sequence : UInt64
  payload : Str
  blake3Hash : Str
  prevHash : Str
  createdAtMs : Int
  deriving DecidableEq

inductive ChainError where
  | hashMismatch (sequence : UInt64)
  | invalidGenesis (sequence : UInt64)
  | brokenChain (sequence : UInt64)
  deriving DecidableEq

structure Chain where
  entries : List ChainEntry
  deriving DecidableEq

/-- What `compute_hash` feeds to the hasher. -/
def hashInput (sequence : UInt64) (prevHash payload : Str) : List UInt8 :=
  beBytes sequence ++ utf8Bytes prevHash ++ utf8Bytes payload

section

variable [Blake3]

def computeHash (sequence : UInt64) (prevHash payload : Str) : Str :=
  toHex (Blake3.hash (hashInput sequence prevHash payload)).toList

namespace Chain

def new : Chain := { entries := [] }

/-- The stored hash of the last entry, or the genesis value. -/
def root (chain : Chain) : Str :=
  rootFrom ChainEntry.blake3Hash genesisPrevHash chain.entries

/-- The entry that `append_with_timestamp` pushes. -/
def nextEntry (index : Nat) (prevHash payload : Str) (nowMs : Int) :
    ChainEntry :=
  { sequence := UInt64.ofNat index
    payload
    blake3Hash := computeHash (UInt64.ofNat index) prevHash payload
    prevHash
    createdAtMs := nowMs }

def appendWithTimestamp (chain : Chain) (payload : Str) (nowMs : Int) :
    Chain :=
  { entries :=
      chain.entries ++
        [nextEntry chain.entries.length chain.root payload nowMs] }

def append (chain : Chain) (payload : Str) : Chain :=
  chain.appendWithTimestamp payload 0

/-- The loop of `verify` from an index on. -/
def verifyFrom : (index : Nat) → List ChainEntry → Except ChainError Unit
  | _, [] => .ok ()
  | index, entry :: entries =>
      if entry.sequence ≠ UInt64.ofNat index then
        .error (.invalidGenesis entry.sequence)
      else if entry.sequence = 0 ∧ entry.prevHash ≠ genesisPrevHash then
        .error (.invalidGenesis entry.sequence)
      else if entry.sequence ≠ 0 ∧ entry.prevHash = genesisPrevHash then
        .error (.brokenChain entry.sequence)
      else if computeHash entry.sequence entry.prevHash entry.payload ≠
          entry.blake3Hash then
        .error (.hashMismatch entry.sequence)
      else verifyFrom (index + 1) entries

def verify (chain : Chain) : Except ChainError Unit :=
  verifyFrom 0 chain.entries

/-! ## Linkage -/

omit [Blake3] in
/-- Every entry stores the stored hash of the entry before it. -/
def Linked (chain : Chain) : Prop :=
  LinkedFrom ChainEntry.prevHash ChainEntry.blake3Hash genesisPrevHash
    chain.entries

/-- What `append_with_timestamp` pushes for a list of payloads and times. -/
def entriesFrom : (index : Nat) → (prevHash : Str) → List (Str × Int) →
    List ChainEntry
  | _, _, [] => []
  | index, prevHash, (payload, nowMs) :: items =>
      let entry := nextEntry index prevHash payload nowMs
      entry :: entriesFrom (index + 1) entry.blake3Hash items

/-- Append payloads one after the other. -/
def appendAll (chain : Chain) (items : List (Str × Int)) : Chain :=
  items.foldl (fun chain item => chain.appendWithTimestamp item.1 item.2) chain

theorem root_append (chain : Chain) (payload : Str) (nowMs : Int) :
    (chain.appendWithTimestamp payload nowMs).root =
      (nextEntry chain.entries.length chain.root payload nowMs).blake3Hash := by
  simp [root, appendWithTimestamp, rootFrom]

theorem appendAll_entries (chain : Chain) (items : List (Str × Int)) :
    (chain.appendAll items).entries =
      chain.entries ++ entriesFrom chain.entries.length chain.root items := by
  induction items generalizing chain with
  | nil => simp [appendAll, entriesFrom]
  | cons item items induction =>
      have step := induction (chain.appendWithTimestamp item.1 item.2)
      rw [root_append] at step
      rw [appendAll, List.foldl_cons]
      refine step.trans ?_
      simp [appendWithTimestamp, entriesFrom]

omit [Blake3] in
/-- The payload and creation time of an entry. -/
def itemOf (entry : ChainEntry) : Str × Int :=
  (entry.payload, entry.createdAtMs)

/-- The chain is the one `append_with_timestamp` builds from its payloads and
creation times. -/
def Appended (chain : Chain) : Prop :=
  chain = new.appendAll (chain.entries.map itemOf)

theorem verifyFrom_cons {index : Nat} {entry : ChainEntry}
    {entries : List ChainEntry} :
    verifyFrom index (entry :: entries) = .ok () ↔
      entry.sequence = UInt64.ofNat index ∧
      (entry.sequence = 0 ↔ entry.prevHash = genesisPrevHash) ∧
      entry.blake3Hash =
        computeHash entry.sequence entry.prevHash entry.payload ∧
      verifyFrom (index + 1) entries = .ok () := by
  rw [verifyFrom]
  split_ifs <;> grind

/-- What `verify` checks of every entry: its stored hash. -/
theorem sealed_of_verifyFrom {index : Nat} {entries : List ChainEntry}
    (verified : verifyFrom index entries = .ok ()) :
    ∀ entry ∈ entries, entry.blake3Hash =
      computeHash entry.sequence entry.prevHash entry.payload := by
  induction entries generalizing index with
  | nil => simp
  | cons entry entries induction =>
      obtain ⟨-, -, stored, later⟩ := verifyFrom_cons.mp verified
      exact List.forall_mem_cons.mpr ⟨stored, induction later⟩

/-- A linked list that passes `verify` is what appending builds. -/
theorem entriesFrom_of_linked {index : Nat} {prevHash : Str}
    {entries : List ChainEntry}
    (verified : verifyFrom index entries = .ok ())
    (linked : LinkedFrom ChainEntry.prevHash ChainEntry.blake3Hash prevHash
      entries) :
    entries = entriesFrom index prevHash (entries.map itemOf) := by
  induction entries generalizing index prevHash with
  | nil => rfl
  | cons entry entries induction =>
      obtain ⟨sequence, -, stored, later⟩ := verifyFrom_cons.mp verified
      obtain ⟨samePrevious, linked⟩ := linked
      have same : entry =
          nextEntry index prevHash entry.payload entry.createdAtMs := by
        cases entry
        simp only [nextEntry, ChainEntry.mk.injEq, true_and] at *
        subst sequence samePrevious
        exact ⟨rfl, stored, rfl, trivial⟩
      rw [List.map_cons, entriesFrom]
      simp only [itemOf, ← same]
      exact congrArg _ (induction later linked)

theorem linked_entriesFrom (index : Nat) (prevHash : Str)
    (items : List (Str × Int)) :
    LinkedFrom ChainEntry.prevHash ChainEntry.blake3Hash prevHash
      (entriesFrom index prevHash items) := by
  induction items generalizing index prevHash with
  | nil => trivial
  | cons item items induction => exact ⟨rfl, induction _ _⟩

theorem new_appendAll_entries (items : List (Str × Int)) :
    (new.appendAll items).entries = entriesFrom 0 genesisPrevHash items := by
  simpa [new, root] using appendAll_entries new items

theorem appended_iff_linked {chain : Chain} (verified : chain.verify = .ok ()) :
    chain.Appended ↔ chain.Linked := by
  constructor
  · intro appended
    rw [Linked, appended, new_appendAll_entries]
    exact linked_entriesFrom _ _ _
  · intro linked
    have same := entriesFrom_of_linked verified linked
    rw [← new_appendAll_entries] at same
    exact congrArg Chain.mk same

/-! ## Tamper evidence -/

/-- The hash function tells apart the encoded inputs of these entries. -/
def HashCollisionFree (entries : List ChainEntry) : Prop :=
  ∀ entry ∈ entries, ∀ other ∈ entries,
    Blake3.hash (hashInput entry.sequence entry.prevHash entry.payload) =
        Blake3.hash (hashInput other.sequence other.prevHash other.payload) →
      hashInput entry.sequence entry.prevHash entry.payload =
        hashInput other.sequence other.prevHash other.payload

omit [Blake3] in
/-- 64 ASCII characters. -/
def IsDigestText (text : Str) : Prop :=
  IsAscii text ∧ text.length = 64

omit [Blake3] in
theorem isDigestText_genesis : IsDigestText genesisPrevHash := by
  refine ⟨fun char member => ?_, List.length_replicate⟩
  rw [List.eq_of_mem_replicate member]
  decide

theorem isDigestText_computeHash (sequence : UInt64) (prevHash payload : Str) :
    IsDigestText (computeHash sequence prevHash payload) :=
  ⟨toHex_ascii _, by simp [computeHash, toHex_length]⟩

omit [Blake3] in
/-- The encoding is unambiguous once the previous hash has its width. -/
theorem hashInput_inj {sequence otherSequence : UInt64}
    {prevHash otherPrevHash payload otherPayload : Str}
    (width : IsDigestText prevHash) (otherWidth : IsDigestText otherPrevHash)
    (same : hashInput sequence prevHash payload =
      hashInput otherSequence otherPrevHash otherPayload) :
    sequence = otherSequence ∧ prevHash = otherPrevHash ∧
      payload = otherPayload := by
  have sameWidth :
      (beBytes sequence ++ utf8Bytes prevHash).length =
        (beBytes otherSequence ++ utf8Bytes otherPrevHash).length := by
    simp [utf8Bytes_length_of_ascii width.1, width.2,
      utf8Bytes_length_of_ascii otherWidth.1, otherWidth.2]
  obtain ⟨front, samePayload⟩ := List.append_inj same sameWidth
  obtain ⟨sameSequence, samePrevious⟩ := List.append_inj front (by simp)
  exact ⟨beBytes_injective sameSequence, utf8Bytes_injective samePrevious,
    utf8Bytes_injective samePayload⟩

theorem computeHash_eq_iff {sequence otherSequence : UInt64}
    {prevHash otherPrevHash payload otherPayload : Str} :
    computeHash sequence prevHash payload =
        computeHash otherSequence otherPrevHash otherPayload ↔
      Blake3.hash (hashInput sequence prevHash payload) =
        Blake3.hash (hashInput otherSequence otherPrevHash otherPayload) := by
  rw [computeHash, computeHash, toHex_injective.eq_iff, Vector.toList_inj]

/-- Linked entries of any shape that store a hash of their own fields keep
their payloads, once the hash tells their encoded inputs apart. -/
theorem payloads_eq_of_linkedFrom {ε : Type} {sequence : ε → UInt64}
    {prevHash payload stored : ε → Str} {first second : List ε}
    (sealedAll : ∀ entry ∈ first ++ second, stored entry =
      computeHash (sequence entry) (prevHash entry) (payload entry))
    (firstLinked : LinkedFrom prevHash stored genesisPrevHash first)
    (secondLinked : LinkedFrom prevHash stored genesisPrevHash second)
    (sameLength : first.length = second.length)
    (sameRoot : rootFrom stored genesisPrevHash first =
      rootFrom stored genesisPrevHash second)
    (free : ∀ entry ∈ first ++ second, ∀ other ∈ first ++ second,
      Blake3.hash (hashInput (sequence entry) (prevHash entry) (payload entry)) =
          Blake3.hash
            (hashInput (sequence other) (prevHash other) (payload other)) →
        hashInput (sequence entry) (prevHash entry) (payload entry) =
          hashInput (sequence other) (prevHash other) (payload other)) :
    first.map payload = second.map payload := by
  let link (prevHash : Str) (item : UInt64 × Str) : Str :=
    computeHash item.1 prevHash item.2
  let item (entry : ε) : UInt64 × Str := (sequence entry, payload entry)
  have digests : ∀ entry ∈ first ++ second, IsDigestText (stored entry) := by
    intro entry member
    rw [sealedAll entry member]
    exact isDigestText_computeHash _ _ _
  have width : ∀ entry ∈ first ++ second, IsDigestText (prevHash entry) := by
    intro entry member
    rcases List.mem_append.mp member with inFirst | inSecond
    · exact firstLinked.forall_previous isDigestText_genesis
        (fun found inFirst => digests found (List.mem_append_left _ inFirst))
        entry inFirst
    · exact secondLinked.forall_previous isDigestText_genesis
        (fun found inSecond => digests found (List.mem_append_right _ inSecond))
        entry inSecond
  have linkFree : CollisionFree link prevHash item (first ++ second) := by
    intro entry member other otherMember same
    have sameInput :=
      free entry member other otherMember (computeHash_eq_iff.mp same)
    obtain ⟨sameSequence, samePrevious, samePayload⟩ :=
      hashInput_inj (width entry member) (width other otherMember) sameInput
    exact ⟨samePrevious, Prod.ext sameSequence samePayload⟩
  have sealedLink : ∀ entry ∈ first ++ second,
      Sealed link prevHash stored item entry := sealedAll
  have unique :=
    firstLinked.unique secondLinked sealedLink linkFree sameLength sameRoot
  have payloads := congrArg (List.map Prod.snd) unique.2
  simpa [item, Function.comp_def] using payloads

/-- Verified and linked chains of one length and one root store the same
payloads. -/
theorem payloads_eq_of_linked {first second : Chain}
    (firstVerified : first.verify = .ok ())
    (secondVerified : second.verify = .ok ())
    (firstLinked : first.Linked) (secondLinked : second.Linked)
    (sameLength : first.entries.length = second.entries.length)
    (sameRoot : first.root = second.root)
    (free : HashCollisionFree (first.entries ++ second.entries)) :
    first.entries.map ChainEntry.payload =
      second.entries.map ChainEntry.payload := by
  have sealedAll : ∀ entry ∈ first.entries ++ second.entries,
      entry.blake3Hash =
        computeHash entry.sequence entry.prevHash entry.payload := by
    intro entry member
    rcases List.mem_append.mp member with inFirst | inSecond
    · exact sealed_of_verifyFrom firstVerified entry inFirst
    · exact sealed_of_verifyFrom secondVerified entry inSecond
  exact payloads_eq_of_linkedFrom sealedAll firstLinked secondLinked sameLength
    sameRoot free

/-- Two verified chains of one length and one root are equal and linked
exactly when both are what appending builds and their times agree. -/
theorem verify_tamperEvident_iff (first second : Chain)
    (firstVerified : first.verify = .ok ())
    (secondVerified : second.verify = .ok ())
    (sameLength : first.entries.length = second.entries.length)
    (sameRoot : first.root = second.root)
    (free : HashCollisionFree (first.entries ++ second.entries)) :
    (first.entries = second.entries ∧ first.Linked ∧ second.Linked) ↔
      (first.Appended ∧ second.Appended ∧
        first.entries.map ChainEntry.createdAtMs =
          second.entries.map ChainEntry.createdAtMs) := by
  rw [appended_iff_linked firstVerified, appended_iff_linked secondVerified]
  constructor
  · rintro ⟨sameEntries, firstLinked, secondLinked⟩
    exact ⟨firstLinked, secondLinked, by rw [sameEntries]⟩
  · rintro ⟨firstLinked, secondLinked, sameTimes⟩
    have samePayloads := payloads_eq_of_linked firstVerified secondVerified
      firstLinked secondLinked sameLength sameRoot free
    have sameItems :
        first.entries.map itemOf = second.entries.map itemOf := by
      have zipped : ∀ entries : List ChainEntry, entries.map itemOf =
          (entries.map ChainEntry.payload).zip
            (entries.map ChainEntry.createdAtMs) := by
        intro entries
        rw [List.zip_map']
        rfl
      rw [zipped, zipped, samePayloads, sameTimes]
    refine ⟨?_, firstLinked, secondLinked⟩
    rw [entriesFrom_of_linked firstVerified firstLinked,
      entriesFrom_of_linked secondVerified secondLinked, sameItems]

/-- The property for every pair of chains. -/
def TamperEvident : Prop :=
  ∀ first second : Chain, first.verify = .ok () → second.verify = .ok () →
    first.entries.length = second.entries.length → first.root = second.root →
    HashCollisionFree (first.entries ++ second.entries) →
      first.entries = second.entries ∧ first.Linked ∧ second.Linked

end Chain

end

namespace Chain

/-- The stored hash of a first entry with payload `a`. -/
def hashOfA : Str :=
  ("ec7bcf6eab5fb28ad62bc2d03daf2b44" ++
    "610fb125494e6891b9d1b3c9dce31b4d").toList

/-- The stored hash of a first entry with payload `x`. -/
def hashOfX : Str :=
  ("7524414b7e8468c850b0cc20027276dd" ++
    "67b612aa307999091b7cf8821b5575ae").toList

/-- The stored hash of a second entry with payload `b` after `a`. -/
def hashOfB : Str :=
  ("29feee0f99cd741248ed59fad31ccfb8" ++
    "6151c8a11bc621add7e16f62841510c2").toList

/-- BLAKE3 on the three inputs that occur below. -/
@[reducible] def recordedBlake3 : Blake3 where
  hash input :=
    if input = hashInput 0 genesisPrevHash "a".toList then
      #v[0xec, 0x7b, 0xcf, 0x6e, 0xab, 0x5f, 0xb2, 0x8a,
      0xd6, 0x2b, 0xc2, 0xd0, 0x3d, 0xaf, 0x2b, 0x44,
      0x61, 0x0f, 0xb1, 0x25, 0x49, 0x4e, 0x68, 0x91,
      0xb9, 0xd1, 0xb3, 0xc9, 0xdc, 0xe3, 0x1b, 0x4d]
    else if input = hashInput 0 genesisPrevHash "x".toList then
      #v[0x75, 0x24, 0x41, 0x4b, 0x7e, 0x84, 0x68, 0xc8,
      0x50, 0xb0, 0xcc, 0x20, 0x02, 0x72, 0x76, 0xdd,
      0x67, 0xb6, 0x12, 0xaa, 0x30, 0x79, 0x99, 0x09,
      0x1b, 0x7c, 0xf8, 0x82, 0x1b, 0x55, 0x75, 0xae]
    else if input = hashInput 1 hashOfA "b".toList then
      #v[0x29, 0xfe, 0xee, 0x0f, 0x99, 0xcd, 0x74, 0x12,
      0x48, 0xed, 0x59, 0xfa, 0xd3, 0x1c, 0xcf, 0xb8,
      0x61, 0x51, 0xc8, 0xa1, 0x1b, 0xc6, 0x21, 0xad,
      0xd7, 0xe1, 0x6f, 0x62, 0x84, 0x15, 0x10, 0xc2]
    else Vector.replicate 32 0

def secondEntry : ChainEntry :=
  { sequence := 1, payload := "b".toList, blake3Hash := hashOfB
    prevHash := hashOfA, createdAtMs := 0 }

/-- The chain of the payloads `a` and `b`. -/
def original : Chain :=
  { entries :=
      [{ sequence := 0, payload := "a".toList, blake3Hash := hashOfA
         prevHash := genesisPrevHash, createdAtMs := 0 }, secondEntry] }

/-- The same chain with its first payload replaced and rehashed. -/
def replaced : Chain :=
  { entries :=
      [{ sequence := 0, payload := "x".toList, blake3Hash := hashOfX
         prevHash := genesisPrevHash, createdAtMs := 0 }, secondEntry] }

theorem verify_tamperEvident_iff_original :
    (original.entries = original.entries ∧ original.Linked ∧
        original.Linked) ↔
      (@Appended recordedBlake3 original ∧ @Appended recordedBlake3 original ∧
        original.entries.map ChainEntry.createdAtMs =
          original.entries.map ChainEntry.createdAtMs) :=
  @verify_tamperEvident_iff recordedBlake3 original original
    (by decide) (by decide) rfl rfl
    (by unfold HashCollisionFree; decide)

theorem replaced_not_tamperEvident : ¬ @TamperEvident recordedBlake3 := by
  intro law
  have sameEntries := (law original replaced (by decide)
    (by decide) rfl rfl
    (by unfold HashCollisionFree; decide)).1
  revert sameEntries
  decide

end Chain

end TrustLayer.TlChain
