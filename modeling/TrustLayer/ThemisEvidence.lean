import TrustLayer.TlChain

/-!
# The evidence chain

A second chain over the same hash, with a retention policy.  `verify` carries
the last hash along, but compares it with an entry of sequence zero only.
-/

namespace TrustLayer.ThemisEvidence

open TrustLayer.Library
open TrustLayer.TlChain (Blake3 hashInput genesisPrevHash)

/-! ## Retention -/

structure RetentionPolicy where
  defaultMonths : UInt32
  perTenantOverrides : List (Str × UInt32)
  perJurisdictionOverrides : List (Str × UInt32)
  deriving DecidableEq

namespace RetentionPolicy

def default : RetentionPolicy :=
  { defaultMonths := 6, perTenantOverrides := [],
    perJurisdictionOverrides := [] }

/-- Tenant override, then jurisdiction override, then the default. -/
def effectiveMonths (policy : RetentionPolicy) (tenantId jurisdiction : Str) :
    UInt32 :=
  match policy.perTenantOverrides.lookup tenantId with
  | some months => months
  | none =>
      match policy.perJurisdictionOverrides.lookup jurisdiction with
      | some months => months
      | none => policy.defaultMonths

end RetentionPolicy

structure ChainEntry where
  sequence : UInt64
  payload : Str
  blake3Hash : Str
  prevHash : Str
  createdAtMs : Int64
  deriving DecidableEq

inductive ChainError where
  | hashMismatch (sequence : UInt64)
  | invalidGenesis (sequence : UInt64)
  | brokenChain (sequence : UInt64)
  | retentionExceeded (windowMonths : UInt32)
  deriving DecidableEq

structure HashChain where
  entries : List ChainEntry
  deriving DecidableEq

def payloads (chain : HashChain) : List Str :=
  chain.entries.map ChainEntry.payload

/-- The arithmetic wraps, as in a release build. -/
def HashChain.enforceRetention (chain : HashChain) (policy : RetentionPolicy)
    (nowMs : Int64) (tenantId jurisdiction : Str) : Except ChainError Unit :=
  match chain.entries.getLast? with
  | none => .ok ()
  | some latest =>
      let windowMonths := policy.effectiveMonths tenantId jurisdiction
      let windowMs : Int64 := windowMonths.toUInt64.toInt64 * 30 * 86400 * 1000
      if nowMs - latest.createdAtMs > windowMs then
        .error (.retentionExceeded windowMonths)
      else .ok ()

section

variable [Blake3]

def computeEntryHash (sequence : UInt64) (prevHashHex payload : Str) : Str :=
  toHex (Blake3.hash
    (beBytes sequence ++ utf8Bytes prevHashHex ++ utf8Bytes payload)).toList

theorem computeEntryHash_eq (sequence : UInt64) (prevHash payload : Str) :
    computeEntryHash sequence prevHash payload =
      TlChain.computeHash sequence prevHash payload :=
  rfl

namespace HashChain

omit [Blake3] in
def new : HashChain := { entries := [] }

/-- The hash of the latest entry, if any. -/
def root (chain : HashChain) : Option Str :=
  chain.entries.getLast?.map ChainEntry.blake3Hash

/-- The entry that `append_with_timestamp` pushes. -/
def nextEntry (index : Nat) (prevHash payload : Str) (createdAtMs : Int64) :
    ChainEntry :=
  { sequence := UInt64.ofNat index
    payload
    blake3Hash := computeEntryHash (UInt64.ofNat index) prevHash payload
    prevHash
    createdAtMs }

def appendWithTimestamp (chain : HashChain) (payload : Str)
    (createdAtMs : Int64) : HashChain :=
  { entries :=
      chain.entries ++
        [nextEntry chain.entries.length
          ((chain.entries.getLast?.map ChainEntry.blake3Hash).getD
            genesisPrevHash) payload createdAtMs] }

/-- The loop of `verify`, which carries the hash of the entry before. -/
def verifyFrom : (prevHash : Str) → List ChainEntry → Except ChainError Unit
  | _, [] => .ok ()
  | prevHash, entry :: entries =>
      if entry.sequence = 0 ∧ entry.prevHash ≠ prevHash then
        .error (.invalidGenesis entry.sequence)
      else if entry.sequence > 0 ∧ entry.prevHash = genesisPrevHash then
        .error (.brokenChain entry.sequence)
      else if computeEntryHash entry.sequence entry.prevHash entry.payload ≠
          entry.blake3Hash then
        .error (.hashMismatch entry.sequence)
      else verifyFrom entry.blake3Hash entries

def verify (chain : HashChain) : Except ChainError Unit :=
  verifyFrom genesisPrevHash chain.entries

/-! ## What a chain should be -/

/-- Every entry carries its own index. -/
def Sequenced (chain : HashChain) : Prop :=
  ∀ index entry, chain.entries[index]? = some entry →
    entry.sequence = UInt64.ofNat index

/-- Every entry stores the hash of the entry before it. -/
def Linked (chain : HashChain) : Prop :=
  LinkedFrom ChainEntry.prevHash ChainEntry.blake3Hash genesisPrevHash
    chain.entries

/-- The payload and creation time of an entry. -/
def itemOf (entry : ChainEntry) : Str × Int64 :=
  (entry.payload, entry.createdAtMs)

def appendAll (chain : HashChain) (items : List (Str × Int64)) : HashChain :=
  items.foldl (fun chain item => chain.appendWithTimestamp item.1 item.2) chain

/-- The chain is the one that appending its own payloads and times builds. -/
def Appended (chain : HashChain) : Prop :=
  chain = new.appendAll (chain.entries.map itemOf)

/-- What `append_with_timestamp` pushes for a list of payloads and times. -/
def entriesFrom : (index : Nat) → (prevHash : Str) → List (Str × Int64) →
    List ChainEntry
  | _, _, [] => []
  | index, prevHash, (payload, createdAtMs) :: items =>
      let entry := nextEntry index prevHash payload createdAtMs
      entry :: entriesFrom (index + 1) entry.blake3Hash items

theorem appendAll_entries (chain : HashChain) (items : List (Str × Int64)) :
    (chain.appendAll items).entries =
      chain.entries ++ entriesFrom chain.entries.length
        (rootFrom ChainEntry.blake3Hash genesisPrevHash chain.entries)
        items := by
  induction items generalizing chain with
  | nil => simp [appendAll, entriesFrom]
  | cons item items induction =>
      have step := induction (chain.appendWithTimestamp item.1 item.2)
      rw [appendAll, List.foldl_cons]
      refine step.trans ?_
      simp [appendWithTimestamp, entriesFrom, rootFrom, nextEntry]

theorem new_appendAll_entries (items : List (Str × Int64)) :
    (new.appendAll items).entries = entriesFrom 0 genesisPrevHash items := by
  simpa [new] using appendAll_entries new items

theorem entriesFrom_linked (index : Nat) (prevHash : Str)
    (items : List (Str × Int64)) :
    LinkedFrom ChainEntry.prevHash ChainEntry.blake3Hash prevHash
      (entriesFrom index prevHash items) := by
  induction items generalizing index prevHash with
  | nil => trivial
  | cons item items induction => exact ⟨rfl, induction _ _⟩

theorem entriesFrom_sequence (start : Nat) (prevHash : Str)
    (items : List (Str × Int64)) {index : Nat} {entry : ChainEntry}
    (found : (entriesFrom start prevHash items)[index]? = some entry) :
    entry.sequence = UInt64.ofNat (start + index) := by
  induction items generalizing start prevHash index with
  | nil => simp [entriesFrom] at found
  | cons item items induction =>
      cases index with
      | zero =>
          simp only [entriesFrom, List.getElem?_cons_zero,
            Option.some.injEq] at found
          rw [← found]
          rfl
      | succ index =>
          simp only [entriesFrom, List.getElem?_cons_succ] at found
          rw [induction _ _ found]
          congr 1
          omega

theorem Appended.linked {chain : HashChain} (appended : chain.Appended) :
    chain.Linked := by
  rw [Linked, appended, new_appendAll_entries]
  exact entriesFrom_linked _ _ _

theorem Appended.sequenced {chain : HashChain} (appended : chain.Appended) :
    chain.Sequenced := by
  intro index entry found
  rw [appended, new_appendAll_entries] at found
  simpa using entriesFrom_sequence _ _ _ found

/-! ## What `verify` checks -/

theorem verifyFrom_cons {prevHash : Str} {entry : ChainEntry}
    {entries : List ChainEntry} :
    verifyFrom prevHash (entry :: entries) = .ok () ↔
      (entry.sequence = 0 → entry.prevHash = prevHash) ∧
      (entry.sequence ≠ 0 → entry.prevHash ≠ genesisPrevHash) ∧
      entry.blake3Hash =
        computeEntryHash entry.sequence entry.prevHash entry.payload ∧
      verifyFrom entry.blake3Hash entries = .ok () := by
  have positive : entry.sequence > 0 ↔ entry.sequence ≠ 0 :=
    UInt64.pos_iff_ne_zero
  simp only [verifyFrom, positive]
  split_ifs <;> grind

/-- Every stored hash is recomputed from the entry. -/
theorem sealed_of_verifyFrom {prevHash : Str} {entries : List ChainEntry}
    (verified : verifyFrom prevHash entries = .ok ()) :
    ∀ entry ∈ entries, entry.blake3Hash =
      computeEntryHash entry.sequence entry.prevHash entry.payload := by
  induction entries generalizing prevHash with
  | nil => simp
  | cons entry entries induction =>
      obtain ⟨-, -, stored, later⟩ := verifyFrom_cons.mp verified
      exact List.forall_mem_cons.mpr ⟨stored, induction later⟩

theorem pointing_of_verifyFrom {prevHash : Str} {entries : List ChainEntry}
    (verified : verifyFrom prevHash entries = .ok ()) :
    ∀ entry ∈ entries, entry.sequence ≠ 0 →
      entry.prevHash ≠ genesisPrevHash := by
  induction entries generalizing prevHash with
  | nil => simp
  | cons entry entries induction =>
      obtain ⟨-, pointing, -, later⟩ := verifyFrom_cons.mp verified
      exact List.forall_mem_cons.mpr ⟨pointing, induction later⟩

/-- The loop goes on with the hash of the last entry. -/
theorem verifyFrom_append {prevHash : Str} {front back : List ChainEntry} :
    verifyFrom prevHash (front ++ back) = .ok () ↔
      verifyFrom prevHash front = .ok () ∧
        verifyFrom (rootFrom ChainEntry.blake3Hash prevHash front) back =
          .ok () := by
  induction front generalizing prevHash with
  | nil => simp [verifyFrom]
  | cons entry front induction =>
      rw [List.cons_append, verifyFrom_cons, verifyFrom_cons, induction,
        rootFrom_cons]
      tauto

/-- An entry of a positive sequence will not point at the genesis value. -/
def Extensible (chain : HashChain) : Prop :=
  UInt64.ofNat chain.entries.length ≠ 0 → chain.root ≠ some genesisPrevHash

omit [Blake3] in
theorem extensible_new : new.Extensible := by
  intro positive
  exact absurd rfl positive

omit [Blake3] in
/-- No stored hash is the genesis value. -/
theorem extensible_of_forall {chain : HashChain}
    (nonzero : ∀ entry ∈ chain.entries, entry.blake3Hash ≠ genesisPrevHash) :
    chain.Extensible := by
  intro _ zero
  obtain ⟨entry, last, isZero⟩ := Option.map_eq_some_iff.mp zero
  exact nonzero entry (List.mem_of_getLast? last) isZero

theorem verify_appendWithTimestamp_iff {chain : HashChain} {payload : Str}
    {createdAtMs : Int64} :
    (chain.appendWithTimestamp payload createdAtMs).verify = .ok () ↔
      chain.verify = .ok () ∧ chain.Extensible := by
  have pointing : chain.root.getD genesisPrevHash ≠ genesisPrevHash ∨
      UInt64.ofNat chain.entries.length = 0 ↔ chain.Extensible := by
    rw [Extensible]
    cases root : chain.root with
    | none =>
        have empty : chain.entries = [] := by
          simpa [HashChain.root] using root
        simp [empty]
    | some hash =>
        simp only [Option.getD_some, ne_eq, Option.some.injEq]
        tauto
  rw [verify, appendWithTimestamp, verifyFrom_append, verifyFrom_cons,
    ← pointing]
  simp only [nextEntry, verify, root, rootFrom, verifyFrom]
  tauto

/-- Past the first entry an entry of a positive sequence is checked by itself:
any selection of such entries passes, in any order and with repetitions. -/
theorem verify_of_rearranged {original edited : HashChain} {head : ChainEntry}
    {tail picked : List ChainEntry} (verified : original.verify = .ok ())
    (builtEntries : original.entries = head :: tail)
    (editedEntries : edited.entries = head :: picked) (fromTail : picked ⊆ tail)
    (positive : ∀ entry ∈ tail, entry.sequence ≠ 0) :
    edited.verify = .ok () := by
  rw [verify, builtEntries] at verified
  obtain ⟨genesis, pointing, stored, later⟩ := verifyFrom_cons.mp verified
  have passes : ∀ (prevHash : Str) (entries : List ChainEntry),
      entries ⊆ tail → verifyFrom prevHash entries = .ok () := by
    intro prevHash entries
    induction entries generalizing prevHash with
    | nil => exact fun _ => rfl
    | cons entry entries induction =>
        intro subset
        obtain ⟨member, rest⟩ := List.cons_subset.mp subset
        have notZero := positive entry member
        exact verifyFrom_cons.mpr ⟨fun zero => absurd zero notZero,
          pointing_of_verifyFrom later entry member,
          sealed_of_verifyFrom later entry member, induction _ rest⟩
  rw [verify, editedEntries]
  exact verifyFrom_cons.mpr
    ⟨genesis, pointing, stored, passes _ picked fromTail⟩

/-- A list that carries its indexes and is linked, and passes `verify`, is
what appending builds. -/
theorem entriesFrom_of_linked {start : Nat} {prevHash checked : Str}
    {entries : List ChainEntry}
    (verified : verifyFrom checked entries = .ok ())
    (sequenced : ∀ index entry, entries[index]? = some entry →
      entry.sequence = UInt64.ofNat (start + index))
    (linked : LinkedFrom ChainEntry.prevHash ChainEntry.blake3Hash prevHash
      entries) :
    entries = entriesFrom start prevHash (entries.map itemOf) := by
  induction entries generalizing start prevHash checked with
  | nil => rfl
  | cons entry entries induction =>
      obtain ⟨-, -, stored, later⟩ := verifyFrom_cons.mp verified
      obtain ⟨samePrevious, linked⟩ := linked
      have sequence : entry.sequence = UInt64.ofNat start :=
        sequenced 0 entry rfl
      have same : entry =
          nextEntry start prevHash entry.payload entry.createdAtMs := by
        cases entry
        simp only [nextEntry, ChainEntry.mk.injEq, true_and] at *
        subst sequence samePrevious
        exact ⟨rfl, stored, rfl, trivial⟩
      have shifted : ∀ index found, entries[index]? = some found →
          found.sequence = UInt64.ofNat (start + 1 + index) := by
        intro index found isFound
        rw [sequenced (index + 1) found isFound]
        congr 1
        omega
      rw [List.map_cons, entriesFrom]
      simp only [itemOf, ← same]
      exact congrArg _ (induction later shifted linked)

theorem appended_iff {chain : HashChain} (verified : chain.verify = .ok ()) :
    chain.Appended ↔ chain.Sequenced ∧ chain.Linked := by
  constructor
  · exact fun appended => ⟨appended.sequenced, appended.linked⟩
  · rintro ⟨sequenced, linked⟩
    have same : chain.entries =
        entriesFrom 0 genesisPrevHash (chain.entries.map itemOf) :=
      entriesFrom_of_linked verified
        (fun index entry found => by simpa using sequenced index entry found)
        linked
    rw [← new_appendAll_entries] at same
    exact congrArg HashChain.mk same

theorem entriesFrom_sealed (index : Nat) (prevHash : Str)
    (items : List (Str × Int64)) :
    ∀ entry ∈ entriesFrom index prevHash items, entry.blake3Hash =
      computeEntryHash entry.sequence entry.prevHash entry.payload := by
  induction items generalizing index prevHash with
  | nil => simp [entriesFrom]
  | cons item items induction =>
      exact List.forall_mem_cons.mpr ⟨rfl, induction _ _⟩

theorem Appended.sealed {chain : HashChain} (appended : chain.Appended) :
    ∀ entry ∈ chain.entries, entry.blake3Hash =
      computeEntryHash entry.sequence entry.prevHash entry.payload := by
  rw [appended, new_appendAll_entries]
  exact entriesFrom_sealed _ _ _

/-! ## Tamper evidence -/

/-- The hash function tells apart the encoded inputs of these entries. -/
def HashCollisionFree (entries : List ChainEntry) : Prop :=
  ∀ entry ∈ entries, ∀ other ∈ entries,
    Blake3.hash (hashInput entry.sequence entry.prevHash entry.payload) =
        Blake3.hash (hashInput other.sequence other.prevHash other.payload) →
      hashInput entry.sequence entry.prevHash entry.payload =
        hashInput other.sequence other.prevHash other.payload

/-- Appended chains of one root and with the same times are equal. -/
theorem Appended.entries_eq {first second : HashChain}
    (firstAppended : first.Appended) (secondAppended : second.Appended)
    (sameTimes : first.entries.map ChainEntry.createdAtMs =
      second.entries.map ChainEntry.createdAtMs)
    (sameRoot : first.root = second.root)
    (free : HashCollisionFree (first.entries ++ second.entries)) :
    first.entries = second.entries := by
  have sameLength : first.entries.length = second.entries.length := by
    simpa using congrArg List.length sameTimes
  have sealedAll : ∀ entry ∈ first.entries ++ second.entries,
      entry.blake3Hash =
        TlChain.computeHash entry.sequence entry.prevHash entry.payload := by
    intro entry member
    rw [← computeEntryHash_eq]
    rcases List.mem_append.mp member with inFirst | inSecond
    · exact firstAppended.sealed entry inFirst
    · exact secondAppended.sealed entry inSecond
  have payloads : first.entries.map ChainEntry.payload =
      second.entries.map ChainEntry.payload :=
    TlChain.Chain.payloads_eq_of_linkedFrom sealedAll firstAppended.linked
      secondAppended.linked sameLength
      (congrArg (Option.getD · genesisPrevHash) sameRoot) free
  have zipped : ∀ entries : List ChainEntry, entries.map itemOf =
      (entries.map ChainEntry.payload).zip
        (entries.map ChainEntry.createdAtMs) := by
    intro entries
    rw [List.zip_map']
    rfl
  have sameItems : first.entries.map itemOf = second.entries.map itemOf := by
    rw [zipped, zipped, payloads, sameTimes]
  rw [firstAppended, sameItems, ← secondAppended]

/-- A list that passes is built by appending exactly when it is sequenced and
linked.  With the root of a built chain, it is this and unchanged exactly when
appending builds it with the same times. -/
theorem verify_detects_iff (original edited : HashChain)
    (built : original.Appended) (verified : edited.verify = .ok ())
    (sameRoot : edited.root = original.root)
    (free : HashCollisionFree (edited.entries ++ original.entries)) :
    (edited.Appended ↔ edited.Sequenced ∧ edited.Linked) ∧
      ((edited.Sequenced ∧ edited.Linked ∧ edited.entries = original.entries) ↔
        (edited.Appended ∧ edited.entries.map ChainEntry.createdAtMs =
          original.entries.map ChainEntry.createdAtMs)) := by
  have appends := appended_iff verified
  refine ⟨appends, ?_⟩
  constructor
  · rintro ⟨sequenced, linked, same⟩
    exact ⟨appends.mpr ⟨sequenced, linked⟩, by rw [same]⟩
  · rintro ⟨appended, sameTimes⟩
    obtain ⟨sequenced, linked⟩ := appends.mp appended
    exact ⟨sequenced, linked,
      appended.entries_eq built sameTimes sameRoot free⟩

/-- The property for every built chain and every edited list. -/
def TamperEvident : Prop :=
  ∀ original edited : HashChain, original.Appended →
    edited.verify = .ok () → edited.root = original.root →
      HashCollisionFree (edited.entries ++ original.entries) →
        edited.Sequenced ∧ edited.Linked ∧ edited.entries = original.entries

end HashChain

end

namespace HashChain

open TrustLayer.TlChain.Chain (hashOfA hashOfB)

/-- The stored hash of a third entry with payload `c` after `b`. -/
def hashOfC : Str :=
  ("a18c2cf4a697c8ec397cc43026d8b768" ++
    "9db0d7abe6a6c2750fc1b9bb9b1b1f33").toList

/-- BLAKE3 on the three inputs that occur below. -/
@[reducible] def recordedBlake3 : Blake3 where
  hash input :=
    if input = hashInput 2 hashOfB "c".toList then
      #v[0xa1, 0x8c, 0x2c, 0xf4, 0xa6, 0x97, 0xc8, 0xec,
      0x39, 0x7c, 0xc4, 0x30, 0x26, 0xd8, 0xb7, 0x68,
      0x9d, 0xb0, 0xd7, 0xab, 0xe6, 0xa6, 0xc2, 0x75,
      0x0f, 0xc1, 0xb9, 0xbb, 0x9b, 0x1b, 0x1f, 0x33]
    else TlChain.Chain.recordedBlake3.hash input

def entryA : ChainEntry :=
  { sequence := 0, payload := "a".toList, blake3Hash := hashOfA
    prevHash := genesisPrevHash, createdAtMs := 10 }

def entryB : ChainEntry :=
  { sequence := 1, payload := "b".toList, blake3Hash := hashOfB
    prevHash := hashOfA, createdAtMs := 20 }

def entryC : ChainEntry :=
  { sequence := 2, payload := "c".toList, blake3Hash := hashOfC
    prevHash := hashOfB, createdAtMs := 30 }

/-- The chain of the payloads `a`, `b` and `c`. -/
def original : HashChain :=
  { entries := [entryA, entryB, entryC] }

/-- The same chain without its interior entry. -/
def shortened : HashChain :=
  { entries := [entryA, entryC] }

theorem verify_detects_iff_original :
    (@Appended recordedBlake3 original ↔
        original.Sequenced ∧ original.Linked) ∧
      ((original.Sequenced ∧ original.Linked ∧
          original.entries = original.entries) ↔
        (@Appended recordedBlake3 original ∧
          original.entries.map ChainEntry.createdAtMs =
            original.entries.map ChainEntry.createdAtMs)) :=
  @verify_detects_iff recordedBlake3 original original
    (by unfold Appended; decide) (by decide) rfl
    (by unfold HashCollisionFree; decide)

theorem shortened_not_tamperEvident : ¬ @TamperEvident recordedBlake3 := by
  intro law
  have sameEntries := (law original shortened
    (by unfold Appended; decide) (by decide) rfl
    (by unfold HashCollisionFree; decide)).2.2
  revert sameEntries
  decide

end HashChain

end TrustLayer.ThemisEvidence
