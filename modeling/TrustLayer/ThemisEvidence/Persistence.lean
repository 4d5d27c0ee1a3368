import TrustLayer.Library.Runs
import TrustLayer.SerdeJson
import TrustLayer.ThemisEvidence

/-!
# The chain on disk

One JSON file for a tenant.  `append` pushes to the chain in memory, writes
the whole chain to a temporary file and renames that over the chain file; the
two file operations may fail.
-/

namespace TrustLayer.ThemisEvidence

open TrustLayer.Library hiding Json
open TrustLayer.AgentGuard (Json)
open TrustLayer.TlChain (Blake3 genesisPrevHash)

/-- `serde_json::from_slice` at the type of chains. -/
class FromSlice where
  fromSlice : List UInt8 → Option HashChain

namespace ChainStore

/-! ## The file -/

inductive ChainStoreError where
  | io
  | parse
  | verify (error : ChainError)
  deriving DecidableEq

/-- The derived serializer, in the order of the declaration. -/
def entryValue (entry : ChainEntry) : Json :=
  .object [
    ("sequence".toList, SerdeJson.integer entry.sequence.toNat),
    ("payload".toList, .string entry.payload),
    ("blake3_hash".toList, .string entry.blake3Hash),
    ("prev_hash".toList, .string entry.prevHash),
    ("created_at_ms".toList, SerdeJson.integer entry.createdAtMs.toInt)]

def chainValue (chain : HashChain) : Json :=
  .object [("entries".toList, .array (chain.entries.map entryValue))]

/-- `serde_json::to_vec_pretty` of a chain. -/
def toVecPretty (chain : HashChain) : List UInt8 :=
  SerdeJson.toVecPretty (chainValue chain)

/-- How `std::fs::write` ends: it fails before it creates the file, or after it
has written some of the bytes. -/
inductive WriteOutcome where
  | done
  | unopened
  | cut (written : Nat)
  deriving DecidableEq

def WriteOutcome.file (outcome : WriteOutcome) (old : Option (List UInt8))
    (bytes : List UInt8) : Option (List UInt8) :=
  match outcome with
  | .done => some bytes
  | .unopened => old
  | .cut written => some (bytes.take written)

/-- The chain file, the temporary file beside it, and the chain in memory while
the store is open. -/
structure World where
  file : Option (List UInt8)
  tmp : Option (List UInt8)
  store : Option HashChain

section

variable [Blake3]

/-- `ChainStore::open`. -/
def openStore [FromSlice] (world : World) (dirCreated readable : Bool)
    (write : WriteOutcome) : Except ChainStoreError HashChain × World :=
  if dirCreated = false then (.error .io, world)
  else
    match world.file with
    | some bytes =>
        if readable = false then (.error .io, world)
        else
          match FromSlice.fromSlice bytes with
          | none => (.error .parse, world)
          | some chain =>
              match chain.verify with
              | .error error => (.error (.verify error), world)
              | .ok () => (.ok chain, { world with store := some chain })
    | none =>
        let chain := HashChain.new
        let world :=
          { world with file := write.file none (toVecPretty chain) }
        if write = .done then (.ok chain, { world with store := some chain })
        else (.error .io, world)

/-- `ChainStore::append` on the chain of an open store. -/
def append (chain : HashChain) (world : World) (payload : Str)
    (nowMs : Int64) (write : WriteOutcome) (renamed : Bool) :
    Except ChainStoreError (Option ChainEntry) × World :=
  let chain := chain.appendWithTimestamp payload nowMs
  let entry := chain.entries.getLast?
  let json := toVecPretty chain
  -- the chain in memory has changed before the first write
  let world :=
    { world with store := some chain, tmp := write.file world.tmp json }
  if write ≠ .done then (.error .io, world)
  else if renamed = false then (.error .io, world)
  else (.ok entry, { world with file := some json, tmp := none })

/-! ## Runs -/

/-- The calls on one store, with what the file system answers. -/
inductive Call where
  | openStore (dirCreated readable : Bool) (write : WriteOutcome)
  | append (payload : Str) (nowMs : Int64) (write : WriteOutcome)
      (renamed : Bool)

variable [FromSlice]

/-- Only an open store is appended to. -/
def perform (world : World) :
    Call → Option (Except ChainStoreError (Option ChainEntry) × World)
  | .openStore dirCreated readable write =>
      let (reply, next) := openStore world dirCreated readable write
      some (reply.map fun _ => none, next)
  | .append payload nowMs write renamed =>
      world.store.map fun chain =>
        append chain world payload nowMs write renamed

def step (world : World) (call : Call) : Option World :=
  (perform world call).map Prod.snd

def onDisk (world : World) : Option HashChain :=
  world.file.bind FromSlice.fromSlice

/-- The payloads that are on disk; none before the file is created. -/
def storedPayloads (world : World) : List Str :=
  ((onDisk world).map payloads).getD []

/-- The payload of a call that was answered with `Ok`. -/
def acknowledged (call : Call)
    (reply : Except ChainStoreError (Option ChainEntry)) : List Str :=
  match call, reply with
  | .append payload _ _ _, .ok _ => [payload]
  | _, _ => []

def acknowledgedRun : (world : World) → List Call → List Str
  | _, [] => []
  | world, call :: calls =>
      match perform world call with
      | none => []
      | some (reply, next) =>
          acknowledged call reply ++ acknowledgedRun next calls

/-! ## In step with memory -/

/-- The two chains are equal and verify. -/
def Agrees (world : World) : Prop :=
  ∀ chain, world.store = some chain →
    onDisk world = some chain ∧ chain.verify = .ok ()

/-- After a call the chains agree, and a call that failed changed neither. -/
def InStep (before : World) (call : Call) (after : World) : Prop :=
  Agrees after ∧ ∀ error, perform before call = some (.error error, after) →
    after.store = before.store ∧ after.file = before.file

/-- Opened again after the run, the store holds what it held before the run and
the payloads that were acknowledged. -/
def Recovers (world : World) (calls : List Call) : Prop :=
  ∀ final, runFrom step world calls = some final →
    ∃ chain, (openStore final true true .done).1 = .ok chain ∧
      payloads chain = storedPayloads world ++ acknowledgedRun world calls

/-- No store is open, and a file holds a chain that verifies. -/
def Start (world : World) : Prop :=
  world.store = none ∧ ∀ bytes, world.file = some bytes →
    ∃ chain, FromSlice.fromSlice bytes = some chain ∧ chain.verify = .ok ()

/-- The file operations that the store relies on succeed: the first write leaves
no part of a file, and an append is written and renamed. -/
def Careful (before : World) (call : Call) (_ : World) : Prop :=
  match call with
  | .openStore dirCreated _ write =>
      before.file = none → dirCreated = true → ∀ written, write ≠ .cut written
  | .append _ _ write renamed =>
      write = .done ∧ renamed = true ∧
        ∀ chain, before.store = some chain → chain.Extensible

/-- What was written is read back. -/
def RoundTrips : Prop :=
  ∀ chain, FromSlice.fromSlice (toVecPretty chain) = some chain

/-! ## Careful calls -/

/-- The invariant of careful runs. -/
structure Sound (world : World) : Prop where
  stored : ∀ bytes, world.file = some bytes →
    ∃ chain, FromSlice.fromSlice bytes = some chain ∧ chain.verify = .ok ()
  agrees : Agrees world

theorem Start.sound {world : World} (start : Start world) : Sound world := by
  constructor
  · exact start.2
  · intro chain opened
    rw [start.1] at opened
    cases opened

/-- What a careful call does to a sound world. -/
structure Kept (before : World)
    (reply : Except ChainStoreError (Option ChainEntry)) (after : World)
    (gained : List Str) : Prop where
  sound : Sound after
  unchanged : ∀ error, reply = .error error →
    after.store = before.store ∧ after.file = before.file
  payloads : storedPayloads after = storedPayloads before ++ gained

theorem Kept.refl {world : World} (sound : Sound world)
    (reply : Except ChainStoreError (Option ChainEntry)) :
    Kept world reply world [] := by
  constructor
  · exact sound
  · intro error _
    exact ⟨rfl, rfl⟩
  · exact (List.append_nil _).symm

/-- A chain that was just written and is open. -/
theorem sound_written (roundTrips : RoundTrips) {world : World}
    {chain : HashChain} (written : world.file = some (toVecPretty chain))
    (opened : world.store = some chain) (verified : chain.verify = .ok ()) :
    Sound world := by
  constructor
  · intro bytes stored
    obtain rfl := Option.some.inj (written.symm.trans stored)
    exact ⟨chain, roundTrips chain, verified⟩
  · intro other isOpen
    obtain rfl := Option.some.inj (opened.symm.trans isOpen)
    constructor
    · rw [onDisk, written]
      exact roundTrips chain
    · exact verified

omit [Blake3] in
theorem storedPayloads_written (roundTrips : RoundTrips) {world : World}
    {chain : HashChain} (written : world.file = some (toVecPretty chain)) :
    storedPayloads world = payloads chain := by
  rw [storedPayloads, onDisk, written, Option.bind_some, roundTrips]
  rfl

/-- What `open` does once the directory is there. -/
theorem openStore_of_file {world : World} {readable : Bool}
    {write : WriteOutcome} {bytes : List UInt8} {chain : HashChain}
    (file : world.file = some bytes)
    (read : FromSlice.fromSlice bytes = some chain)
    (verified : chain.verify = .ok ()) :
    openStore world true readable write =
      if readable = false then (.error .io, world)
      else (.ok chain, { world with store := some chain }) := by
  simp only [openStore, file, read, verified, Bool.true_eq_false, if_false]

theorem openStore_of_missing {world : World} {readable : Bool}
    {write : WriteOutcome} (file : world.file = none) :
    openStore world true readable write =
      let next :=
        { world with file := write.file none (toVecPretty HashChain.new) }
      if write = .done then
        (.ok HashChain.new, { next with store := some HashChain.new })
      else (.error .io, next) := by
  simp only [openStore, file, Bool.true_eq_false, if_false]

theorem opened_kept {before : World} {bytes : List UInt8} {chain : HashChain}
    (sound : Sound before) (file : before.file = some bytes)
    (read : FromSlice.fromSlice bytes = some chain)
    (verified : chain.verify = .ok ()) :
    Kept before (.ok none) { before with store := some chain } [] := by
  constructor
  · constructor
    · exact sound.stored
    · intro other opened
      obtain rfl := Option.some.inj opened
      constructor
      · change before.file.bind _ = _
        rw [file]
        exact read
      · exact verified
  · intro error failed
    cases failed
  · exact (List.append_nil _).symm

theorem created_kept (roundTrips : RoundTrips) {before : World}
    (file : before.file = none) :
    Kept before (.ok none)
      { before with
        file := some (toVecPretty HashChain.new), store := some HashChain.new }
      [] := by
  have empty : storedPayloads before = [] := by
    rw [storedPayloads, onDisk, file]
    rfl
  constructor
  · exact sound_written roundTrips rfl rfl rfl
  · intro error failed
    cases failed
  · rw [empty]
    change storedPayloads _ = payloads HashChain.new
    exact storedPayloads_written roundTrips rfl

theorem openStore_kept (roundTrips : RoundTrips) {before : World}
    {dirCreated readable : Bool} {write : WriteOutcome} (sound : Sound before)
    (careful : before.file = none → dirCreated = true →
      ∀ written, write ≠ .cut written) :
    Kept before ((openStore before dirCreated readable write).1.map
      fun _ => none) (openStore before dirCreated readable write).2 [] := by
  cases dirCreated with
  | false =>
      simp only [openStore, if_true]
      exact .refl sound _
  | true =>
      cases file : before.file with
      | some bytes =>
          obtain ⟨chain, read, verified⟩ := sound.stored bytes file
          rw [openStore_of_file file read verified]
          cases readable with
          | false => exact .refl sound _
          | true => exact opened_kept sound file read verified
      | none =>
          rw [openStore_of_missing file]
          cases write with
          | done => exact created_kept roundTrips file
          | unopened =>
              have same : { before with file := none } = before := by
                rw [← file]
              change Kept before _ { before with file := none } []
              rw [same]
              exact .refl sound _
          | cut written => exact absurd rfl (careful file rfl written)

theorem append_kept (roundTrips : RoundTrips) {before : World}
    {chain : HashChain} (payload : Str) (nowMs : Int64) (sound : Sound before)
    (opened : before.store = some chain) (extensible : chain.Extensible) :
    Kept before (append chain before payload nowMs .done true).1
      (append chain before payload nowMs .done true).2 [payload] := by
  obtain ⟨stored, verified⟩ := sound.agrees chain opened
  constructor
  · apply sound_written roundTrips rfl rfl
    exact HashChain.verify_appendWithTimestamp_iff.mpr ⟨verified, extensible⟩
  · intro error failed
    cases failed
  · have written : storedPayloads
          (append chain before payload nowMs .done true).2 =
        payloads (chain.appendWithTimestamp payload nowMs) :=
      storedPayloads_written roundTrips rfl
    rw [written, storedPayloads, stored]
    simp [payloads, HashChain.appendWithTimestamp, HashChain.nextEntry]

/-- A careful call keeps the two chains in step. -/
theorem perform_kept (roundTrips : RoundTrips) {before after : World}
    {call : Call} {reply : Except ChainStoreError (Option ChainEntry)}
    (sound : Sound before) (careful : Careful before call after)
    (happens : perform before call = some (reply, after)) :
    Kept before reply after (acknowledged call reply) := by
  cases call with
  | openStore dirCreated readable write =>
      obtain ⟨rfl, rfl⟩ := Prod.mk.inj (Option.some.inj happens)
      have gained : ∀ reply : Except ChainStoreError (Option ChainEntry),
          acknowledged (.openStore dirCreated readable write) reply = [] := by
        intro reply
        rfl
      rw [gained]
      exact openStore_kept roundTrips sound careful
  | append payload nowMs write renamed =>
      obtain ⟨rfl, rfl, extensible⟩ := careful
      cases opened : before.store with
      | none =>
          rw [perform, opened] at happens
          cases happens
      | some chain =>
          rw [perform, opened] at happens
          obtain ⟨rfl, rfl⟩ := Prod.mk.inj (Option.some.inj happens)
          exact append_kept roundTrips payload nowMs sound opened
            (extensible chain opened)

theorem step_eq_some_iff {before after : World} {call : Call} :
    step before call = some after ↔
      ∃ reply, perform before call = some (reply, after) := by
  simp [step]

theorem run_kept (roundTrips : RoundTrips) {world final : World}
    {calls : List Call} (sound : Sound world)
    (careful : EachStep step Careful world calls)
    (reached : runFrom step world calls = some final) :
    Sound final ∧ storedPayloads final =
      storedPayloads world ++ acknowledgedRun world calls := by
  induction calls generalizing world with
  | nil =>
      obtain rfl := Option.some.inj reached
      exact ⟨sound, (List.append_nil _).symm⟩
  | cons call calls induction =>
      cases happens : perform world call with
      | none => simp [runFrom, step, happens] at reached
      | some answer =>
          obtain ⟨reply, next⟩ := answer
          have moved : step world call = some next :=
            step_eq_some_iff.mpr ⟨reply, happens⟩
          rw [runFrom, moved] at reached
          obtain ⟨here, later⟩ := careful next moved
          have kept := perform_kept roundTrips sound here happens
          obtain ⟨soundFinal, stored⟩ := induction kept.sound later reached
          constructor
          · exact soundFinal
          · rw [stored, kept.payloads, acknowledgedRun, happens,
              List.append_assoc]

theorem inStep_of_careful (roundTrips : RoundTrips) {before after : World}
    {call : Call} (sound : Sound before) (happens : step before call = some after)
    (careful : Careful before call after) :
    InStep before call after ∧ Sound after := by
  obtain ⟨reply, answer⟩ := step_eq_some_iff.mp happens
  have kept := perform_kept roundTrips sound careful answer
  constructor
  · constructor
    · exact kept.sound.agrees
    · intro error failed
      rw [answer] at failed
      exact kept.unchanged error (Prod.mk.inj (Option.some.inj failed)).1
  · exact kept.sound

theorem recovers_of_careful (roundTrips : RoundTrips) {world : World}
    {calls : List Call} (sound : Sound world)
    (careful : EachStep step Careful world calls) : Recovers world calls := by
  intro final reached
  obtain ⟨soundFinal, stored⟩ := run_kept roundTrips sound careful reached
  rw [← stored]
  cases file : final.file with
  | none =>
      refine ⟨HashChain.new, ?_, ?_⟩
      · rw [openStore_of_missing file]
        rfl
      · rw [storedPayloads, onDisk, file]
        rfl
  | some bytes =>
      obtain ⟨chain, read, verified⟩ := soundFinal.stored bytes file
      refine ⟨chain, ?_, ?_⟩
      · rw [openStore_of_file file read verified]
        rfl
      · rw [storedPayloads, onDisk, file, Option.bind_some, read]
        rfl

/-! ## Careless calls -/

omit [FromSlice] in
/-- However an append ends, the chain in memory has grown. -/
theorem append_store (chain : HashChain) (world : World) (payload : Str)
    (nowMs : Int64) (write : WriteOutcome) (renamed : Bool) :
    (append chain world payload nowMs write renamed).2.store =
      some (chain.appendWithTimestamp payload nowMs) := by
  unfold append
  split_ifs <;> rfl

omit [FromSlice] in
theorem append_eq_ok {chain : HashChain} {world : World} {payload : Str}
    {nowMs : Int64} {write : WriteOutcome} {renamed : Bool}
    (succeeded : ∀ error,
      (append chain world payload nowMs write renamed).1 ≠ .error error) :
    write = .done ∧ renamed = true := by
  by_cases done : write = .done
  · cases renamed with
    | false => exact absurd (by simp [append, done]) (succeeded .io)
    | true => exact ⟨done, rfl⟩
  · exact absurd (by simp [append, done]) (succeeded .io)

omit [FromSlice] in
theorem appendWithTimestamp_ne (chain : HashChain) (payload : Str)
    (nowMs : Int64) : chain.appendWithTimestamp payload nowMs ≠ chain := by
  intro same
  have lengths := congrArg (fun chain => chain.entries.length) same
  simp [HashChain.appendWithTimestamp] at lengths

theorem write_ne_cut_of_inStep {before after : World} {readable : Bool}
    {write : WriteOutcome} (missing : before.file = none)
    (happens : step before (.openStore true readable write) = some after)
    (inStep : InStep before (.openStore true readable write) after)
    (written : Nat) : write ≠ .cut written := by
  intro cut
  subst cut
  have answer : perform before (.openStore true readable (.cut written)) =
      some (.error .io, { before with
        file := some ((toVecPretty HashChain.new).take written) }) := by
    rw [perform, openStore_of_missing missing]
    rfl
  rw [step, answer] at happens
  obtain rfl := Option.some.inj happens
  have unchanged := (inStep.2 .io answer).2
  rw [missing] at unchanged
  cases unchanged

theorem append_careful_of_inStep {before after : World} {payload : Str}
    {nowMs : Int64} {write : WriteOutcome} {renamed : Bool}
    {chain : HashChain} (opened : before.store = some chain)
    (happens : step before (.append payload nowMs write renamed) = some after)
    (inStep : InStep before (.append payload nowMs write renamed) after) :
    write = .done ∧ renamed = true ∧ chain.Extensible := by
  have answer : perform before (.append payload nowMs write renamed) =
      some (append chain before payload nowMs write renamed) := by
    rw [perform, opened, Option.map_some]
  rw [step, answer] at happens
  have afterIs := Option.some.inj happens
  have store : after.store = some (chain.appendWithTimestamp payload nowMs) := by
    rw [← afterIs]
    exact append_store chain before payload nowMs write renamed
  have succeeded : ∀ error,
      (append chain before payload nowMs write renamed).1 ≠ .error error := by
    intro error failed
    have unchanged := (inStep.2 error (by rw [answer, ← failed, ← afterIs])).1
    rw [store, opened] at unchanged
    exact appendWithTimestamp_ne chain payload nowMs (Option.some.inj unchanged)
  obtain ⟨done, renames⟩ := append_eq_ok succeeded
  have verified := (inStep.1 _ store).2
  exact ⟨done, renames, (HashChain.verify_appendWithTimestamp_iff.mp verified).2⟩

/-- A call that leaves the chains in step is a careful one. -/
theorem careful_of_inStep {before after : World} {call : Call}
    (happens : step before call = some after)
    (inStep : InStep before call after) : Careful before call after := by
  cases call with
  | openStore dirCreated readable write =>
      intro missing made
      subst made
      exact write_ne_cut_of_inStep missing happens inStep
  | append payload nowMs write renamed =>
      cases opened : before.store with
      | none => simp [step, perform, opened] at happens
      | some chain =>
          obtain ⟨done, renames, extensible⟩ :=
            append_careful_of_inStep opened happens inStep
          refine ⟨done, renames, ?_⟩
          intro other isOpen
          obtain rfl := Option.some.inj (opened.symm.trans isOpen)
          exact extensible

/-- The chains stay in step, and the acknowledged payloads are recovered,
exactly in the runs of careful calls. -/
theorem staysInStep_iff (roundTrips : RoundTrips) {world : World}
    (start : Start world) (calls : List Call) :
    (EachStep step InStep world calls ∧ Recovers world calls) ↔
      EachStep step Careful world calls := by
  constructor
  · intro holds
    exact @EachStep.of_invariant _ _ _ _ _ _ _ (fun _ => True)
      (fun _ _ _ _ _ _ => trivial)
      (fun _ _ _ _ happens inStep => careful_of_inStep happens inStep) trivial
      holds.1
  · intro careful
    constructor
    · exact careful.of_invariant
        (fun _ _ _ sound happens here =>
          (inStep_of_careful roundTrips sound happens here).2)
        (fun _ _ _ sound happens here =>
          (inStep_of_careful roundTrips sound happens here).1) start.sound
    · exact recovers_of_careful roundTrips start.sound careful

/-- The property for every run on an empty directory. -/
def StaysInStep : Prop :=
  ∀ tmp calls,
    EachStep step InStep { file := none, tmp, store := none } calls ∧
      Recovers { file := none, tmp, store := none } calls

end

/-! ### One store, with and without a failed rename -/

theorem entryValue_injective : Function.Injective entryValue := by
  intro left right same
  simp only [entryValue, Json.object.injEq, List.cons.injEq, Prod.mk.injEq,
    Json.string.injEq, true_and, and_true] at same
  obtain ⟨sequence, payload, hash, prev, created⟩ := same
  have sameSequence := SerdeJson.integer_uint64_inj sequence
  have sameCreated := SerdeJson.integer_int64_inj created
  cases left
  cases right
  congr

theorem wellFormed_chainValue (chain : HashChain) :
    SerdeJson.WellFormed (chainValue chain) := by
  simp [chainValue, entryValue]

theorem toVecPretty_injective : Function.Injective toVecPretty := by
  intro left right same
  have values := SerdeJson.toVecPretty_inj (wellFormed_chainValue left)
    (wellFormed_chainValue right) same
  simp only [chainValue, Json.object.injEq, List.cons.injEq, Prod.mk.injEq,
    Json.array.injEq, true_and, and_true] at values
  have entries := List.map_injective_iff.mpr entryValue_injective values
  exact congrArg HashChain.mk entries

open Classical in
/-- Reads back what was written, and nothing else. -/
@[reducible] noncomputable def inverseReader : FromSlice where
  fromSlice bytes :=
    if written : ∃ chain, toVecPretty chain = bytes then some written.choose
    else none

theorem inverseReader_roundTrips : @RoundTrips inverseReader := by
  intro chain
  have written : ∃ other, toVecPretty other = toVecPretty chain := ⟨chain, rfl⟩
  refine (dif_pos written).trans ?_
  exact congrArg some (toVecPretty_injective written.choose_spec)

def emptyDirectory : World where
  file := none
  tmp := none
  store := none

/-- The first write fails before the file is there; the store is opened again,
and an append is written. -/
def retriedRun : List Call :=
  [.openStore true true .unopened, .openStore true true .done,
    .append "a".toList 10 .done true]

theorem retriedRun_staysInStep :
    @EachStep World Call (@step HashChain.recordedBlake3 inverseReader)
        (@InStep HashChain.recordedBlake3 inverseReader) emptyDirectory
        retriedRun ∧
      @Recovers HashChain.recordedBlake3 inverseReader emptyDirectory
        retriedRun := by
  apply (@staysInStep_iff HashChain.recordedBlake3 inverseReader
    inverseReader_roundTrips emptyDirectory ⟨rfl, nofun⟩ retriedRun).mpr
  apply EachStep.cons rfl
  · intro _ _ written cut
    cases cut
  apply EachStep.cons rfl
  · intro _ _ written cut
    cases cut
  apply EachStep.cons rfl
  · refine ⟨rfl, rfl, ?_⟩
    intro chain opened
    obtain rfl := Option.some.inj opened
    exact HashChain.extensible_new
  · trivial

/-- The rename fails, and the chain in memory has grown. -/
def unrenamedRun : List Call :=
  [.openStore true true .done, .append "a".toList 10 .done false]

theorem unrenamedRun_not_inStep :
    ¬ @StaysInStep HashChain.recordedBlake3 inverseReader := by
  intro law
  obtain ⟨-, later⟩ := (law none unrenamedRun).1 _ rfl
  obtain ⟨appended, -⟩ := later _ rfl
  have careful := @careful_of_inStep HashChain.recordedBlake3 inverseReader _
    _ _ rfl appended
  cases careful.2.1

end ChainStore

end TrustLayer.ThemisEvidence
