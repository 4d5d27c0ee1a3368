import TrustLayer.Library.HashChain
import TrustLayer.Library.Text

/-!
# Key rotation

A store with one active key, the keys still in their grace period and an
append-only log.  The history of activations says what the store is for: which
keys are known, which one is active and when each was retired.
-/

namespace TrustLayer.KeyRotation

open TrustLayer.Library

inductive KeyRotationError where
  | invalidInterval
  | invalidGracePeriod
  | keyNotFound (keyId : Str)
  | keyRetired (keyId : Str)
  deriving DecidableEq

inductive RotationReason where
  | scheduled
  | compromised
  | algorithmMigration
  | operational
  | initial
  deriving DecidableEq

/-- What an operation reads from outside: the clock, a fresh event id, and the
clock again for the event. -/
structure Stamp where
  now : Int
  eventId : Nat
  rotatedAt : Int
  deriving DecidableEq

structure KeyRotationEvent where
  eventId : Nat
  oldKeyId : Option Str
  newKeyId : Str
  rotatedAt : Int
  reason : RotationReason
  operator : Option Str
  notes : Option Str
  deriving DecidableEq

def KeyRotationEvent.new (oldKeyId : Option Str) (newKeyId : Str)
    (reason : RotationReason) (stamp : Stamp) : KeyRotationEvent :=
  { eventId := stamp.eventId
    oldKeyId
    newKeyId
    rotatedAt := stamp.rotatedAt
    reason
    operator := none
    notes := none }

/-! ## Policy -/

structure KeyRotationPolicy where
  rotationInterval : Int
  gracePeriod : Int
  warnAfter : Option Int
  deriving DecidableEq

namespace KeyRotationPolicy

def validate (policy : KeyRotationPolicy) : Except KeyRotationError Unit :=
  if policy.rotationInterval ≤ 0 then .error .invalidInterval
  else if policy.gracePeriod < 0 then .error .invalidGracePeriod
  else .ok ()

/-- Past the warning threshold and not yet past the deadline. -/
def shouldWarn (policy : KeyRotationPolicy) (lastRotatedAt now : Int) : Bool :=
  let warnAfter := policy.warnAfter.getD (policy.rotationInterval.tdiv 2)
  let elapsed := now - lastRotatedAt
  decide (elapsed ≥ warnAfter) && decide (elapsed < policy.rotationInterval)

def shouldRotate (policy : KeyRotationPolicy) (lastRotatedAt now : Int) :
    Bool :=
  decide (now - lastRotatedAt ≥ policy.rotationInterval)

/-- The warning ends where the deadline begins. -/
theorem not_shouldRotate_of_shouldWarn {policy : KeyRotationPolicy}
    {lastRotatedAt now : Int} (warns : policy.shouldWarn lastRotatedAt now) :
    policy.shouldRotate lastRotatedAt now = false := by
  simp only [shouldWarn, Bool.and_eq_true, decide_eq_true_eq] at warns
  simp only [shouldRotate, decide_eq_false_iff_not]
  omega

end KeyRotationPolicy

/-! ## The store -/

structure KeyStore where
  policy : KeyRotationPolicy
  activeKeyId : Option Str
  graceKeys : List (Str × Int)
  rotationLog : List KeyRotationEvent
  deriving DecidableEq

namespace KeyStore

def new (policy : KeyRotationPolicy) : KeyStore :=
  { policy, activeKeyId := none, graceKeys := [], rotationLog := [] }

/-- The previous active key moves to grace. -/
def rotate (store : KeyStore) (newKeyId : Str) (reason : RotationReason)
    (operator : Option Str) (stamp : Stamp) :
    Except KeyRotationError Unit × KeyStore :=
  match store.policy.validate with
  | .error error => (.error error, store)
  | .ok () =>
      let graceKeys :=
        match store.activeKeyId with
        | some old => store.graceKeys ++ [(old, stamp.now)]
        | none => store.graceKeys
      let event := KeyRotationEvent.new
        (store.rotationLog.getLast?.map KeyRotationEvent.newKeyId) newKeyId
        reason stamp
      (.ok (), { store with
        activeKeyId := some newKeyId
        graceKeys
        rotationLog := store.rotationLog ++ [{ event with operator }] })

/-- Once a key is active this is a regular rotation. -/
def activateInitial (store : KeyStore) (keyId : Str) (stamp : Stamp) :
    Except KeyRotationError Unit × KeyStore :=
  match store.policy.validate with
  | .error error => (.error error, store)
  | .ok () =>
      if store.activeKeyId.isSome then
        store.rotate keyId .operational none stamp
      else
        (.ok (), { store with
          activeKeyId := some keyId
          rotationLog := store.rotationLog ++
            [KeyRotationEvent.new none keyId .initial stamp] })

def evictRetiredKeys (store : KeyStore) (now : Int) : KeyStore :=
  { store with
    graceKeys := store.graceKeys.filter fun key =>
      decide (now - key.2 < store.policy.gracePeriod) }

@[simp] theorem evictRetiredKeys_rotationLog (store : KeyStore) (now : Int) :
    (store.evictRetiredKeys now).rotationLog = store.rotationLog :=
  rfl

/-- Only an active key or one in grace is acceptable; the expired keys are
evicted on the way. -/
def verifyKeyAcceptable (store : KeyStore) (keyId : Str) (now : Int) :
    Except KeyRotationError Unit × KeyStore :=
  let store := store.evictRetiredKeys now
  if store.activeKeyId = some keyId then (.ok (), store)
  else if store.graceKeys.any fun key => decide (key.1 = keyId) then
    (.ok (), store)
  else if store.rotationLog.any fun event => decide (event.newKeyId = keyId) then
    (.error (.keyRetired keyId), store)
  else (.error (.keyNotFound keyId), store)

end KeyStore

/-! ## Runs -/

inductive Operation where
  | activateInitial (keyId : Str)
  | rotate (newKeyId : Str) (reason : RotationReason) (operator : Option Str)
  | verifyKeyAcceptable (keyId : Str)
  deriving DecidableEq

def KeyStore.apply (store : KeyStore) (operation : Operation) (stamp : Stamp) :
    Except KeyRotationError Unit × KeyStore :=
  match operation with
  | .activateInitial keyId => store.activateInitial keyId stamp
  | .rotate newKeyId reason operator =>
      store.rotate newKeyId reason operator stamp
  | .verifyKeyAcceptable keyId => store.verifyKeyAcceptable keyId stamp.now

abbrev Run :=
  List (Operation × Stamp)

/-- No operation reads an earlier time than one before it. -/
def MonotoneClock (run : Run) : Prop :=
  run.Pairwise fun earlier later => earlier.2.now ≤ later.2.now

instance (run : Run) : Decidable (MonotoneClock run) :=
  inferInstanceAs (Decidable (List.Pairwise _ run))

def KeyStore.after (policy : KeyRotationPolicy) (run : Run) : KeyStore :=
  run.foldl (fun store call => (store.apply call.1 call.2).2) (new policy)

/-! ## The history of activations -/

/-- A key and the time since which it is active. -/
structure Activation where
  keyId : Str
  since : Int
  deriving DecidableEq

/-- The key that an operation activates under a valid policy. -/
def Operation.activates : Operation → Option Str
  | .activateInitial keyId => some keyId
  | .rotate newKeyId _ _ => some newKeyId
  | .verifyKeyAcceptable _ => none

def activationOf (policy : KeyRotationPolicy) (call : Operation × Stamp) :
    Option Activation :=
  if policy.validate = .ok () then
    call.1.activates.map fun keyId => { keyId, since := call.2.now }
  else none

def history (policy : KeyRotationPolicy) (run : Run) : List Activation :=
  run.filterMap (activationOf policy)

/-- A key is retired when the one after it is activated. -/
def retirements : List Activation → List (Str × Int)
  | first :: second :: later =>
      (first.keyId, second.since) :: retirements (second :: later)
  | _ => []

def Known (activations : List Activation) (keyId : Str) : Prop :=
  ∃ activation ∈ activations, activation.keyId = keyId

def Active (activations : List Activation) (keyId : Str) : Prop :=
  activations.getLast?.map Activation.keyId = some keyId

instance (activations : List Activation) (keyId : Str) :
    Decidable (Active activations keyId) :=
  inferInstanceAs (Decidable (_ = _))

/-- Retired less than the grace period ago. -/
def InGrace (activations : List Activation) (gracePeriod : Int) (keyId : Str)
    (now : Int) : Prop :=
  ∃ retiredAt, (keyId, retiredAt) ∈ retirements activations ∧
    now - retiredAt < gracePeriod

theorem retirements_append (activations : List Activation)
    (last next : Activation) :
    retirements (activations ++ [last] ++ [next]) =
      retirements (activations ++ [last]) ++ [(last.keyId, next.since)] := by
  induction activations with
  | nil => rfl
  | cons first activations induction =>
      cases activations with
      | nil => rfl
      | cons second activations =>
          simpa [retirements] using induction

theorem known_of_active {activations : List Activation} {keyId : Str}
    (active : Active activations keyId) : Known activations keyId := by
  obtain ⟨last, isLast, same⟩ := Option.map_eq_some_iff.mp active
  exact ⟨last, List.mem_of_getLast? isLast, same⟩

theorem known_of_mem_retirements {activations : List Activation}
    {key : Str × Int} (retired : key ∈ retirements activations) :
    Known activations key.1 := by
  fun_induction retirements activations with
  | case1 first second later induction =>
      rcases List.mem_cons.mp retired with rfl | inLater
      · exact ⟨first, List.mem_cons_self, rfl⟩
      · obtain ⟨activation, member, same⟩ := induction inLater
        exact ⟨activation, List.mem_cons_of_mem _ member, same⟩
  | case2 => cases retired

/-- A new activation retires the key that was active. -/
theorem mem_retirements_append {activations : List Activation}
    {next : Activation} {key : Str × Int} :
    key ∈ retirements (activations ++ [next]) ↔
      key ∈ retirements activations ∨
        Active activations key.1 ∧ key.2 = next.since := by
  rcases List.eq_nil_or_concat activations with rfl | ⟨before, last, rfl⟩
  · simp [retirements, Active]
  · rw [List.concat_eq_append, retirements_append, List.mem_append,
      List.mem_singleton, Active, List.getLast?_concat, Option.map_some,
      Option.some.injEq, Prod.ext_iff, @eq_comm _ last.keyId]

/-! ## The store represents the history -/

/-- The log is a chain: every record's old key is the new key of the record
before it. -/
def ChainedLog (log : List KeyRotationEvent) : Prop :=
  LinkedFrom KeyRotationEvent.oldKeyId (fun event => some event.newKeyId) none
    log

structure Represents (store : KeyStore) (activations : List Activation)
    (clock : Int) : Prop where
  chained : ChainedLog store.rotationLog
  logged : store.rotationLog.map KeyRotationEvent.newKeyId =
    activations.map Activation.keyId
  active : store.activeKeyId =
    store.rotationLog.getLast?.map KeyRotationEvent.newKeyId
  retired : ∀ key ∈ store.graceKeys, key ∈ retirements activations
  kept : ∀ key ∈ retirements activations,
    clock - key.2 < store.policy.gracePeriod → key ∈ store.graceKeys

namespace Represents

variable {store : KeyStore} {activations : List Activation} {clock : Int}

theorem mono (represents : Represents store activations clock) {later : Int}
    (passes : clock ≤ later) : Represents store activations later :=
  { represents with
    kept := fun key member grace =>
      represents.kept key member (by omega) }

theorem active_iff (represents : Represents store activations clock)
    (keyId : Str) :
    store.activeKeyId = some keyId ↔ Active activations keyId := by
  rw [represents.active, Active, ← List.getLast?_map, represents.logged,
    List.getLast?_map]

theorem known_iff (represents : Represents store activations clock)
    (keyId : Str) :
    (∃ event ∈ store.rotationLog, event.newKeyId = keyId) ↔
      Known activations keyId := by
  have members := congrArg (keyId ∈ ·) represents.logged
  simpa only [Known, List.mem_map, eq_iff_iff] using members

end Represents

theorem represents_new (policy : KeyRotationPolicy) (clock : Int) :
    Represents (.new policy) [] clock :=
  { chained := trivial
    logged := rfl
    active := rfl
    retired := by simp [KeyStore.new]
    kept := by simp [retirements] }

/-! ## Steps -/

/-- What an activation under a valid policy does to the store. -/
structure Activates (store next : KeyStore) (keyId : Str) (now : Int) :
    Prop where
  policy : next.policy = store.policy
  active : next.activeKeyId = some keyId
  grace : next.graceKeys =
    store.graceKeys ++ (store.activeKeyId.map fun old => (old, now)).toList
  logged : ∃ event, next.rotationLog = store.rotationLog ++ [event] ∧
    event.newKeyId = keyId ∧
    event.oldKeyId = store.rotationLog.getLast?.map KeyRotationEvent.newKeyId

namespace KeyStore

variable {store : KeyStore}

theorem rotate_activates (valid : store.policy.validate = .ok ())
    (newKeyId : Str) (reason : RotationReason) (operator : Option Str)
    (stamp : Stamp) :
    (store.rotate newKeyId reason operator stamp).1 = .ok () ∧
      Activates store (store.rotate newKeyId reason operator stamp).2 newKeyId
        stamp.now := by
  rw [rotate, valid]
  refine ⟨rfl, rfl, rfl, ?_, _, rfl, rfl, rfl⟩
  cases store.activeKeyId with
  | none => simp
  | some old => rfl

theorem activateInitial_activates (valid : store.policy.validate = .ok ())
    (active : store.activeKeyId =
      store.rotationLog.getLast?.map KeyRotationEvent.newKeyId)
    (keyId : Str) (stamp : Stamp) :
    (store.activateInitial keyId stamp).1 = .ok () ∧
      Activates store (store.activateInitial keyId stamp).2 keyId
        stamp.now := by
  rw [activateInitial, valid]
  cases first : store.activeKeyId with
  | some old =>
      simpa [first] using rotate_activates valid keyId .operational none stamp
  | none =>
      refine ⟨rfl, rfl, rfl, by simp [first], _, rfl, rfl, ?_⟩
      exact first.symm.trans active

/-- Under an invalid policy nothing is activated. -/
theorem apply_of_invalid {error : KeyRotationError}
    (invalid : store.policy.validate = .error error) {operation : Operation}
    {keyId : Str} (activates : operation.activates = some keyId)
    (stamp : Stamp) : store.apply operation stamp = (.error error, store) := by
  cases operation with
  | activateInitial keyId => rw [apply, activateInitial, invalid]
  | rotate newKeyId reason operator => rw [apply, rotate, invalid]
  | verifyKeyAcceptable keyId => cases activates

theorem apply_activates (valid : store.policy.validate = .ok ())
    (active : store.activeKeyId =
      store.rotationLog.getLast?.map KeyRotationEvent.newKeyId)
    {operation : Operation} {keyId : Str}
    (activates : operation.activates = some keyId) (stamp : Stamp) :
    (store.apply operation stamp).1 = .ok () ∧
      Activates store (store.apply operation stamp).2 keyId stamp.now := by
  cases operation with
  | activateInitial keyId =>
      cases activates
      exact activateInitial_activates valid active keyId stamp
  | rotate newKeyId reason operator =>
      cases activates
      exact rotate_activates valid keyId reason operator stamp
  | verifyKeyAcceptable keyId => cases activates

theorem verifyKeyAcceptable_store (keyId : Str) (now : Int) :
    (store.verifyKeyAcceptable keyId now).2 = store.evictRetiredKeys now := by
  unfold verifyKeyAcceptable
  dsimp only
  split_ifs <;> rfl

end KeyStore

theorem Represents.evict {store : KeyStore} {activations : List Activation}
    {now : Int} (represents : Represents store activations now) :
    Represents (store.evictRetiredKeys now) activations now :=
  { represents with
    retired := fun key member =>
      represents.retired key (List.mem_filter.mp member).1
    kept := fun key member grace =>
      List.mem_filter.mpr
        ⟨represents.kept key member grace, decide_eq_true grace⟩ }

theorem Represents.activate {store next : KeyStore}
    {activations : List Activation} {now : Int} {keyId : Str}
    (represents : Represents store activations now)
    (activates : Activates store next keyId now) :
    Represents next (activations ++ [{ keyId, since := now }]) now := by
  obtain ⟨event, log, newKey, oldKey⟩ := activates.logged
  have grace : ∀ key : Str × Int, key ∈ next.graceKeys ↔
      key ∈ store.graceKeys ∨ Active activations key.1 ∧ key.2 = now := by
    intro key
    rw [activates.grace, List.mem_append, Option.mem_toList,
      Option.map_eq_some_iff, ← represents.active_iff]
    refine or_congr_right ⟨?_, fun found => ⟨key.1, found.1, ?_⟩⟩
    · rintro ⟨old, active, rfl⟩
      exact ⟨active, rfl⟩
    · rw [← found.2]
  refine
    { chained := ?_
      logged := ?_
      active := ?_
      retired := fun key member => ?_
      kept := fun key member recent => ?_ }
  · rw [ChainedLog, log, linkedFrom_concat]
    refine ⟨represents.chained, oldKey.trans ?_⟩
    rw [rootFrom]
    cases store.rotationLog.getLast? <;> rfl
  · rw [log, List.map_append, List.map_append, represents.logged]
    simp [newKey]
  · rw [activates.active, log, List.getLast?_concat, Option.map_some, newKey]
  · rw [mem_retirements_append]
    exact ((grace key).mp member).imp_left (represents.retired key)
  · rw [grace]
    rw [activates.policy] at recent
    exact (mem_retirements_append.mp member).imp_left fun earlier =>
      represents.kept key earlier recent

theorem policy_apply (store : KeyStore) (operation : Operation)
    (stamp : Stamp) :
    (store.apply operation stamp).2.policy = store.policy := by
  cases valid : store.policy.validate with
  | error error =>
      cases operation with
      | verifyKeyAcceptable keyId =>
          rw [KeyStore.apply, KeyStore.verifyKeyAcceptable_store]
          rfl
      | _ => rw [KeyStore.apply_of_invalid valid rfl]
  | ok _ =>
      cases operation with
      | activateInitial keyId =>
          rw [KeyStore.apply, KeyStore.activateInitial, valid]
          dsimp only
          split_ifs
          · exact (KeyStore.rotate_activates valid keyId _ none stamp).2.policy
          · rfl
      | rotate newKeyId reason operator =>
          exact (KeyStore.rotate_activates valid newKeyId _ _ stamp).2.policy
      | verifyKeyAcceptable keyId =>
          rw [KeyStore.apply, KeyStore.verifyKeyAcceptable_store]
          rfl

/-- One operation keeps the store in step with the history. -/
theorem Represents.apply {store : KeyStore} {activations : List Activation}
    {operation : Operation} {stamp : Stamp}
    (represents : Represents store activations stamp.now) :
    Represents (store.apply operation stamp).2
      (activations ++ (activationOf store.policy (operation, stamp)).toList)
      stamp.now := by
  cases activates : operation.activates with
  | none =>
      cases operation with
      | verifyKeyAcceptable keyId =>
          rw [KeyStore.apply, KeyStore.verifyKeyAcceptable_store]
          simpa [activationOf, activates] using represents.evict
      | _ => cases activates
  | some keyId =>
      cases valid : store.policy.validate with
      | error error =>
          rw [KeyStore.apply_of_invalid valid activates]
          simpa [activationOf, valid] using represents
      | ok _ =>
          have activated := represents.activate
            (KeyStore.apply_activates valid represents.active activates stamp).2
          simpa [activationOf, valid, activates] using activated

theorem after_concat (policy : KeyRotationPolicy) (run : Run)
    (call : Operation × Stamp) :
    KeyStore.after policy (run ++ [call]) =
      ((KeyStore.after policy run).apply call.1 call.2).2 := by
  simp [KeyStore.after]

theorem policy_after (policy : KeyRotationPolicy) (run : Run) :
    (KeyStore.after policy run).policy = policy := by
  induction run using List.reverseRecOn with
  | nil => rfl
  | append_singleton run call induction =>
      rw [after_concat, policy_apply, induction]

/-- Every run under a monotone clock keeps the store in step with the
history. -/
theorem represents_after (policy : KeyRotationPolicy) {run : Run}
    (monotone : MonotoneClock run) {clock : Int}
    (passed : ∀ call ∈ run, call.2.now ≤ clock) :
    Represents (.after policy run) (history policy run) clock := by
  induction run using List.reverseRecOn generalizing clock with
  | nil => exact represents_new policy clock
  | append_singleton run call induction =>
      obtain ⟨earlier, -, ordered⟩ := List.pairwise_append.mp monotone
      have before := induction earlier fun other member =>
        ordered other member call (List.mem_singleton_self call)
      have step : Represents
          ((KeyStore.after policy run).apply call.1 call.2).2
          (history policy run ++ (activationOf policy call).toList)
          call.2.now := by
        have applied := @Represents.apply _ _ call.1 call.2 before
        rwa [policy_after] at applied
      rw [after_concat, history, List.filterMap_append]
      have last : List.filterMap (activationOf policy) [call] =
          (activationOf policy call).toList := by
        cases same : activationOf policy call <;> simp [same]
      rw [last]
      exact step.mono (passed call (by simp))

/-! ## Acceptance -/

theorem grace_evict_iff {store : KeyStore} {activations : List Activation}
    {now : Int} (represents : Represents store activations now)
    (keyId : Str) :
    (∃ key ∈ (store.evictRetiredKeys now).graceKeys, key.1 = keyId) ↔
      InGrace activations store.policy.gracePeriod keyId now := by
  constructor
  · rintro ⟨key, member, rfl⟩
    obtain ⟨kept, recent⟩ := List.mem_filter.mp member
    exact ⟨key.2, represents.retired key kept, of_decide_eq_true recent⟩
  · rintro ⟨retiredAt, retired, recent⟩
    exact ⟨(keyId, retiredAt), List.mem_filter.mpr
      ⟨represents.kept _ retired recent, decide_eq_true recent⟩, rfl⟩

/-- The answer about a key, by the history. -/
theorem verifyKeyAcceptable_iff {store : KeyStore}
    {activations : List Activation} {now : Int}
    (represents : Represents store activations now) (keyId : Str) :
    ((store.verifyKeyAcceptable keyId now).1 = .ok () ↔
      Active activations keyId ∨
        InGrace activations store.policy.gracePeriod keyId now) ∧
    ((store.verifyKeyAcceptable keyId now).1 = .error (.keyRetired keyId) ↔
      Known activations keyId ∧ ¬ Active activations keyId ∧
        ¬ InGrace activations store.policy.gracePeriod keyId now) ∧
    ((store.verifyKeyAcceptable keyId now).1 = .error (.keyNotFound keyId) ↔
      ¬ Known activations keyId) := by
  have activeKnown : Active activations keyId → Known activations keyId :=
    known_of_active
  have graceKnown : InGrace activations store.policy.gracePeriod keyId now →
      Known activations keyId :=
    fun ⟨_, retired, _⟩ => known_of_mem_retirements retired
  have known : ((store.evictRetiredKeys now).rotationLog.any
      fun event => decide (event.newKeyId = keyId)) = true ↔
        Known activations keyId := by
    simpa using represents.known_iff keyId
  have grace : ((store.evictRetiredKeys now).graceKeys.any
      fun key => decide (key.1 = keyId)) = true ↔
        InGrace activations store.policy.gracePeriod keyId now := by
    simpa using grace_evict_iff represents keyId
  have active : (store.evictRetiredKeys now).activeKeyId = some keyId ↔
      Active activations keyId := represents.active_iff keyId
  unfold KeyStore.verifyKeyAcceptable
  dsimp only
  by_cases isActive : Active activations keyId
  · rw [if_pos (active.mpr isActive)]
    simp [isActive, activeKnown isActive]
  · rw [if_neg (mt active.mp isActive)]
    by_cases inGrace : InGrace activations store.policy.gracePeriod keyId now
    · rw [if_pos (grace.mpr inGrace)]
      simp [inGrace, graceKnown inGrace]
    · rw [if_neg (mt grace.mp inGrace)]
      by_cases isKnown : Known activations keyId
      · rw [if_pos (known.mpr isKnown)]
        simp [isActive, inGrace, isKnown]
      · rw [if_neg (mt known.mp isKnown)]
        simp [isActive, inGrace, isKnown]

/-- The store answers by the history of every run under a monotone clock, its
log is a chain that ends in the active key, and a failed activation changes
nothing. -/
theorem keyStore_follows_history (policy : KeyRotationPolicy) (run : Run)
    (monotone : MonotoneClock run) (keyId : Str) (now : Int)
    (passed : ∀ call ∈ run, call.2.now ≤ now) :
    let store := KeyStore.after policy run
    let activations := history policy run
    (ChainedLog store.rotationLog ∧
      store.activeKeyId =
        store.rotationLog.getLast?.map KeyRotationEvent.newKeyId) ∧
    (((store.verifyKeyAcceptable keyId now).1 = .ok () ↔
        Active activations keyId ∨
          InGrace activations policy.gracePeriod keyId now) ∧
      ((store.verifyKeyAcceptable keyId now).1 = .error (.keyRetired keyId) ↔
        Known activations keyId ∧ ¬ Active activations keyId ∧
          ¬ InGrace activations policy.gracePeriod keyId now) ∧
      ((store.verifyKeyAcceptable keyId now).1 = .error (.keyNotFound keyId) ↔
        ¬ Known activations keyId)) ∧
    ∀ (operation : Operation) (stamp : Stamp) (error : KeyRotationError),
      (store.apply operation stamp).1 = .error error →
        operation.activates.isSome → (store.apply operation stamp).2 = store := by
  intro store activations
  have represents : Represents store activations now :=
    represents_after policy monotone passed
  have answers := verifyKeyAcceptable_iff represents keyId
  rw [show store.policy = policy from policy_after policy run] at answers
  refine ⟨⟨represents.chained, represents.active⟩, answers, ?_⟩
  intro operation stamp error failed activation
  obtain ⟨activated, activates⟩ := Option.isSome_iff_exists.mp activation
  cases valid : store.policy.validate with
  | error _ => rw [KeyStore.apply_of_invalid valid activates]
  | ok _ =>
      have succeeded :=
        (KeyStore.apply_activates valid represents.active activates stamp).1
      cases failed.symm.trans succeeded

def thirtyDays : KeyRotationPolicy :=
  { rotationInterval := 90, gracePeriod := 30, warnAfter := some 45 }

/-- `a` is activated at 0 and rotated away at 100. -/
def rotatedOnce : Run :=
  [(.activateInitial ['a'], { now := 0, eventId := 1, rotatedAt := 0 }),
    (.rotate ['b'] .scheduled none,
      { now := 100, eventId := 2, rotatedAt := 101 })]

theorem keyStore_follows_history_rotated :
    ((KeyStore.after thirtyDays rotatedOnce).verifyKeyAcceptable ['a'] 129).1 =
        .ok () ∧
      ((KeyStore.after thirtyDays rotatedOnce).verifyKeyAcceptable
        ['a'] 130).1 = .error (.keyRetired ['a']) :=
  ⟨(keyStore_follows_history thirtyDays rotatedOnce (by decide) ['a'] 129
      (by decide)).2.1.1.mpr (.inr ⟨100, by decide, by decide⟩),
    (keyStore_follows_history thirtyDays rotatedOnce (by decide) ['a'] 130
      (by decide)).2.1.2.1.mpr (by
        refine ⟨⟨⟨['a'], 0⟩, by decide, rfl⟩, by decide, ?_⟩
        rintro ⟨retiredAt, retired, recent⟩
        have only : retirements (history thirtyDays rotatedOnce) =
            [(['a'], 100)] := by decide
        rw [only] at retired
        cases List.mem_singleton.mp retired
        revert recent
        decide)⟩

/-! ## Compromised keys -/

/-- A rotation of the run, made with reason `Compromised` at this time,
replaced the key. -/
def CompromisedAt (policy : KeyRotationPolicy) (run : Run) (keyId : Str)
    (time : Int) : Prop :=
  ∃ (before : Run) (newKeyId : Str) (operator : Option Str) (stamp : Stamp)
    (later : Run),
    run = before ++ (.rotate newKeyId .compromised operator, stamp) :: later ∧
      ((KeyStore.after policy before).rotate newKeyId .compromised operator
        stamp).1 = .ok () ∧
      (KeyStore.after policy before).activeKeyId = some keyId ∧
      stamp.now = time

theorem mem_retirements_of_front {earlier : List Activation} {key : Str × Int}
    (retired : key ∈ retirements earlier) (later : List Activation) :
    key ∈ retirements (earlier ++ later) := by
  induction later using List.reverseRecOn with
  | nil => simpa using retired
  | append_singleton later next induction =>
      rw [← List.append_assoc]
      exact mem_retirements_append.mpr (.inl induction)

/-- The reason of a rotation does not keep the key it replaced from being
retired like any other. -/
theorem CompromisedAt.retired {policy : KeyRotationPolicy} {run : Run}
    {keyId : Str} {time : Int} (compromised : CompromisedAt policy run keyId time)
    (monotone : MonotoneClock run) :
    (keyId, time) ∈ retirements (history policy run) := by
  obtain ⟨before, newKeyId, operator, stamp, later, rfl, rotated, active, rfl⟩ :=
    compromised
  obtain ⟨earlier, -, ordered⟩ := List.pairwise_append.mp monotone
  have represents : Represents (.after policy before) (history policy before)
      stamp.now :=
    represents_after policy earlier fun call member =>
      ordered call member _ List.mem_cons_self
  have valid : policy.validate = .ok () := by
    rw [← policy_after policy before]
    cases valid : (KeyStore.after policy before).policy.validate with
    | ok _ => rfl
    | error error =>
        rw [KeyStore.rotate, valid] at rotated
        cases rotated
  have activation : activationOf policy
      (.rotate newKeyId .compromised operator, stamp) =
        some { keyId := newKeyId, since := stamp.now } := by
    simp [activationOf, valid, Operation.activates]
  have split : history policy
      (before ++ (.rotate newKeyId .compromised operator, stamp) :: later) =
        history policy before ++ [{ keyId := newKeyId, since := stamp.now }] ++
          history policy later := by
    simp [history, List.filterMap_append, activation]
  rw [split]
  apply mem_retirements_of_front
  exact mem_retirements_append.mpr
    (.inr ⟨(represents.active_iff keyId).mp active, rfl⟩)

/-- The key that a rotation with reason `Compromised` replaced is acceptable
throughout its grace period, and retired once that of every replacement is over
unless it has been activated again. -/
theorem compromised_key_in_grace (policy : KeyRotationPolicy) (run : Run)
    (monotone : MonotoneClock run) (keyId : Str) (time now : Int)
    (passed : ∀ call ∈ run, call.2.now ≤ now)
    (compromised : CompromisedAt policy run keyId time) :
    let answer := ((KeyStore.after policy run).verifyKeyAcceptable keyId now).1
    (now - time < policy.gracePeriod → answer = .ok ()) ∧
      ((∃ error, answer = .error error) ↔
        ¬ Active (history policy run) keyId ∧
          ∀ retiredAt, (keyId, retiredAt) ∈ retirements (history policy run) →
            policy.gracePeriod ≤ now - retiredAt) ∧
      ∀ error, answer = .error error → error = .keyRetired keyId := by
  intro answer
  have represents : Represents (.after policy run) (history policy run) now :=
    represents_after policy monotone passed
  have answers := verifyKeyAcceptable_iff represents keyId
  rw [policy_after] at answers
  have retired := compromised.retired monotone
  have known : Known (history policy run) keyId :=
    known_of_mem_retirements retired
  have expired : ¬ InGrace (history policy run) policy.gracePeriod keyId now ↔
      ∀ retiredAt, (keyId, retiredAt) ∈ retirements (history policy run) →
        policy.gracePeriod ≤ now - retiredAt := by
    simp [InGrace]
  have retiredIff : answer = .error (.keyRetired keyId) ↔
      ¬ Active (history policy run) keyId ∧
        ∀ retiredAt, (keyId, retiredAt) ∈ retirements (history policy run) →
          policy.gracePeriod ≤ now - retiredAt := by
    rw [← expired]
    exact answers.2.1.trans (and_iff_right known)
  have only : ∀ error, answer = .error error → error = .keyRetired keyId := by
    intro error failed
    by_cases accepted : Active (history policy run) keyId ∨
        InGrace (history policy run) policy.gracePeriod keyId now
    · cases failed.symm.trans (answers.1.mpr accepted)
    · have refused := answers.2.1.mpr ⟨known, not_or.mp accepted⟩
      cases failed.symm.trans refused
      rfl
  refine ⟨fun recent => answers.1.mpr (.inr ⟨time, retired, recent⟩), ?_, only⟩
  rw [← retiredIff]
  constructor
  · rintro ⟨error, failed⟩
    rw [failed, only error failed]
  · intro failed
    exact ⟨_, failed⟩

/-- `a` is activated at 0 and found compromised at 100. -/
def compromisedOnce : Run :=
  [(.activateInitial ['a'], { now := 0, eventId := 1, rotatedAt := 0 }),
    (.rotate ['b'] .compromised none,
      { now := 100, eventId := 2, rotatedAt := 101 })]

theorem compromisedAt_compromisedOnce :
    CompromisedAt thirtyDays compromisedOnce ['a'] 100 :=
  ⟨[(.activateInitial ['a'], { now := 0, eventId := 1, rotatedAt := 0 })],
    ['b'], none, { now := 100, eventId := 2, rotatedAt := 101 }, [], rfl, rfl,
    rfl, rfl⟩

theorem compromised_key_in_grace_once :
    (∃ error, ((KeyStore.after thirtyDays compromisedOnce).verifyKeyAcceptable
      ['a'] 130).1 = .error error) ∧
    ((KeyStore.after thirtyDays compromisedOnce).verifyKeyAcceptable
      ['a'] 129).1 = .ok () := by
  refine ⟨(compromised_key_in_grace thirtyDays compromisedOnce (by decide) ['a']
      100 130 (by decide) compromisedAt_compromisedOnce).2.1.mpr
        ⟨by decide, ?_⟩,
    (compromised_key_in_grace thirtyDays compromisedOnce (by decide) ['a'] 100
      129 (by decide) compromisedAt_compromisedOnce).1 (by decide)⟩
  intro retiredAt retired
  have only : retirements (history thirtyDays compromisedOnce) =
      [(['a'], 100)] := by decide
  rw [only] at retired
  cases List.mem_singleton.mp retired
  decide

/-- The grace period of the policy applies to a compromised key. -/
theorem compromised_key_accepted :
    MonotoneClock compromisedOnce ∧
      CompromisedAt thirtyDays compromisedOnce ['a'] 100 ∧
      ((KeyStore.after thirtyDays compromisedOnce).verifyKeyAcceptable
        ['a'] 101).1 = .ok () :=
  ⟨by decide, compromisedAt_compromisedOnce, by decide⟩

end TrustLayer.KeyRotation
