import TrustLayer.Library.Memo
import TrustLayer.ThemisEvidence.Signer

/-!
# The keyring

The keys of the tenants are derived from one master seed, each of them when it
is first asked for.  The seed can be replaced under the keys that are held.
-/

namespace TrustLayer.ThemisOrchestrator.Tenants

open TrustLayer.Library
open TrustLayer.TlVerify (Seed hexDecode)

/-- HMAC-SHA512. -/
class HmacSha512 where
  mac : (key message : List UInt8) → Vector UInt8 64

/-- A lock is poisoned by a panic of its holder, and no holder can panic. -/
inductive TenantError where
  | unknownTenant (tenantId : Str)
  | crossTenantAccess (tenant targetTenant : Str)
  | emptyTenantId
  deriving DecidableEq

def TenantError.display : TenantError → Str
  | .unknownTenant tenantId => "unknown tenant: ".toList ++ tenantId
  | .crossTenantAccess tenant targetTenant =>
      "cross-tenant access denied: tenant=".toList ++ tenant ++
        " tried to access ".toList ++ targetTenant ++ "'s resource".toList
  | .emptyTenantId => "tenant id must not be empty".toList

def bip32LikeDomain : Str := "themis-3.0-tenant-keyring-v1".toList

/-- A signing key is its secret. -/
structure TenantKeyring where
  masterSeed : Seed
  derived : MemoTable Str Seed

namespace TenantKeyring

def new (masterSeed : Seed) : TenantKeyring :=
  { masterSeed, derived := ∅ }

variable [HmacSha512]

def secretFrom (masterSeed : Seed) (tenantId : Str) : Seed :=
  ((HmacSha512.mac masterSeed.toList
    (utf8Bytes bip32LikeDomain ++ utf8Bytes tenantId)).take 32).cast rfl

def deriveForTenant (keyring : TenantKeyring) (tenantId : Str) : Seed :=
  secretFrom keyring.masterSeed tenantId

def getOrDerive (keyring : TenantKeyring) (tenantId : Str) :
    Except TenantError Seed × TenantKeyring :=
  if tenantId = [] then (.error .emptyTenantId, keyring)
  else
    match keyring.derived.lookup tenantId with
    | some key => (.ok key, keyring)
    | none =>
        let key := keyring.deriveForTenant tenantId
        (.ok key, { keyring with derived := keyring.derived.insert tenantId key })

omit [HmacSha512] in
def evict (keyring : TenantKeyring) (tenantId : Str) : TenantKeyring :=
  { keyring with derived := keyring.derived.erase tenantId }

omit [HmacSha512] in
def count (keyring : TenantKeyring) : Nat :=
  keyring.derived.entries.length

end TenantKeyring

/-! ## Runs -/

/-- What the holders of a keyring do with it. -/
inductive KeyringCall where
  | getOrDerive (tenantId : Str)
  | evict (tenantId : Str)
  /-- The field of the seed is written. -/
  | replaceSeed (masterSeed : Seed)
  deriving DecidableEq

section

variable [HmacSha512]

def TenantKeyring.after (keyring : TenantKeyring) : KeyringCall → TenantKeyring
  | .getOrDerive tenantId => (keyring.getOrDerive tenantId).2
  | .evict tenantId => keyring.evict tenantId
  | .replaceSeed masterSeed => { keyring with masterSeed }

def TenantKeyring.run (keyring : TenantKeyring) (calls : List KeyringCall) :
    TenantKeyring :=
  calls.foldl TenantKeyring.after keyring

/-- The seed in force behind some calls. -/
def seedIn (masterSeed : Seed) : List KeyringCall → Seed
  | [] => masterSeed
  | .replaceSeed replaced :: calls => seedIn replaced calls
  | _ :: calls => seedIn masterSeed calls

/-- What the calls are to the table of the keys: each demand comes with the key
of the seed in force. -/
def keyUses (masterSeed : Seed) : List KeyringCall → List (MemoUse Str Seed)
  | [] => []
  | .getOrDerive tenantId :: calls =>
      if tenantId = [] then keyUses masterSeed calls
      else .demand tenantId (TenantKeyring.secretFrom masterSeed tenantId) ::
        keyUses masterSeed calls
  | .evict tenantId :: calls => .forget tenantId :: keyUses masterSeed calls
  | .replaceSeed replaced :: calls => keyUses replaced calls

theorem derived_getOrDerive {keyring : TenantKeyring} {tenantId : Str}
    (named : tenantId ≠ []) :
    (keyring.getOrDerive tenantId).2 =
      { keyring with
        derived := memoTurn keyring.derived
          (.demand tenantId (keyring.deriveForTenant tenantId)) } := by
  rw [TenantKeyring.getOrDerive, if_neg named, memoTurn]
  cases keyring.derived.lookup tenantId <;> rfl

theorem run_eq (keyring : TenantKeyring) (calls : List KeyringCall) :
    keyring.run calls =
      { masterSeed := seedIn keyring.masterSeed calls
        derived := (keyUses keyring.masterSeed calls).foldl memoTurn
          keyring.derived } := by
  induction calls generalizing keyring with
  | nil => rfl
  | cons call calls induction =>
      rw [TenantKeyring.run, List.foldl_cons, ← TenantKeyring.run, induction]
      cases call with
      | getOrDerive tenantId =>
          by_cases named : tenantId = []
          · simp [TenantKeyring.after, TenantKeyring.getOrDerive, keyUses,
              seedIn, named]
          · simp [TenantKeyring.after, derived_getOrDerive named, keyUses,
              seedIn, named, TenantKeyring.deriveForTenant]
      | evict tenantId => rfl
      | replaceSeed masterSeed => rfl

/-- The key that a keyring answers with, behind any calls: that of the seed in
force when the tenant was first asked for since it was last evicted, and that
of the present seed if it was not. -/
theorem getOrDerive_run_eq_ok_iff (masterSeed : Seed)
    (calls : List KeyringCall) (tenantId : Str) (key : Seed) :
    (((TenantKeyring.new masterSeed).run calls).getOrDerive tenantId).1 =
        .ok key ↔
      tenantId ≠ [] ∧
        (FirstSince (keyUses masterSeed calls) tenantId key ∨
          Idle (keyUses masterSeed calls) tenantId ∧
            key = TenantKeyring.secretFrom (seedIn masterSeed calls)
              tenantId) := by
  have table : ((TenantKeyring.new masterSeed).run calls).derived =
      memoized (keyUses masterSeed calls) :=
    congrArg TenantKeyring.derived (run_eq _ _)
  have seed : ((TenantKeyring.new masterSeed).run calls).masterSeed =
      seedIn masterSeed calls :=
    congrArg TenantKeyring.masterSeed (run_eq _ _)
  rw [← lookup_memoized_eq_some_iff, ← lookup_memoized_eq_none_iff,
    TenantKeyring.getOrDerive, table]
  by_cases named : tenantId = []
  · simp [named]
  · rw [if_neg named, and_iff_right named]
    cases (memoized (keyUses masterSeed calls)).lookup tenantId with
    | some held => simp
    | none =>
        simp only [Except.ok.injEq, reduceCtorEq, false_or, true_and,
          TenantKeyring.deriveForTenant, seed]
        exact eq_comm

/-- The keys that are counted are those of the tenants that were asked for. -/
theorem count_run {masterSeed : Seed} {calls : List KeyringCall}
    {tenants : List Str} (once : tenants.Nodup)
    (held : ∀ tenantId, tenantId ∈ tenants ↔
      ¬ Idle (keyUses masterSeed calls) tenantId) :
    ((TenantKeyring.new masterSeed).run calls).count = tenants.length := by
  rw [TenantKeyring.count, run_eq]
  exact length_memoized once held

/-! ## Rotation -/

/-- The tenant has no key but that of the seed in force. -/
structure Fresh (keyring : TenantKeyring) (seed : Seed) (tenantId : Str) :
    Prop where
  current : keyring.masterSeed = seed
  held : ∀ key ∈ keyring.derived.lookup tenantId,
    key = TenantKeyring.secretFrom seed tenantId

theorem Fresh.after {keyring : TenantKeyring} {seed : Seed} {tenantId : Str}
    (fresh : Fresh keyring seed tenantId) {call : KeyringCall}
    (keeps : ∀ replaced, call ≠ .replaceSeed replaced) :
    Fresh (keyring.after call) seed tenantId := by
  cases call with
  | replaceSeed replaced => exact absurd rfl (keeps replaced)
  | evict other =>
      refine ⟨fresh.current, fun key held => fresh.held key ?_⟩
      by_cases same : tenantId = other
      · subst same
        have gone : (keyring.derived.erase tenantId).lookup tenantId = none :=
          AList.lookup_erase tenantId _
        exact absurd held (by simp [TenantKeyring.after, TenantKeyring.evict, gone])
      · exact (AList.lookup_erase_ne same).symm.trans held
  | getOrDerive other =>
      by_cases named : other = []
      · rw [TenantKeyring.after, TenantKeyring.getOrDerive, if_pos named]
        exact fresh
      · rw [TenantKeyring.after, derived_getOrDerive named]
        refine ⟨fresh.current, fun key held => ?_⟩
        by_cases same : other = tenantId
        · subst same
          rw [lookup_memoTurn_demand] at held
          obtain rfl := Option.some.inj held
          cases old : keyring.derived.lookup other with
          | none => exact congrArg (TenantKeyring.secretFrom · other) fresh.current
          | some earlier => exact fresh.held earlier old
        · rw [lookup_memoTurn_of_ne] at held
          · exact fresh.held key held
          · exact same

theorem Fresh.run {keyring : TenantKeyring} {seed : Seed} {tenantId : Str}
    (fresh : Fresh keyring seed tenantId) {calls : List KeyringCall}
    (keeps : ∀ replaced, .replaceSeed replaced ∉ calls) :
    Fresh (keyring.run calls) seed tenantId := by
  induction calls generalizing keyring with
  | nil => exact fresh
  | cons call calls induction =>
      apply induction (fresh.after ?_)
      · exact fun replaced member => keeps replaced (List.mem_cons_of_mem _ member)
      · rintro replaced rfl
        exact keeps replaced List.mem_cons_self

/-- Replacing the seed and then evicting a tenant rotates its key, whatever was
done before and whatever else is done behind it. -/
theorem getOrDerive_rotated (keyring : TenantKeyring)
    (past later : List KeyringCall) (seed : Seed) (tenantId : Str)
    (named : tenantId ≠ [])
    (keeps : ∀ replaced, .replaceSeed replaced ∉ later) :
    ((keyring.run (past ++ .replaceSeed seed :: .evict tenantId ::
        later)).getOrDerive tenantId).1 =
      .ok (TenantKeyring.secretFrom seed tenantId) := by
  have start : Fresh (((keyring.run past).after (.replaceSeed seed)).after
      (.evict tenantId)) seed tenantId := by
    refine ⟨rfl, fun key held => ?_⟩
    have gone : ((keyring.run past).derived.erase tenantId).lookup tenantId =
        none := AList.lookup_erase tenantId _
    cases gone.symm.trans held
  have fresh := start.run keeps
  have split : keyring.run (past ++ .replaceSeed seed :: .evict tenantId ::
      later) = TenantKeyring.run (((keyring.run past).after
        (.replaceSeed seed)).after (.evict tenantId)) later := by
    simp [TenantKeyring.run, List.foldl_append]
  rw [split, TenantKeyring.getOrDerive, if_neg named]
  cases held : (TenantKeyring.run _ later).derived.lookup tenantId with
  | none => exact congrArg (fun seed =>
      Except.ok (TenantKeyring.secretFrom seed tenantId)) fresh.current
  | some key => exact congrArg Except.ok (fresh.held key held)

end

/-- The key repeated stands in for the code. -/
@[reducible] def keyMac : HmacSha512 where
  mac key _ := Vector.ofFn fun place => key.getD (place.val % 32) 0

theorem getOrDerive_rotated_once :
    (@TenantKeyring.getOrDerive keyMac
      (@TenantKeyring.run keyMac (.new (.replicate 32 1))
        ([KeyringCall.getOrDerive ['a']] ++
          KeyringCall.replaceSeed (.replicate 32 2) ::
            KeyringCall.evict ['a'] :: [KeyringCall.getOrDerive ['b']]))
      ['a']).1 = .ok (@TenantKeyring.secretFrom keyMac (.replicate 32 2) ['a']) :=
  @getOrDerive_rotated keyMac (.new (.replicate 32 1))
    [KeyringCall.getOrDerive ['a']] [KeyringCall.getOrDerive ['b']]
    (.replicate 32 2) ['a'] (by decide) (by simp)

end TrustLayer.ThemisOrchestrator.Tenants
