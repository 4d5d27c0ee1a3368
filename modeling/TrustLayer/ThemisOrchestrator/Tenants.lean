import TrustLayer.ThemisOrchestrator.Keyring

/-!
# The registry of the tenants

A room belongs to a tenant and an invoice.  It is made with a new identifier
when it is first opened, and is the same one from then on.
-/

namespace TrustLayer.ThemisOrchestrator.Tenants

open TrustLayer.Library
open TrustLayer.ThemisEvidence (SignerService)
open TrustLayer.TlVerify (Crates Seed hexDecode)

/-! ## The registry -/

structure Tenant where
  id : Str
  name : Str
  keyId : Str
  ed25519PublicKeyHex : Str
  deriving DecidableEq

structure RoomId where
  uuid : Vector UInt8 16
  deriving DecidableEq

structure TenantRegistry where
  tenants : MemoTable Str Tenant
  rooms : MemoTable (Str × Str) RoomId
  keyring : TenantKeyring

def devSeed : Seed :=
  #v[116, 104, 101, 109, 105, 115, 45, 100, 101, 118, 45, 109, 97, 115, 116,
    101, 114, 45, 115, 101, 101, 100, 45, 100, 111, 45, 110, 111, 116, 45, 117,
    115]

/-- The front of the text in the source. -/
example : devSeed.toList =
    (utf8Bytes "themis-dev-master-seed-do-not-use-in-prod-v0".toList).take 32 := by
  decide

/-- The value of `THEMIS_MASTER_SEED`, if it is set. -/
def loadMasterSeedFromEnv (hexSeed : Option Str) : Seed :=
  match hexSeed with
  | none => devSeed
  | some text =>
      match hexDecode (trim text) with
      | .error _ => devSeed
      | .ok bytes =>
          if sized : bytes.length = 32 then ⟨bytes.toArray, sized⟩ else devSeed

def defaultTenants : List (Str × Str × Str) :=
  [("stark".toList, "Stark Industries".toList, "stark-prod-2026-01".toList),
    ("wayne".toList, "Wayne Enterprises".toList, "wayne-prod-2026-01".toList)]

namespace TenantRegistry

/-- The signers of the tenants are always there. -/
def withDefaultTenantsAndSeed [Crates] (masterSeed : Seed) : TenantRegistry :=
  { tenants := defaultTenants.foldl (fun tenants (id, name, keyId) =>
      tenants.insert id { id, name, keyId
                          ed25519PublicKeyHex :=
                            TlVerify.publicKeyHexOf (TlVerify.seedForTenant id) })
      ∅
    rooms := ∅
    keyring := .new masterSeed }

def get (registry : TenantRegistry) (id : Str) : Option Tenant :=
  registry.tenants.lookup id

/-- `contains_key`. -/
def knows (registry : TenantRegistry) (id : Str) : Bool :=
  (registry.tenants.lookup id).isSome

/-- A room that is made takes the identifier that is drawn for it. -/
def openRoom (registry : TenantRegistry) (tenantId invoiceId : Str)
    (drawn : RoomId) : Except TenantError RoomId × TenantRegistry :=
  if registry.knows tenantId = false then
    (.error (.unknownTenant tenantId), registry)
  else
    match registry.rooms.lookup (tenantId, invoiceId) with
    | some room => (.ok room, registry)
    | none =>
        (.ok drawn, { registry with
          rooms := registry.rooms.insert (tenantId, invoiceId) drawn })

def getRoom (registry : TenantRegistry)
    (requestingTenant targetTenant invoiceId : Str) :
    Except TenantError (Option RoomId) :=
  if requestingTenant ≠ targetTenant then
    .error (.crossTenantAccess requestingTenant targetTenant)
  else if registry.knows targetTenant = false then
    .error (.unknownTenant targetTenant)
  else .ok (registry.rooms.lookup (targetTenant, invoiceId))

def roomCount (registry : TenantRegistry) : Nat :=
  registry.rooms.entries.length

end TenantRegistry

/-! ## Runs -/

/-- A call of `open_room`, with the identifier that is drawn in it. -/
structure Opening where
  tenantId : Str
  invoiceId : Str
  drawn : RoomId
  deriving DecidableEq

namespace TenantRegistry

def openedBy (registry : TenantRegistry) (opening : Opening) :
    Except TenantError RoomId × TenantRegistry :=
  registry.openRoom opening.tenantId opening.invoiceId opening.drawn

def run (registry : TenantRegistry) (openings : List Opening) :
    TenantRegistry :=
  openings.foldl (fun registry opening => (registry.openedBy opening).2) registry

/-- The openings of the tenants that the registry knows, as uses of its
rooms. -/
def roomUses (registry : TenantRegistry) (openings : List Opening) :
    List (MemoUse (Str × Str) RoomId) :=
  (openings.filter fun opening => registry.knows opening.tenantId).map
    fun opening =>
      .demand (opening.tenantId, opening.invoiceId) opening.drawn

end TenantRegistry

section

variable {registry : TenantRegistry} {opening : Opening}

theorem openedBy_of_unknown (unknown : registry.knows opening.tenantId = false) :
    registry.openedBy opening =
      (.error (.unknownTenant opening.tenantId), registry) := by
  rw [TenantRegistry.openedBy, TenantRegistry.openRoom, if_pos unknown]

theorem openedBy_of_known (known : registry.knows opening.tenantId = true) :
    registry.openedBy opening =
      (.ok ((registry.rooms.lookup (opening.tenantId, opening.invoiceId)).getD
        opening.drawn),
        { registry with
          rooms := memoTurn registry.rooms
            (.demand (opening.tenantId, opening.invoiceId) opening.drawn) }) := by
  rw [TenantRegistry.openedBy, TenantRegistry.openRoom,
    if_neg (by simp [known]), memoTurn]
  cases registry.rooms.lookup (opening.tenantId, opening.invoiceId) <;> rfl

theorem run_registry_eq (registry : TenantRegistry) (openings : List Opening) :
    registry.run openings =
      { registry with
        rooms := (registry.roomUses openings).foldl memoTurn registry.rooms } := by
  induction openings generalizing registry with
  | nil => rfl
  | cons opening openings induction =>
      rw [TenantRegistry.run, List.foldl_cons, ← TenantRegistry.run, induction]
      cases known : registry.knows opening.tenantId with
      | false =>
          rw [openedBy_of_unknown known]
          simp [TenantRegistry.roomUses, known]
      | true =>
          rw [openedBy_of_known known]
          have uses : registry.roomUses (opening :: openings) =
              .demand (opening.tenantId, opening.invoiceId) opening.drawn ::
                registry.roomUses openings := by
            simp [TenantRegistry.roomUses, known]
          rw [uses, List.foldl_cons]
          rfl

theorem knows_run (openings : List Opening) (id : Str) :
    (registry.run openings).knows id = registry.knows id := by
  rw [run_registry_eq]
  rfl

theorem forget_not_mem_roomUses (openings : List Opening) (key : Str × Str) :
    .forget key ∉ registry.roomUses openings := by
  simp [TenantRegistry.roomUses]

/-- What an opening answers with is what is held in the end. -/
theorem lookup_run_of_opened {past later : List Opening} {room : RoomId}
    (opened : ((registry.run past).openedBy opening).1 = .ok room) :
    (registry.run (past ++ opening :: later)).rooms.lookup
      (opening.tenantId, opening.invoiceId) = some room := by
  have split : registry.run (past ++ opening :: later) =
      ((registry.run past).openedBy opening).2.run later := by
    simp [TenantRegistry.run, List.foldl_append]
  rw [split]
  cases known : (registry.run past).knows opening.tenantId with
  | false =>
      rw [openedBy_of_unknown known] at opened
      cases opened
  | true =>
      rw [openedBy_of_known known] at opened ⊢
      rw [run_registry_eq]
      apply lookup_foldl_memoTurn _ (forget_not_mem_roomUses _ _)
      exact (lookup_memoTurn_demand _ _).trans
        (congrArg some (Except.ok.inj opened))

end

section

variable [Crates] {masterSeed : Seed} {openings : List Opening}

theorem rooms_run :
    ((TenantRegistry.withDefaultTenantsAndSeed masterSeed).run
        openings).rooms =
      memoized ((TenantRegistry.withDefaultTenantsAndSeed masterSeed).roomUses
        openings) :=
  congrArg TenantRegistry.rooms (run_registry_eq _ _)

theorem roomCount_run {pairs : List (Str × Str)} (once : pairs.Nodup)
    (held : ∀ pair, pair ∈ pairs ↔
      ¬ Idle ((TenantRegistry.withDefaultTenantsAndSeed masterSeed).roomUses
        openings) pair) :
    ((TenantRegistry.withDefaultTenantsAndSeed masterSeed).run
      openings).roomCount = pairs.length := by
  rw [TenantRegistry.roomCount, rooms_run]
  exact length_memoized once held

/-- With identifiers that are drawn but once, two openings of a run answer with
the same room exactly if they are of the same tenant and invoice. -/
theorem openedBy_eq_iff (masterSeed : Seed) (openings : List Opening)
    (distinct : (openings.map Opening.drawn).Nodup)
    (past past' later later' : List Opening) (first second : Opening)
    (here : openings = past ++ first :: later)
    (there : openings = past' ++ second :: later') (room room' : RoomId)
    (opened : (((TenantRegistry.withDefaultTenantsAndSeed masterSeed).run
      past).openedBy first).1 = .ok room)
    (opened' : (((TenantRegistry.withDefaultTenantsAndSeed masterSeed).run
      past').openedBy second).1 = .ok room') :
    room = room' ↔
      first.tenantId = second.tenantId ∧ first.invoiceId = second.invoiceId := by
  have held := @lookup_run_of_opened _ first past later room opened
  have held' := @lookup_run_of_opened _ second past' later' room' opened'
  rw [← here, rooms_run] at held
  rw [← there, rooms_run] at held'
  constructor
  · rintro rfl
    obtain ⟨drawing, member, same⟩ :=
      List.mem_map.mp (demand_mem_of_lookup held)
    obtain ⟨drawing', member', same'⟩ :=
      List.mem_map.mp (demand_mem_of_lookup held')
    obtain ⟨key, drawn⟩ := MemoUse.demand.inj same
    obtain ⟨key', drawn'⟩ := MemoUse.demand.inj same'
    have one : drawing = drawing' :=
      List.inj_on_of_nodup_map distinct (List.mem_of_mem_filter member)
        (List.mem_of_mem_filter member') (drawn.trans drawn'.symm)
    rw [one] at key
    exact Prod.mk.inj (key.symm.trans key')
  · rintro ⟨tenant, invoice⟩
    rw [← tenant, ← invoice, held] at held'
    exact Option.some.inj held'

/-- What is held was answered to some opening. -/
theorem opened_of_lookup_run {key : Str × Str} {room : RoomId}
    (held : ((TenantRegistry.withDefaultTenantsAndSeed masterSeed).run
      openings).rooms.lookup key = some room) :
    ∃ past opening later, openings = past ++ opening :: later ∧
      (opening.tenantId, opening.invoiceId) = key ∧
      (((TenantRegistry.withDefaultTenantsAndSeed masterSeed).run
        past).openedBy opening).1 = .ok room := by
  induction openings using List.reverseRecOn with
  | nil => cases held
  | append_singleton front last induction =>
      have split : (TenantRegistry.withDefaultTenantsAndSeed masterSeed).run
          (front ++ [last]) =
            (((TenantRegistry.withDefaultTenantsAndSeed masterSeed).run
              front).openedBy last).2 := by
        simp [TenantRegistry.run, List.foldl_append]
      rw [split] at held
      have earlier (held : ((TenantRegistry.withDefaultTenantsAndSeed
          masterSeed).run front).rooms.lookup key = some room) :
          ∃ past opening later,
            front ++ [last] = past ++ opening :: later ∧
              (opening.tenantId, opening.invoiceId) = key ∧
              (((TenantRegistry.withDefaultTenantsAndSeed masterSeed).run
                past).openedBy opening).1 = .ok room := by
        obtain ⟨past, opening, later, whole, same, opened⟩ := induction held
        exact ⟨past, opening, later ++ [last], by simp [whole], same, opened⟩
      cases known : ((TenantRegistry.withDefaultTenantsAndSeed masterSeed).run
          front).knows last.tenantId with
      | false =>
          rw [openedBy_of_unknown known] at held
          exact earlier held
      | true =>
          by_cases same : (last.tenantId, last.invoiceId) = key
          · refine ⟨front, last, [], rfl, same, ?_⟩
            rw [openedBy_of_known known] at held ⊢
            subst same
            exact congrArg Except.ok
              (Option.some.inj ((lookup_memoTurn_demand _ _).symm.trans held))
          · rw [openedBy_of_known known] at held
            exact earlier ((lookup_memoTurn_of_ne _ same).symm.trans held)

/-- A room is found exactly by the tenant that opened it, as the room that every
opening of it was answered with. -/
theorem getRoom_run_eq_iff (masterSeed : Seed) (openings : List Opening)
    (requesting target invoice : Str) (room : RoomId) :
    ((TenantRegistry.withDefaultTenantsAndSeed masterSeed).run
        openings).getRoom requesting target invoice = .ok (some room) ↔
      requesting = target ∧
        ∃ past opening later, openings = past ++ opening :: later ∧
          (opening.tenantId, opening.invoiceId) = (target, invoice) ∧
          (((TenantRegistry.withDefaultTenantsAndSeed masterSeed).run
            past).openedBy opening).1 = .ok room := by
  rw [TenantRegistry.getRoom]
  constructor
  · intro found
    split_ifs at found with other unknown
    exact ⟨not_not.mp other, opened_of_lookup_run (Except.ok.inj found)⟩
  · rintro ⟨rfl, past, opening, later, rfl, same, opened⟩
    obtain ⟨rfl, rfl⟩ := Prod.mk.inj same
    have known : ((TenantRegistry.withDefaultTenantsAndSeed masterSeed).run
        past).knows opening.tenantId = true := by
      by_contra unknown
      rw [openedBy_of_unknown (eq_false_of_ne_true unknown)] at opened
      cases opened
    rw [knows_run] at known ⊢
    rw [if_neg (not_not.mpr rfl), if_neg (by simp [known]),
      lookup_run_of_opened opened]

end

/-- Of all the keys, that of `stark` alone. -/
@[reducible] def starkCrates : Crates where
  fromBytes bytes := .ok { bytes }
  verify _ _ _ := false
  publicKey seed :=
    if seed = TlVerify.starkSeed then TlVerify.starkPublic else .replicate 32 0
  hkdfSha256 _ _ _ := .replicate 32 0
  base64Decode _ := none
  toVec _ := []
  rfc3339 _ := []

theorem openedBy_eq_iff_again :
    (⟨.replicate 16 1⟩ : RoomId) = ⟨.replicate 16 1⟩ ↔
      "stark".toList = "stark".toList ∧ ['7'] = ['7'] :=
  @openedBy_eq_iff starkCrates (.replicate 32 0)
    [⟨"stark".toList, ['7'], ⟨.replicate 16 1⟩⟩,
      ⟨"stark".toList, ['7'], ⟨.replicate 16 2⟩⟩]
    (by decide) [] [⟨"stark".toList, ['7'], ⟨.replicate 16 1⟩⟩]
    [⟨"stark".toList, ['7'], ⟨.replicate 16 2⟩⟩] []
    ⟨"stark".toList, ['7'], ⟨.replicate 16 1⟩⟩
    ⟨"stark".toList, ['7'], ⟨.replicate 16 2⟩⟩ rfl rfl
    ⟨.replicate 16 1⟩ ⟨.replicate 16 1⟩ rfl rfl

end TrustLayer.ThemisOrchestrator.Tenants
