import TrustLayer.SerdeJson
import TrustLayer.ThemisEvidence

/-!
# The keyed chain root

An HMAC over the JSON text of a tenant's entries.  The tenant is in the text,
and its name is appended to the key as well.
-/

namespace TrustLayer.HmacChain

open TrustLayer.Library hiding Json
open TrustLayer.AgentGuard (Json)
open TrustLayer.SerdeJson
open TrustLayer.ThemisEvidence (ChainEntry)

/-- HMAC-SHA256, third-party code: it takes keys of any length. -/
class HmacSha256 where
  mac : (key message : List UInt8) → Vector UInt8 32

structure HmacChainRoot where
  hex : Str
  deriving DecidableEq

inductive HmacChainError where
  | rootMismatch (expected actual : Str)
  deriving DecidableEq

/-- `to_value` of an entry, with its keys sorted. -/
def entryValue (entry : ChainEntry) : Json :=
  .object [
    ("blake3_hash".toList, .string entry.blake3Hash),
    ("created_at_ms".toList, integer entry.createdAtMs.toInt),
    ("payload".toList, .string entry.payload),
    ("prev_hash".toList, .string entry.prevHash),
    ("sequence".toList, integer entry.sequence.toNat)]

def payload (entries : List ChainEntry) (tenantId : Str) : Json :=
  .object [
    ("entries".toList, .array (entries.map entryValue)),
    ("tenant_id".toList, .string tenantId)]

/-- The canonical payload that is authenticated. -/
def canonical (entries : List ChainEntry) (tenantId : Str) : List UInt8 :=
  toVec (payload entries tenantId)

/-- The two are not separated. -/
def keyWithNamespace (hmacKey : List UInt8) (tenantId : Str) : List UInt8 :=
  hmacKey ++ utf8Bytes tenantId

section

variable [HmacSha256]

def chainRoot (entries : List ChainEntry) (tenantId : Str)
    (hmacKey : List UInt8) : HmacChainRoot :=
  { hex := toHex (HmacSha256.mac (keyWithNamespace hmacKey tenantId)
      (canonical entries tenantId)).toList }

def verifyChain (entries : List ChainEntry) (tenantId : Str)
    (hmacKey : List UInt8) (expectedRoot : Str) : Except HmacChainError Unit :=
  let actual := chainRoot entries tenantId hmacKey
  if actual.hex ≠ expectedRoot then
    .error (.rootMismatch expectedRoot actual.hex)
  else .ok ()

end

/-! ## The payload determines the chain -/

theorem entryValue_injective : Function.Injective entryValue := by
  intro left right same
  simp only [entryValue, Json.object.injEq, List.cons.injEq, Prod.mk.injEq,
    Json.string.injEq, true_and, and_true] at same
  obtain ⟨hash, created, payload, prev, sequence⟩ := same
  have sameCreated := integer_int64_inj created
  have sameSequence := integer_uint64_inj sequence
  cases left
  cases right
  congr

theorem payload_inj {left right : List ChainEntry} {tenant other : Str}
    (same : payload left tenant = payload right other) :
    tenant = other ∧ left = right := by
  simp only [payload, Json.object.injEq, List.cons.injEq, Prod.mk.injEq,
    Json.string.injEq, Json.array.injEq, true_and, and_true] at same
  obtain ⟨entries, tenants⟩ := same
  constructor
  · exact tenants
  · exact List.map_injective_iff.mpr entryValue_injective entries

theorem wellFormed_payload (entries : List ChainEntry) (tenantId : Str) :
    WellFormed (payload entries tenantId) := by
  simp [payload, entryValue]

theorem canonical_inj {left right : List ChainEntry} {tenant other : Str}
    (same : canonical left tenant = canonical right other) :
    tenant = other ∧ left = right := by
  apply payload_inj
  exact toVec_inj (wellFormed_payload left tenant)
    (wellFormed_payload right other) same

section

variable [HmacSha256]

/-! ## The root determines the payload -/

/-- HMAC does not collide on the payloads of two chains. -/
def CollisionFree (hmacKey : List UInt8) (left right : List ChainEntry)
    (tenant other : Str) : Prop :=
  HmacSha256.mac (keyWithNamespace hmacKey tenant) (canonical left tenant) =
      HmacSha256.mac (keyWithNamespace hmacKey other)
        (canonical right other) →
    canonical left tenant = canonical right other

theorem mac_eq_of_chainRoot {hmacKey : List UInt8}
    {left right : List ChainEntry} {tenant other : Str}
    (same : chainRoot left tenant hmacKey = chainRoot right other hmacKey) :
    HmacSha256.mac (keyWithNamespace hmacKey tenant) (canonical left tenant) =
      HmacSha256.mac (keyWithNamespace hmacKey other)
        (canonical right other) := by
  have digits := toHex_injective (HmacChainRoot.mk.inj same)
  exact Vector.toList_inj.mp digits

/-- A root stands for one tenant and one list of entries. -/
theorem chainRoot_inj {hmacKey : List UInt8} {left right : List ChainEntry}
    {tenant other : Str}
    (free : CollisionFree hmacKey left right tenant other)
    (same : chainRoot left tenant hmacKey = chainRoot right other hmacKey) :
    tenant = other ∧ left = right := by
  apply canonical_inj
  apply free
  exact mac_eq_of_chainRoot same

theorem verifyChain_eq_ok_iff {entries : List ChainEntry} {tenantId : Str}
    {hmacKey : List UInt8} {expectedRoot : Str} :
    verifyChain entries tenantId hmacKey expectedRoot = .ok () ↔
      (chainRoot entries tenantId hmacKey).hex = expectedRoot := by
  by_cases same : (chainRoot entries tenantId hmacKey).hex = expectedRoot
  · simp [verifyChain, same]
  · simp [verifyChain, same]

/-- The root of a chain is accepted for that chain alone. -/
theorem verifyChain_chainRoot_iff {hmacKey : List UInt8}
    {left right : List ChainEntry} {tenant other : Str}
    (free : CollisionFree hmacKey left right tenant other) :
    verifyChain left tenant hmacKey (chainRoot right other hmacKey).hex =
        .ok () ↔
      tenant = other ∧ left = right := by
  rw [verifyChain_eq_ok_iff]
  constructor
  · intro same
    apply canonical_inj
    apply free
    exact mac_eq_of_chainRoot (congrArg HmacChainRoot.mk same)
  · intro same
    rw [same.1, same.2]

end

/-! ### One recorded root -/

def helloEntry : ChainEntry where
  sequence := 0
  payload := "hello".toList
  blake3Hash := "hash_0".toList
  prevHash := List.replicate 64 '0'
  createdAtMs := 1700000000000

def worldEntry : ChainEntry where
  sequence := 1
  payload := "world".toList
  blake3Hash := "hash_1".toList
  prevHash := "hash_0".toList
  createdAtMs := 1700000000001

def recordedKey : List UInt8 :=
  utf8Bytes "hmac-key-1".toList

/-- The text of the two entries, for `tenant-a`. -/
def recordedText : Str :=
  "\x7b\"entries\":[".toList ++
    "\x7b\"blake3_hash\":\"hash_0\",\"created_at_ms\":1700000000000,".toList ++
    "\"payload\":\"hello\",\"prev_hash\":\"".toList ++
    List.replicate 64 '0' ++ "\",\"sequence\":0\x7d,".toList ++
    "\x7b\"blake3_hash\":\"hash_1\",\"created_at_ms\":1700000000001,".toList ++
    "\"payload\":\"world\",\"prev_hash\":\"hash_0\",".toList ++
    "\"sequence\":1\x7d],\"tenant_id\":\"tenant-a\"\x7d".toList

def recordedMac : Vector UInt8 32 :=
  #v[0xd5, 0xbd, 0x24, 0xe7, 0x82, 0x65, 0xa9, 0x3f, 0x47, 0x8a, 0xdb, 0xaf,
    0xae, 0xdf, 0xbd, 0x02, 0x8e, 0xe3, 0xa6, 0x01, 0x1a, 0x7e, 0xf3, 0xd4,
    0xc9, 0xc4, 0x1c, 0x9b, 0x1c, 0x96, 0x72, 0x61]

/-- HMAC-SHA256 on that text. -/
@[reducible] def recordedHmac : HmacSha256 where
  mac key message :=
    if key = utf8Bytes "hmac-key-1tenant-a".toList ∧
        message = utf8Bytes recordedText then recordedMac
    else Vector.replicate 32 0

theorem canonical_recorded :
    canonical [helloEntry, worldEntry] "tenant-a".toList =
      utf8Bytes recordedText := by
  have text : print compact 0
      (payload [helloEntry, worldEntry] "tenant-a".toList) = recordedText := by
    decide +kernel
  exact congrArg utf8Bytes text

theorem mac_recorded (message : List UInt8) :
    recordedHmac.mac (keyWithNamespace recordedKey "tenant-a".toList) message =
      if message = utf8Bytes recordedText then recordedMac
      else Vector.replicate 32 0 := by
  have key : keyWithNamespace recordedKey "tenant-a".toList =
      utf8Bytes "hmac-key-1tenant-a".toList := by decide +kernel
  rw [key]
  exact if_congr (and_iff_right rfl) rfl rfl

/-- The root of two entries, which is not the one of the entries swapped. -/
theorem recorded_root_ne :
    @chainRoot recordedHmac [helloEntry, worldEntry] "tenant-a".toList
        recordedKey = { hex := toHex recordedMac.toList } ∧
      @chainRoot recordedHmac [helloEntry, worldEntry] "tenant-a".toList
          recordedKey ≠
        @chainRoot recordedHmac [worldEntry, helloEntry] "tenant-a".toList
          recordedKey := by
  have recorded := mac_recorded
    (canonical [helloEntry, worldEntry] "tenant-a".toList)
  rw [if_pos canonical_recorded] at recorded
  constructor
  · unfold chainRoot
    rw [recorded]
  · intro same
    have free : @CollisionFree recordedHmac recordedKey
        [helloEntry, worldEntry] [worldEntry, helloEntry] "tenant-a".toList
        "tenant-a".toList := by
      intro macs
      by_contra apart
      have other := mac_recorded
        (canonical [worldEntry, helloEntry] "tenant-a".toList)
      rw [if_neg fun text => apart (canonical_recorded.trans text.symm)] at other
      have none : recordedMac = Vector.replicate 32 0 :=
        recorded.symm.trans (macs.trans other)
      exact absurd none (by decide)
    have entries := (@chainRoot_inj recordedHmac recordedKey _ _ _ _ free same).2
    exact absurd entries (by decide)

end TrustLayer.HmacChain
