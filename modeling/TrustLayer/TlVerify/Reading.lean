import TrustLayer.SerdeJson.Derive
import TrustLayer.TlVerify

/-!
# Reading a packet file

The fields are read by their names, and names that the verifier does not know
are passed over.
-/

namespace TrustLayer.TlVerify

open TrustLayer.Library hiding Json
open TrustLayer.AgentGuard (Json)
open TrustLayer.SerdeJson (Parser fieldsFrom readOption readVec)

/-- Times are nanoseconds since the epoch. -/
class Chrono where
  fromTimestampMillis : Int → Option Int
  /-- `to_rfc3339_opts`, to the second and with a `Z`. -/
  rfc3339Secs : Int → Str
  /-- `str::parse` at `DateTime<Utc>`. -/
  parse : Str → Option Int

namespace PacketFile

def names : List Str := [
  "case_id".toList, "tenant_id".toList, "agent_outputs".toList,
  "hash_chain_link".toList, "reference_database".toList,
  "policy_version".toList, "natural_person_id".toList, "decision_id".toList,
  "hash_chain_prev".toList, "start_time".toList, "end_time".toList,
  "input_data".toList, "hash".toList, "signature_hex".toList,
  "public_key_hex".toList, "c2pa_manifest".toList, "rfc3161_ts_der_hex".toList,
  "rfc3161_tsa_url".toList, "signed_payload_b64".toList]

/-- An array may lack the last field, which has a default. -/
def fields : Json → Option (List (Option Json)) :=
  fieldsFrom 18 names

variable [Chrono]

def readTime : Json → Option Int
  | .string text => Chrono.parse text
  | _ => none

def read (json : Json) : Option PacketFile := do
  match ← fields json with
  | [caseId, tenantId, agentOutputs, hashChainLink, referenceDatabase,
      policyVersion, naturalPersonId, decisionId, hashChainPrev, startTime,
      endTime, inputData, hash, signatureHex, publicKeyHex, c2paManifest,
      rfc3161TsDerHex, rfc3161TsaUrl, signedPayloadB64] =>
      return {
        caseId := ← readOption Json.asStr caseId
        tenantId := ← readOption Json.asStr tenantId
        agentOutputs := ← readOption (readVec some) agentOutputs
        hashChainLink := ← readOption Json.asStr hashChainLink
        referenceDatabase := ← readOption Json.asStr referenceDatabase
        policyVersion := ← readOption Json.asStr policyVersion
        naturalPersonId := ← readOption Json.asStr naturalPersonId
        decisionId := ← readOption Json.asStr decisionId
        hashChainPrev := ← readOption Json.asStr hashChainPrev
        startTime := ← readOption readTime startTime
        endTime := ← readOption readTime endTime
        inputData := ← readOption Json.asStr inputData
        hash := ← readOption Json.asStr hash
        signatureHex := ← readOption Json.asStr signatureHex
        publicKeyHex := ← readOption Json.asStr publicKeyHex
        c2paManifest := ← readOption some c2paManifest
        rfc3161TsDerHex := ← readOption Json.asStr rfc3161TsDerHex
        rfc3161TsaUrl := ← readOption Json.asStr rfc3161TsaUrl
        signedPayloadB64 := ← readOption Json.asStr signedPayloadB64 }
  | _ => none

/-- What `run` reads from the file. -/
def fromText [Parser] (text : Str) : Except Str PacketFile :=
  SerdeJson.fromStr "PacketFile".toList read text

end PacketFile

end TrustLayer.TlVerify
