import TrustLayer.ThemisEvidence.Packet

/-!
# What a failed seal leaves behind

`seal` appends the payload before it asks for the timestamp.  A refusal for
retention leaves the chain as it was, and a failure of the authority leaves the
payload on it.
-/

namespace TrustLayer.ThemisEvidence.EvidenceService

open TrustLayer.Library
open TrustLayer.TlChain (Blake3)
open TrustLayer.TlVerify (Crates)

abbrev SealResult := Except EvError SealedPacket

/-- Only a refusal for retention comes ahead of the append. -/
def leavesEntry : SealResult → Bool
  | .error (.chain _) => false
  | .error _ | .ok _ => true

section

variable [Blake3] [Crates] [Signing]

def sealOne (service : EvidenceService) (call : SealCall) :
    SealResult × EvidenceService :=
  service.sealPacket call.invoiceId call.payload call.rekorEntry call.env

/-- The calls of a run, each with what it returned. -/
def sealLog (service : EvidenceService) :
    List SealCall → List (SealCall × SealResult)
  | [] => []
  | call :: calls =>
      let (result, next) := service.sealOne call
      (call, result) :: sealLog next calls

/-- The payloads of the calls that reached the append. -/
def keptPayloads (log : List (SealCall × SealResult)) : List Str :=
  (log.filter fun turn => leavesEntry turn.2).map fun turn => turn.1.payload

/-- What one call does to the chain, and what its packet says about it. -/
structure Turn (service next : EvidenceService) (call : SealCall)
    (result : SealResult) : Prop where
  chain : payloads next.chain =
    payloads service.chain ++ keptPayloads [(call, result)]
  packet : ∀ packet, result = .ok packet →
    packet.payloadCanonicalJson = canonicalJson call.payload ∧
      packet.chainLength = UInt64.ofNat (payloads next.chain).length
  refused : leavesEntry result = false → next = service

omit [Crates] [Signing] in
theorem payloads_appended (service : EvidenceService) (call : SealCall) :
    payloads (service.appended call).chain =
      payloads service.chain ++ [call.payload] :=
  List.map_append

theorem sealAll_cons (service : EvidenceService) (call : SealCall)
    (calls : List SealCall) :
    service.sealAll (call :: calls) =
      (((service.sealOne call).2.sealAll calls).1,
        (service.sealOne call).1.toOption.toList ++
          ((service.sealOne call).2.sealAll calls).2) := rfl

theorem sealLog_cons (service : EvidenceService) (call : SealCall)
    (calls : List SealCall) :
    service.sealLog (call :: calls) =
      (call, (service.sealOne call).1) ::
        (service.sealOne call).2.sealLog calls := rfl

omit [Crates] [Signing] in
/-- Past the append the payload is on the chain. -/
theorem turn_appended {service : EvidenceService} {call : SealCall}
    {result : SealResult} (left : leavesEntry result = true)
    (packet : ∀ packet, result = .ok packet →
      packet.payloadCanonicalJson = canonicalJson call.payload ∧
        packet.chainLength =
          UInt64.ofNat (payloads (service.appended call).chain).length) :
    Turn service (service.appended call) call result := by
  constructor
  · rw [payloads_appended, keptPayloads, List.filter_singleton, left]
    rfl
  · exact packet
  · intro kept
    rw [left] at kept
    cases kept

theorem sealOne_turn (service : EvidenceService) (call : SealCall) :
    Turn service (service.sealOne call).2 call (service.sealOne call).1 := by
  cases window : service.chain.enforceRetention service.retention
      call.env.retentionNowMs service.signer.tenantId service.jurisdiction with
  | error error =>
      have refused : service.sealOne call =
          (.error (.chain error), service) := by
        simp only [sealOne, sealPacket, window]
      rw [refused]
      constructor
      · exact (List.append_nil _).symm
      · intro packet impossible
        cases impossible
      · exact fun _ => rfl
  | ok =>
      cases stamp : call.env.stamp with
      | error error =>
          have failed : service.sealOne call =
              (.error (.ts error), service.appended call) := by
            simp only [sealOne, sealPacket, window, stamp]
            rfl
          rw [failed]
          apply turn_appended rfl
          intro packet impossible
          cases impossible
      | ok response =>
          cases verifies : call.env.stampVerifies with
          | false =>
              have failed : service.sealOne call =
                  (.error (.verifyFailed
                    "TSA rejected its own response".toList),
                    service.appended call) := by
                simp only [sealOne, sealPacket, window, stamp, verifies,
                  if_true]
                rfl
              rw [failed]
              apply turn_appended rfl
              intro packet impossible
              cases impossible
          | true =>
              have returned : service.sealOne call =
                  (.ok ((service.appended call).sealedPacket call.invoiceId
                    call.payload call.rekorEntry response
                    call.env.packetId), service.appended call) := by
                simp only [sealOne, sealPacket, window, stamp, verifies,
                  Bool.true_eq_false, if_false]
                rfl
              rw [returned]
              apply turn_appended rfl
              intro packet same
              cases same
              exact ⟨rfl, by simp [sealedPacket, payloads]⟩

omit [Blake3] [Crates] [Signing] in
theorem keptPayloads_append (first later : List (SealCall × SealResult)) :
    keptPayloads (first ++ later) =
      keptPayloads first ++ keptPayloads later := by
  simp [keptPayloads]

theorem sealAll_payloads (service : EvidenceService) (calls : List SealCall) :
    payloads (service.sealAll calls).1.chain =
      payloads service.chain ++ keptPayloads (service.sealLog calls) := by
  induction calls generalizing service with
  | nil => exact (List.append_nil _).symm
  | cons call calls induction =>
      have first := (sealOne_turn service call).chain
      rw [sealAll_cons, sealLog_cons, induction, first, List.append_assoc,
        ← keptPayloads_append]
      rfl

theorem sealAll_packets (service : EvidenceService) (calls : List SealCall) :
    (service.sealAll calls).2 =
      (service.sealLog calls).filterMap fun turn => turn.2.toOption := by
  induction calls generalizing service with
  | nil => rfl
  | cons call calls induction =>
      rw [sealAll_cons, sealLog_cons, List.filterMap_cons, induction]
      cases (service.sealOne call).1 with
      | error error => rfl
      | ok packet => rfl

/-- A packet names the place of its payload. -/
theorem sealLog_packet {service : EvidenceService} {calls : List SealCall}
    {before after : List (SealCall × SealResult)} {call : SealCall}
    {packet : SealedPacket}
    (log : service.sealLog calls = before ++ (call, .ok packet) :: after) :
    packet.payloadCanonicalJson = canonicalJson call.payload ∧
      packet.chainLength = UInt64.ofNat
        ((payloads service.chain).length + (keptPayloads before).length + 1) := by
  induction calls generalizing service before with
  | nil => cases before <;> cases log
  | cons first calls induction =>
      have turn := sealOne_turn service first
      rw [sealLog_cons] at log
      cases before with
      | nil =>
          obtain ⟨same, -⟩ := List.cons.inj log
          obtain ⟨rfl, result⟩ := Prod.mk.inj same
          obtain ⟨payload, length⟩ := turn.packet packet result
          refine ⟨payload, ?_⟩
          rw [length, turn.chain, result, List.length_append]
          rfl
      | cons head before =>
          obtain ⟨same, later⟩ := List.cons.inj log
          obtain ⟨payload, length⟩ := induction later
          refine ⟨payload, ?_⟩
          have kept := congrArg List.length
            (keptPayloads_append [(first, (service.sealOne first).1)] before)
          rw [List.length_append, List.singleton_append] at kept
          rw [length, turn.chain, ← same, List.length_append, kept]
          simp only [Nat.add_assoc]

/-- A failure ahead of the append leaves the service as it was, and one behind
it leaves the payload.  After a run the chain holds the payloads that reached
it, and each packet names the place of its own. -/
theorem sealAll_keeps (service : EvidenceService) (calls : List SealCall) :
    (∀ call next error, service.sealOne call = (.error error, next) →
      (leavesEntry (.error error) = false → next = service) ∧
      (leavesEntry (.error error) = true →
        payloads next.chain = payloads service.chain ++ [call.payload])) ∧
    payloads (service.sealAll calls).1.chain =
      payloads service.chain ++ keptPayloads (service.sealLog calls) ∧
    (service.sealLog calls).map Prod.fst = calls ∧
    (service.sealAll calls).2 =
      (service.sealLog calls).filterMap (fun turn => turn.2.toOption) ∧
    ∀ before call packet after,
      service.sealLog calls = before ++ (call, .ok packet) :: after →
      let place := (payloads service.chain).length + (keptPayloads before).length
      (payloads (service.sealAll calls).1.chain)[place]? = some call.payload ∧
        packet.payloadCanonicalJson = canonicalJson call.payload ∧
        packet.chainLength = UInt64.ofNat (place + 1) := by
  refine ⟨fun call next error result => ?_, sealAll_payloads service calls, ?_,
    sealAll_packets service calls, fun before call packet after log => ?_⟩
  · have turn := sealOne_turn service call
    rw [result] at turn
    refine ⟨turn.refused, fun left => ?_⟩
    rw [turn.chain, keptPayloads, List.filter_singleton, left]
    rfl
  · induction calls generalizing service with
    | nil => rfl
    | cons call calls induction => rw [sealLog_cons, List.map_cons, induction]
  · obtain ⟨payload, length⟩ := sealLog_packet log
    refine ⟨?_, payload, length⟩
    rw [sealAll_payloads, log, keptPayloads_append, ← List.append_assoc,
      ← List.length_append, List.getElem?_append_right le_rfl, Nat.sub_self]
    rfl

end

/-- A call that fails leaves the chain. -/
def Atomic [Blake3] [Crates] [Signing] (service : EvidenceService)
    (call : SealCall) : Prop :=
  ∀ error next, service.sealOne call = (.error error, next) →
    next.chain = service.chain

/-! ### A seal without a timestamp -/

def lateCall : SealCall :=
  { helloCall with
    env := { helloCall.env with stamp := .error (.timeout 10000000000) } }

def starkService : EvidenceService :=
  fromSigner starkSigner "https://mock.tsa.local".toList .default

theorem lateCall_not_atomic :
    ¬ @Atomic recordedHashes recordedKeys recordedSigning starkService
      lateCall := by
  intro atomic
  have unchanged := congrArg (fun chain => chain.entries.length)
    (atomic _ _ rfl)
  revert unchanged
  decide

/-- The payload stands twice after a second try. -/
theorem lateCall_keeps :
    payloads (@sealAll recordedHashes recordedKeys recordedSigning starkService
        [lateCall, helloCall]).1.chain =
      ["hello world".toList, "hello world".toList] :=
  (@sealAll_keeps recordedHashes recordedKeys recordedSigning starkService
    [lateCall, helloCall]).2.1

end TrustLayer.ThemisEvidence.EvidenceService
