import TrustLayer.ThemisAgents

/-!
# Halting signals in a payload

The assessment is read from one object: the value of `assessment`, or the
payload itself without that key.  What the decoder recognises there as a reason
to halt reaches the gate, whatever stands beside it.
-/

namespace TrustLayer.ThemisAgents

open TrustLayer.Library hiding Json
open TrustLayer.AgentGuard (Json)
open TrustLayer.Baaar
open TrustLayer.TlGate (GateInput HaltsWithoutLeak shouldHalt_fromAssessment
  shouldHalt_isHalt)

section

variable [FloatTexts]

/-- The object that the assessment is read from. -/
def ReadsFrom (payload fields : Json) : Prop :=
  payload.get "assessment".toList = some fields ∨
    payload.get "assessment".toList = none ∧ fields = payload

/-- A reason to halt in the object, as the gate compares it. -/
inductive Signals (fields : Json) : Prop
  | riskScore (value : Json) (number : F64)
      (present : fields.get "risk_score".toList = some value)
      (reads : asF64 value = some number)
      (above : riskScoreHalt.lt number.toF32 = true)
  | secretLeak (value item kind : Json) (items : List Json)
      (present : fields.get "findings".toList = some value)
      (reads : value.asArray = some items) (member : item ∈ items)
      (kinded : item.get "kind".toList = some kind)
      (leak : kind.asStr = some "secret_leak".toList)
  | coherence (value : Json) (number : F64)
      (present : fields.get "coherence_score".toList = some value)
      (reads : asF64 value = some number)
      (below : number.toF32.lt coherenceFloor = true)
  | debateRounds (value : Json) (rounds : UInt64)
      (present : fields.get "debate_rounds".toList = some value)
      (reads : asU64 value = some rounds)
      (reached : 5 ≤ rounds.toNat) (fits : rounds.toNat < 2 ^ 32)
  | explicitHalt
      (present : fields.get "explicit_halt".toList = some (.bool true))

variable {payload fields : Json}

omit [FloatTexts] in
theorem check_isHalt_iff (a : FraudAssessment) :
    (BaaarGate.check a).isHalt = true ↔
      leaksSecret a.findings = true ∨ HaltsWithoutLeak (.fromAssessment a) := by
  rw [← shouldHalt_fromAssessment, TlGate.Verdict.isHalt_toOutcome]
  exact shouldHalt_isHalt _

omit [FloatTexts] in
/-- A payload is decoded as the object it carries is alone. -/
theorem ReadsFrom.getD_eq (reads : ReadsFrom payload fields) :
    (payload.get "assessment".toList).getD payload = fields := by
  rcases reads with nested | ⟨flat, rfl⟩
  · rw [nested, Option.getD_some]
  · rw [flat, Option.getD_none]

omit [FloatTexts] in
/-- The decoder keeps a finding that has a kind. -/
theorem leaksSecret_filterMap {items : List Json} {item kind : Json}
    (member : item ∈ items) (kinded : item.get "kind".toList = some kind)
    (leak : kind.asStr = some "secret_leak".toList) :
    leaksSecret (items.filterMap findingOf) = true := by
  have found : ∃ finding, findingOf item = some finding ∧
      finding.kind = .secretLeak := by
    simp only [findingOf, kinded, Option.bind_eq_bind, Option.bind_some, leak,
      Option.pure_def, Option.some.injEq, exists_eq_left']
    decide
  obtain ⟨finding, decoded, kept⟩ := found
  apply List.any_eq_true.mpr
  refine ⟨finding, List.mem_filterMap.mpr ⟨item, member, decoded⟩, ?_⟩
  exact decide_eq_true kept

omit [FloatTexts] in
/-- A number of rounds that fits is not cut. -/
theorem maxDebateRounds_le {rounds : UInt64} (reached : 5 ≤ rounds.toNat)
    (fits : rounds.toNat < 2 ^ 32) : maxDebateRounds ≤ rounds.toUInt32 := by
  rw [UInt32.le_iff_toNat_le, UInt64.toNat_toUInt32, Nat.mod_eq_of_lt fits]
  exact reached

/-- Whatever else the payload holds, a signal in the object that is read halts
the gate. -/
theorem check_of_signals (reads : ReadsFrom payload fields)
    (signals : Signals fields) :
    (BaaarGate.check (fromDecisionPayload payload)).isHalt = true := by
  rw [check_isHalt_iff]
  simp only [HaltsWithoutLeak, GateInput.fromAssessment, fromDecisionPayload,
    reads.getD_eq]
  cases signals with
  | riskScore value number present reads above =>
      right; left
      simpa only [present, Option.bind_some, reads, Option.getD_some] using above
  | secretLeak value item kind items present reads member kinded leak =>
      left
      simp only [present, Option.bind_some, reads, Option.map_some,
        Option.getD_some]
      exact leaksSecret_filterMap member kinded leak
  | coherence value number present reads below =>
      right; right; left
      simpa only [present, Option.bind_some, reads, Option.getD_some] using below
  | debateRounds value rounds present reads reached fits =>
      right; right; right; left
      simp only [present, Option.bind_some, reads, Option.getD_some]
      exact maxDebateRounds_le reached fits
  | explicitHalt present =>
      right; right; right; right
      simp only [present, Option.bind_some, asBool, Option.getD_some]

end

/-- The numbers that the payloads below write. -/
@[reducible] def payloadFloats : FloatTexts where
  asF64 literal :=
    if literal = "0.85".toList then ⟨0x3FEB333333333333⟩
    else if literal = "0.9".toList then ⟨0x3FECCCCCCCCCCCCD⟩
    else zeroF64
  ofF32 _ := .null
  ofF64 _ := .null

def riskPayload (literal : String) : Json :=
  .object [("risk_score".toList, .number literal.toList)]

/-- A nested assessment halts beside other fields at the top. -/
theorem check_of_signals_nested :
    (BaaarGate.check (@fromDecisionPayload payloadFloats
      (.object [("assessment".toList, riskPayload "0.9"),
        ("risk_score".toList, .number "0".toList)]))).isHalt = true := by
  apply @check_of_signals payloadFloats _ (riskPayload "0.9") (.inl rfl)
  exact @Signals.riskScore payloadFloats _ _ _ rfl rfl (by decide)

/-- A risk at the threshold is accepted, and a severity is not read. -/
theorem threshold_and_severity_approve :
    BaaarGate.check (@fromDecisionPayload payloadFloats (riskPayload "0.85")) =
        .approve ∧
      BaaarGate.check (@fromDecisionPayload payloadFloats
        (.object [("security_severity".toList,
          .string "critical".toList)])) = .approve := by
  decide

end TrustLayer.ThemisAgents
