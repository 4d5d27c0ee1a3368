import TrustLayer.Library.Text
import Mathlib.Algebra.Group.Nat.Defs

/-!
# The BAAAR kill switch

Three implementations of one halting rule: the gate on a fraud assessment, the
gate on a flattened input, and the pure decision of the orchestrator.
-/

namespace TrustLayer.Library

/-- A binary32 number, by its bits. -/
structure F32 where
  bits : UInt32
  deriving DecidableEq

namespace F32

def magnitude (number : F32) : Nat :=
  number.bits.toNat % 2 ^ 31

/-- Above the infinities. -/
def isNaN (number : F32) : Bool :=
  decide (0x7F800000 < number.magnitude)

/-- The place of a number in the order; both zeros share theirs. -/
def place (number : F32) : Int :=
  if number.bits.toNat < 2 ^ 31 then number.magnitude else -number.magnitude

/-- `<` on `f32`, which no NaN satisfies on either side. -/
def lt (left right : F32) : Bool :=
  !left.isNaN && !right.isNaN && decide (left.place < right.place)

end F32

end TrustLayer.Library

/-! ## The gate on an assessment -/

namespace TrustLayer.Baaar

open TrustLayer.Library

inductive FindingKind where
  | secretLeak
  | priceAnomaly
  | phantomVendor
  | mathFraud
  | duplicate
  | other (tag : Str)
  deriving DecidableEq

structure Finding where
  kind : FindingKind
  description : Str
  deriving DecidableEq

structure FraudAssessment where
  riskScore : F32
  findings : List Finding
  coherenceScore : F32
  debateRounds : UInt32
  explicitHalt : Bool
  deriving DecidableEq

inductive BaaarReason where
  | riskScoreExceeded
  | secretLeakDetected
  | coherenceTooLow
  | maxDebateRoundsReached
  | explicitHaltRequested
  deriving DecidableEq

inductive Outcome where
  | approve
  | halt (reason : BaaarReason)
  deriving DecidableEq

def Outcome.isHalt : Outcome → Bool
  | .approve => false
  | .halt _ => true

/-- The binary32 number nearest to `0.85`. -/
def riskScoreHalt : F32 := ⟨0x3F59999A⟩

/-- The binary32 number nearest to `0.3`. -/
def coherenceFloor : F32 := ⟨0x3E99999A⟩

def maxDebateRounds : UInt32 := 5

/-- Some finding is a `SecretLeak`. -/
def leaksSecret (findings : List Finding) : Bool :=
  findings.any fun finding => decide (finding.kind = .secretLeak)

/-- `BaaarGate::check`: the first matching condition names the reason. -/
def BaaarGate.check (a : FraudAssessment) : Outcome :=
  if riskScoreHalt.lt a.riskScore then .halt .riskScoreExceeded
  else if leaksSecret a.findings then .halt .secretLeakDetected
  else if a.coherenceScore.lt coherenceFloor then .halt .coherenceTooLow
  else if a.debateRounds ≥ maxDebateRounds then .halt .maxDebateRoundsReached
  else if a.explicitHalt then .halt .explicitHaltRequested
  else .approve

end TrustLayer.Baaar

/-! ## The decision of the orchestrator -/

namespace TrustLayer.BaaarZ3

open TrustLayer.Library

inductive SecuritySeverity where
  | low
  | medium
  | high
  | critical
  deriving DecidableEq

structure BaaarInputs where
  riskScore : F32
  securitySeverity : SecuritySeverity
  coherenceScore : F32
  debateRounds : UInt32
  explicitHaltRequested : Bool
  deriving DecidableEq

def riskScoreHalt : F32 := ⟨0x3F59999A⟩

def coherenceFloor : F32 := ⟨0x3E99999A⟩

def maxDebateRounds : UInt32 := 5

def shouldHalt (inputs : BaaarInputs) : Bool :=
  if riskScoreHalt.lt inputs.riskScore then true
  else if inputs.securitySeverity = .critical then true
  else if inputs.coherenceScore.lt coherenceFloor then true
  else if inputs.debateRounds ≥ maxDebateRounds then true
  else if inputs.explicitHaltRequested then true
  else false

end TrustLayer.BaaarZ3

/-! ## The gate on a flattened input -/

namespace TrustLayer.TlGate

open TrustLayer.Library

open TrustLayer.Baaar (Finding FraudAssessment BaaarReason Outcome leaksSecret)
open TrustLayer.BaaarZ3 (BaaarInputs SecuritySeverity)

inductive Verdict where
  | allow
  | halt (reason : BaaarReason)
  deriving DecidableEq

namespace Verdict

def isHalt : Verdict → Bool
  | .allow => false
  | .halt _ => true

def toOutcome : Verdict → Outcome
  | .allow => .approve
  | .halt reason => .halt reason

/-- `From<Outcome>`. -/
def ofOutcome : Outcome → Verdict
  | .approve => .allow
  | .halt reason => .halt reason

@[simp] theorem toOutcome_ofOutcome (outcome : Outcome) :
    (ofOutcome outcome).toOutcome = outcome := by
  cases outcome <;> rfl

@[simp] theorem isHalt_toOutcome (verdict : Verdict) :
    verdict.toOutcome.isHalt = verdict.isHalt := by
  cases verdict <;> rfl

end Verdict

structure GateInput where
  riskScore : F32
  findings : List Finding
  coherenceScore : F32
  debateRounds : UInt32
  explicitHaltRequested : Bool
  securitySeverity : Option SecuritySeverity
  deriving DecidableEq

namespace GateInput

def fromAssessment (a : FraudAssessment) : GateInput :=
  { riskScore := a.riskScore
    findings := a.findings
    coherenceScore := a.coherenceScore
    debateRounds := a.debateRounds
    explicitHaltRequested := a.explicitHalt
    securitySeverity := none }

/-- The severity is kept, but not as a finding. -/
def fromBaaarInputs (b : BaaarInputs) : GateInput :=
  { riskScore := b.riskScore
    findings := []
    coherenceScore := b.coherenceScore
    debateRounds := b.debateRounds
    explicitHaltRequested := b.explicitHaltRequested
    securitySeverity := some b.securitySeverity }

end GateInput

def shouldHalt (input : GateInput) : Verdict :=
  if F32.lt ⟨0x3F59999A⟩ input.riskScore then .halt .riskScoreExceeded
  else if leaksSecret input.findings then .halt .secretLeakDetected
  else if input.coherenceScore.lt ⟨0x3E99999A⟩ then .halt .coherenceTooLow
  else if input.debateRounds ≥ 5 then .halt .maxDebateRoundsReached
  else if input.explicitHaltRequested then .halt .explicitHaltRequested
  else .allow

/-! ## Agreement -/

/-- The conditions that every gate reads from the same four fields. -/
def HaltsWithoutLeak (input : GateInput) : Prop :=
  Baaar.riskScoreHalt.lt input.riskScore = true ∨
  input.coherenceScore.lt Baaar.coherenceFloor = true ∨
  Baaar.maxDebateRounds ≤ input.debateRounds ∨
  input.explicitHaltRequested = true

/-- The flat inputs mirror an assessment: a secret leak is a critical
severity. -/
structure Mirrors (b : BaaarInputs) (a : FraudAssessment) : Prop where
  risk : b.riskScore = a.riskScore
  severity : b.securitySeverity = .critical ↔ leaksSecret a.findings = true
  coherence : b.coherenceScore = a.coherenceScore
  rounds : b.debateRounds = a.debateRounds
  explicit : b.explicitHaltRequested = a.explicitHalt

/-- The flattened gate keeps the reason of the assessment's gate. -/
theorem shouldHalt_fromAssessment (a : FraudAssessment) :
    (shouldHalt (.fromAssessment a)).toOutcome = Baaar.BaaarGate.check a := by
  unfold shouldHalt Baaar.BaaarGate.check GateInput.fromAssessment
  simp only [apply_ite Verdict.toOutcome]
  rfl

theorem shouldHalt_isHalt (input : GateInput) :
    (shouldHalt input).isHalt = true ↔
      leaksSecret input.findings = true ∨ HaltsWithoutLeak input := by
  unfold shouldHalt HaltsWithoutLeak
  split_ifs with risk leak coherence rounds explicit <;>
    simp_all [Verdict.isHalt, Baaar.riskScoreHalt, Baaar.coherenceFloor,
      Baaar.maxDebateRounds]

theorem z3_shouldHalt_iff (b : BaaarInputs) :
    BaaarZ3.shouldHalt b = true ↔
      b.securitySeverity = .critical ∨
        HaltsWithoutLeak (.fromBaaarInputs b) := by
  unfold BaaarZ3.shouldHalt HaltsWithoutLeak GateInput.fromBaaarInputs
  split_ifs with risk severity coherence rounds explicit <;>
    simp_all [BaaarZ3.riskScoreHalt, BaaarZ3.coherenceFloor,
      BaaarZ3.maxDebateRounds, Baaar.riskScoreHalt, Baaar.coherenceFloor,
      Baaar.maxDebateRounds]

theorem shouldHalt_fromBaaarInputs (b : BaaarInputs) :
    (shouldHalt (.fromBaaarInputs b)).isHalt = true ↔
      HaltsWithoutLeak (.fromBaaarInputs b) := by
  simp [shouldHalt_isHalt, GateInput.fromBaaarInputs, leaksSecret]

/-- All gates decide alike. -/
def GatesAgree (a : FraudAssessment) (b : BaaarInputs) : Prop :=
  ((shouldHalt (.fromAssessment a)).isHalt = true ↔
    (Baaar.BaaarGate.check a).isHalt = true) ∧
  ((shouldHalt (.fromBaaarInputs b)).isHalt = true ↔
    (Baaar.BaaarGate.check a).isHalt = true) ∧
  (BaaarZ3.shouldHalt b = true ↔ (Baaar.BaaarGate.check a).isHalt = true)

/-- The gates part exactly when the secret leak is the only reason to halt:
the conversion from the flat inputs drops the severity. -/
theorem gatesAgree_iff (a : FraudAssessment) (b : BaaarInputs)
    (mirrors : Mirrors b a) :
    GatesAgree a b ↔
      (b.securitySeverity = .critical →
        HaltsWithoutLeak (.fromBaaarInputs b)) := by
  have assessed : (Baaar.BaaarGate.check a).isHalt = true ↔
      b.securitySeverity = .critical ∨
        HaltsWithoutLeak (.fromBaaarInputs b) := by
    rw [← shouldHalt_fromAssessment, Verdict.isHalt_toOutcome,
      shouldHalt_isHalt, mirrors.severity]
    simp only [HaltsWithoutLeak, GateInput.fromAssessment,
      GateInput.fromBaaarInputs, mirrors.risk, mirrors.coherence,
      mirrors.rounds, mirrors.explicit]
  have flattened : (shouldHalt (.fromAssessment a)).isHalt = true ↔
      (Baaar.BaaarGate.check a).isHalt = true := by
    rw [← shouldHalt_fromAssessment, Verdict.isHalt_toOutcome]
  have decided : BaaarZ3.shouldHalt b = true ↔
      (Baaar.BaaarGate.check a).isHalt = true :=
    (z3_shouldHalt_iff b).trans assessed.symm
  rw [GatesAgree, and_iff_right flattened, and_iff_left decided,
    shouldHalt_fromBaaarInputs, assessed]
  exact Iff.comm.trans or_iff_right_iff_imp

def leakingAssessment : FraudAssessment :=
  { riskScore := ⟨0⟩
    findings := [{ kind := .secretLeak, description := [] }]
    coherenceScore := ⟨0x3F800000⟩
    debateRounds := 1
    explicitHalt := false }

def criticalInputs : BaaarInputs :=
  { riskScore := ⟨0⟩
    securitySeverity := .critical
    coherenceScore := ⟨0x3F800000⟩
    debateRounds := 1
    explicitHaltRequested := false }

theorem gatesAgree_iff_explicit :
    GatesAgree { leakingAssessment with explicitHalt := true }
        { criticalInputs with explicitHaltRequested := true } ↔
      (({ criticalInputs with explicitHaltRequested := true } :
          BaaarInputs).securitySeverity = .critical →
        HaltsWithoutLeak
          (.fromBaaarInputs
            { criticalInputs with explicitHaltRequested := true })) :=
  gatesAgree_iff _ _
    { risk := rfl, severity := by decide, coherence := rfl, rounds := rfl
      explicit := rfl }

/-- A leak halts two gates and passes the third. -/
theorem leak_not_gatesAgree :
    Mirrors criticalInputs leakingAssessment ∧
      ¬ GatesAgree leakingAssessment criticalInputs := by
  refine ⟨⟨rfl, by decide, rfl, rfl, rfl⟩, fun agree => ?_⟩
  have passed := agree.2.1.mpr (by decide)
  revert passed
  decide

end TrustLayer.TlGate
