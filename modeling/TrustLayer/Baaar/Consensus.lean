import TrustLayer.Baaar
import Mathlib.Algebra.BigOperators.Group.Finset.Basic
import Mathlib.Algebra.BigOperators.Ring.List
import Mathlib.Algebra.Order.BigOperators.Group.List
import Mathlib.Algebra.Order.Field.Basic
import Mathlib.Data.Rat.Defs
import Mathlib.Tactic.Linarith
import Mathlib.Tactic.NormNum

/-!
# Weighted consensus of the agents

The second gate asks the first one and then weighs the confidences it is
given.  Numbers are read as rationals.  Every entry of the list is a vote, also
a second one of the same agent.
-/

namespace TrustLayer.Baaar

inductive AgentRole where
  | extractor
  | poMatcher
  | fraudAuditor
  | gaapClassifier
  | provenanceSigner
  | auditWatchdog
  | regressionTester
  | demoNarrator
  deriving DecidableEq

/-- `f32::clamp(0.0, 1.0)`. -/
def clamp (number : ℚ) : ℚ :=
  if number < 0 then 0 else if 1 < number then 1 else number

structure BaaarV2Gate where
  agentWeights : AgentRole → Option ℚ
  sacThreshold : ℚ

namespace BaaarV2Gate

def new : BaaarV2Gate :=
  { agentWeights := fun role =>
      match role with
      | .fraudAuditor => some 1
      | _ => some (1 / 2)
    sacThreshold := 1 / 2 }

def withSacThreshold (gate : BaaarV2Gate) (threshold : ℚ) : BaaarV2Gate :=
  { gate with sacThreshold := clamp threshold }

def withWeights (gate : BaaarV2Gate) (weights : AgentRole → Option ℚ) :
    BaaarV2Gate :=
  { gate with agentWeights := weights }

/-- One turn of the loop, on the weighted sum and the total of the weights. -/
def addVote (gate : BaaarV2Gate) (sums : ℚ × ℚ) (vote : AgentRole × ℚ) :
    ℚ × ℚ :=
  match gate.agentWeights vote.1 with
  | some weight => (sums.1 + weight * clamp vote.2, sums.2 + weight)
  | none => sums

def checkSac (gate : BaaarV2Gate) (assessment : FraudAssessment)
    (agentConfidences : List (AgentRole × ℚ)) : Outcome :=
  match BaaarGate.check assessment with
  | .halt reason => .halt reason
  | .approve =>
      if agentConfidences.isEmpty then .halt .coherenceTooLow
      else
        let (weightedSum, weightTotal) :=
          agentConfidences.foldl gate.addVote (0, 0)
        if weightTotal = 0 then .halt .coherenceTooLow
        else if weightedSum / weightTotal < gate.sacThreshold then
          .halt .coherenceTooLow
        else .approve

def checkV1 (_ : BaaarV2Gate) (assessment : FraudAssessment) : Outcome :=
  BaaarGate.check assessment

/-! ## Sums -/

def weight (gate : BaaarV2Gate) (role : AgentRole) : ℚ :=
  (gate.agentWeights role).getD 0

def weightTotal (gate : BaaarV2Gate) (votes : List (AgentRole × ℚ)) : ℚ :=
  (votes.map fun vote => gate.weight vote.1).sum

def weightedSum (gate : BaaarV2Gate) (votes : List (AgentRole × ℚ)) : ℚ :=
  (votes.map fun vote => gate.weight vote.1 * clamp vote.2).sum

variable {gate : BaaarV2Gate} {assessment : FraudAssessment}
  {votes other : List (AgentRole × ℚ)} {vote : AgentRole × ℚ}

/-- The votes carry the gate: their weights do not cancel, and their average
reaches the threshold. -/
def Carries (gate : BaaarV2Gate) (votes : List (AgentRole × ℚ)) : Prop :=
  gate.weightTotal votes ≠ 0 ∧
    gate.sacThreshold ≤ gate.weightedSum votes / gate.weightTotal votes

theorem foldl_addVote (sums : ℚ × ℚ) :
    votes.foldl gate.addVote sums =
      (sums.1 + gate.weightedSum votes, sums.2 + gate.weightTotal votes) := by
  induction votes generalizing sums with
  | nil => simp [weightedSum, weightTotal]
  | cons vote votes induction =>
      have turn : gate.addVote sums vote =
          (sums.1 + gate.weight vote.1 * clamp vote.2,
            sums.2 + gate.weight vote.1) := by
        rw [addVote, weight]
        cases gate.agentWeights vote.1 <;> simp
      rw [List.foldl_cons, turn, induction]
      simp only [weightedSum, weightTotal, List.map_cons, List.sum_cons]
      rw [add_assoc, add_assoc]

/-- The first gate decides alone when it halts, and the votes otherwise. -/
theorem checkSac_eq_approve_iff :
    gate.checkSac assessment votes = .approve ↔
      BaaarGate.check assessment = .approve ∧ gate.Carries votes := by
  rw [checkSac]
  cases BaaarGate.check assessment with
  | halt reason => simp
  | approve =>
      simp only [true_and]
      cases votes with
      | nil => simp [Carries, weightTotal]
      | cons vote votes =>
          simp only [List.isEmpty_cons, Bool.false_eq_true, if_false,
            foldl_addVote, zero_add, Carries]
          split_ifs with none below
          · simp [none]
          · simp [not_le.mpr below]
          · simp [none, not_lt.mp below]

theorem checkSac_of_halt {reason : BaaarReason}
    (halts : BaaarGate.check assessment = .halt reason) :
    gate.checkSac assessment votes = .halt reason := by
  rw [checkSac, halts]

/-- Behind an approval of the first gate there is one reason to halt. -/
theorem checkSac_of_not_carries
    (approves : BaaarGate.check assessment = .approve)
    (fails : ¬ gate.Carries votes) :
    gate.checkSac assessment votes = .halt .coherenceTooLow := by
  have notApproved : gate.checkSac assessment votes ≠ .approve := by
    intro approved
    exact fails (checkSac_eq_approve_iff.mp approved).2
  rw [checkSac, approves] at notApproved ⊢
  simp only at notApproved ⊢
  split_ifs at notApproved ⊢
  all_goals first | rfl | exact absurd rfl notApproved

/-- The outcome depends on the votes only through what they carry. -/
theorem checkSac_congr (same : gate.Carries votes ↔ gate.Carries other) :
    gate.checkSac assessment votes = gate.checkSac assessment other := by
  cases judged : BaaarGate.check assessment with
  | halt reason => rw [checkSac_of_halt judged, checkSac_of_halt judged]
  | approve =>
      by_cases carries : gate.Carries votes
      · rw [checkSac_eq_approve_iff.mpr ⟨judged, carries⟩,
          checkSac_eq_approve_iff.mpr ⟨judged, same.mp carries⟩]
      · rw [checkSac_of_not_carries judged carries,
          checkSac_of_not_carries judged (mt same.mpr carries)]

theorem Carries.perm (perm : votes.Perm other) :
    gate.Carries votes ↔ gate.Carries other := by
  have total : gate.weightTotal votes = gate.weightTotal other :=
    (perm.map _).sum_eq
  have sum : gate.weightedSum votes = gate.weightedSum other :=
    (perm.map _).sum_eq
  rw [Carries, Carries, total, sum]

/-- The weighted average over roles, each of which has one confidence. -/
def roleAverage (gate : BaaarV2Gate) (roles : Finset AgentRole)
    (confidence : AgentRole → ℚ) : ℚ :=
  (∑ role ∈ roles, gate.weight role * clamp (confidence role)) /
    ∑ role ∈ roles, gate.weight role

/-- With one vote for each role, the average is the one over the roles. -/
theorem average_of_nodup {confidence : AgentRole → ℚ}
    (given : ∀ vote ∈ votes, confidence vote.1 = vote.2)
    (single : (votes.map Prod.fst).Nodup) :
    gate.weightedSum votes / gate.weightTotal votes =
      gate.roleAverage (votes.map Prod.fst).toFinset confidence := by
  rw [roleAverage, List.sum_toFinset _ single, List.sum_toFinset _ single,
    List.map_map, List.map_map]
  have sum : votes.map (fun vote => gate.weight vote.1 * clamp vote.2) =
      votes.map ((fun role => gate.weight role * clamp (confidence role)) ∘
        Prod.fst) := by
    apply List.map_congr_left
    intro vote member
    rw [Function.comp_apply, given vote member]
  rw [weightedSum, sum]
  rfl

/-! ## Repeated votes -/

theorem weightTotal_nonneg (positive : ∀ role, 0 ≤ gate.weight role)
    (votes : List (AgentRole × ℚ)) : 0 ≤ gate.weightTotal votes := by
  apply List.sum_nonneg
  intro summand member
  obtain ⟨vote, -, rfl⟩ := List.mem_map.mp member
  exact positive vote.1

theorem carries_iff (positive : ∀ role, 0 ≤ gate.weight role) :
    gate.Carries votes ↔
      0 < gate.weightTotal votes ∧
        gate.sacThreshold * gate.weightTotal votes ≤ gate.weightedSum votes := by
  have total := weightTotal_nonneg positive votes
  rw [Carries]
  constructor
  · rintro ⟨some, reached⟩
    have above := lt_of_le_of_ne total (Ne.symm some)
    exact ⟨above, (le_div_iff₀ above).mp reached⟩
  · rintro ⟨above, reached⟩
    exact ⟨ne_of_gt above, (le_div_iff₀ above).mpr reached⟩

theorem weightTotal_cons :
    gate.weightTotal (vote :: votes) =
      gate.weight vote.1 + gate.weightTotal votes := by
  rw [weightTotal, List.map_cons, List.sum_cons, weightTotal]

theorem weightedSum_cons :
    gate.weightedSum (vote :: votes) =
      gate.weight vote.1 * clamp vote.2 + gate.weightedSum votes := by
  rw [weightedSum, List.map_cons, List.sum_cons, weightedSum]

theorem Carries.cons_of_ge (positive : ∀ role, 0 ≤ gate.weight role)
    (confident : gate.sacThreshold ≤ clamp vote.2)
    (carries : gate.Carries votes) : gate.Carries (vote :: votes) := by
  rw [carries_iff positive] at carries ⊢
  rw [weightTotal_cons, weightedSum_cons]
  have weight := positive vote.1
  have share : gate.sacThreshold * gate.weight vote.1 ≤
      gate.weight vote.1 * clamp vote.2 := by
    rw [mul_comm]
    exact mul_le_mul_of_nonneg_left confident weight
  constructor
  · linarith only [carries.1, weight]
  · rw [mul_add]
    linarith only [carries.2, share]

/-- The weight of a vote that is in the list already is part of the total. -/
theorem weight_le_weightTotal (positive : ∀ role, 0 ≤ gate.weight role)
    (member : vote ∈ votes) : gate.weight vote.1 ≤ gate.weightTotal votes := by
  apply List.single_le_sum
  · intro summand inside
    obtain ⟨other, -, rfl⟩ := List.mem_map.mp inside
    exact positive other.1
  · exact List.mem_map.mpr ⟨vote, member, rfl⟩

theorem not_carries_cons_of_lt (positive : ∀ role, 0 ≤ gate.weight role)
    (member : vote ∈ votes) (doubtful : clamp vote.2 < gate.sacThreshold)
    (fails : ¬ gate.Carries votes) : ¬ gate.Carries (vote :: votes) := by
  rw [carries_iff positive] at fails ⊢
  rw [weightTotal_cons, weightedSum_cons, mul_add]
  rintro ⟨above, reached⟩
  apply fails
  have part := weight_le_weightTotal positive member
  have weight := positive vote.1
  have share : gate.weight vote.1 * clamp vote.2 ≤
      gate.sacThreshold * gate.weight vote.1 := by
    rw [mul_comm gate.sacThreshold]
    exact mul_le_mul_of_nonneg_left doubtful.le weight
  constructor
  · linarith only [above, part, weight]
  · linarith only [reached, share]

/-! ## Other thresholds and weights -/

/-- The second gate approves nothing that the first one stops. -/
theorem checkV1_of_checkSac
    (approved : gate.checkSac assessment votes = .approve) :
    gate.checkV1 assessment = .approve :=
  (checkSac_eq_approve_iff.mp approved).1

theorem clamp_mono : Monotone clamp := by
  intro low high less
  rw [clamp, clamp]
  split_ifs <;> linarith

theorem Carries.of_lower {low high : ℚ} (less : low ≤ high)
    (carries : (gate.withSacThreshold high).Carries votes) :
    (gate.withSacThreshold low).Carries votes := by
  obtain ⟨some, reached⟩ := carries
  refine ⟨some, le_trans ?_ reached⟩
  exact clamp_mono less

/-- What a gate approves, one with a lower threshold approves. -/
theorem checkSac_of_lower {low high : ℚ} (less : low ≤ high)
    (approved :
      (gate.withSacThreshold high).checkSac assessment votes = .approve) :
    (gate.withSacThreshold low).checkSac assessment votes = .approve := by
  obtain ⟨approves, carries⟩ := checkSac_eq_approve_iff.mp approved
  exact checkSac_eq_approve_iff.mpr ⟨approves, carries.of_lower less⟩

/-- The gate knows the weights up to a common factor. -/
theorem carries_withWeights_scaled {scale : ℚ} (positive : 0 < scale) :
    (gate.withWeights fun role =>
        (gate.agentWeights role).map (scale * ·)).Carries votes ↔
      gate.Carries votes := by
  have weight : ∀ role, (gate.withWeights fun role =>
      (gate.agentWeights role).map (scale * ·)).weight role =
        scale * gate.weight role := by
    intro role
    simp only [weight, withWeights]
    cases gate.agentWeights role <;> simp
  have total : (gate.withWeights fun role =>
      (gate.agentWeights role).map (scale * ·)).weightTotal votes =
        scale * gate.weightTotal votes := by
    simp only [weightTotal, weight, List.sum_map_mul_left]
  have sum : (gate.withWeights fun role =>
      (gate.agentWeights role).map (scale * ·)).weightedSum votes =
        scale * gate.weightedSum votes := by
    simp only [weightedSum, weight, mul_assoc, List.sum_map_mul_left]
  rw [Carries, Carries, total, sum, mul_div_mul_left _ _ positive.ne']
  apply and_congr_left'
  exact mul_ne_zero_iff_left positive.ne'

/-! ## The consensus -/

/-- A halt of the first gate is kept; otherwise the gate approves exactly when
the average of all entries reaches the threshold, in whatever order they
stand.  With one entry for each role this is the average over the roles.  An
entry that is repeated counts again: without negative weights, a confident one
keeps an approval and a doubtful one keeps a halt. -/
theorem checkSac_consensus (gate : BaaarV2Gate) (assessment : FraudAssessment)
    (votes : List (AgentRole × ℚ)) :
    (∀ reason, BaaarGate.check assessment = .halt reason →
      gate.checkSac assessment votes = .halt reason) ∧
    (BaaarGate.check assessment = .approve →
      gate.checkSac assessment votes =
        if gate.weightTotal votes ≠ 0 ∧
            gate.sacThreshold ≤
              gate.weightedSum votes / gate.weightTotal votes
        then .approve else .halt .coherenceTooLow) ∧
    (∀ other, votes.Perm other →
      gate.checkSac assessment other = gate.checkSac assessment votes) ∧
    (∀ confidence : AgentRole → ℚ,
      (∀ vote ∈ votes, confidence vote.1 = vote.2) →
        (votes.map Prod.fst).Nodup →
          gate.weightedSum votes / gate.weightTotal votes =
              gate.roleAverage (votes.map Prod.fst).toFinset confidence ∧
            (gate.checkSac assessment votes = .approve →
              gate.sacThreshold ≤
                gate.roleAverage (votes.map Prod.fst).toFinset confidence)) ∧
    ((∀ role, 0 ≤ gate.weight role) → ∀ vote ∈ votes,
      (gate.sacThreshold ≤ clamp vote.2 →
        gate.checkSac assessment votes = .approve →
          gate.checkSac assessment (vote :: votes) = .approve) ∧
      (clamp vote.2 < gate.sacThreshold →
        gate.checkSac assessment votes ≠ .approve →
          gate.checkSac assessment (vote :: votes) =
            gate.checkSac assessment votes)) := by
  refine ⟨fun reason halts => checkSac_of_halt halts, ?_, ?_, ?_, ?_⟩
  · intro approves
    split_ifs with carries
    · exact checkSac_eq_approve_iff.mpr ⟨approves, carries⟩
    · exact checkSac_of_not_carries approves carries
  · intro other perm
    apply checkSac_congr
    exact (Carries.perm perm).symm
  · intro confidence given single
    have average := @average_of_nodup gate votes confidence given single
    refine ⟨average, fun approved => ?_⟩
    rw [← average]
    exact (checkSac_eq_approve_iff.mp approved).2.2
  · intro positive vote member
    constructor
    · intro confident approved
      obtain ⟨approves, carries⟩ := checkSac_eq_approve_iff.mp approved
      apply checkSac_eq_approve_iff.mpr
      exact ⟨approves, carries.cons_of_ge positive confident⟩
    · intro doubtful notApproved
      cases judged : BaaarGate.check assessment with
      | halt reason => rw [checkSac_of_halt judged, checkSac_of_halt judged]
      | approve =>
          have fails : ¬ gate.Carries votes := by
            intro carries
            exact notApproved (checkSac_eq_approve_iff.mpr ⟨judged, carries⟩)
          rw [checkSac_of_not_carries judged fails, checkSac_of_not_carries
            judged (not_carries_cons_of_lt positive member doubtful fails)]

def quietAssessment : FraudAssessment :=
  { riskScore := ⟨0⟩, findings := [], coherenceScore := ⟨0x3F800000⟩
    debateRounds := 1, explicitHalt := false }

/-- A second vote of the extractor outvotes the fraud auditor. -/
theorem secondVote_counts :
    BaaarV2Gate.new.checkSac quietAssessment
        [(.extractor, 1), (.fraudAuditor, 0)] = .halt .coherenceTooLow ∧
      BaaarV2Gate.new.checkSac quietAssessment
        [(.extractor, 1), (.extractor, 1), (.fraudAuditor, 0)] = .approve := by
  have quiet : BaaarGate.check quietAssessment = .approve := by decide
  constructor
  · apply checkSac_of_not_carries quiet
    norm_num [Carries, weightTotal, weightedSum, weight, new, clamp]
  · apply checkSac_eq_approve_iff.mpr
    refine ⟨quiet, ?_⟩
    norm_num [Carries, weightTotal, weightedSum, weight, new, clamp]

end BaaarV2Gate

end TrustLayer.Baaar
