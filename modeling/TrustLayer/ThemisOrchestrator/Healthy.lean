import TrustLayer.ThemisOrchestrator.Outcomes

/-!
# Healthy runs under the monitor

Every stage of a run is observed as a message without a mention, and nothing
resets the counts between runs.
-/

namespace TrustLayer.ThemisOrchestrator

open TrustLayer.Library
open TrustLayer.Themis (BandRoom RoomId)
open TrustLayer.ThemisAgents (AgentDecision FloatTexts)
open TrustLayer.ThemisEvidence (Signing)
open TrustLayer.TlChain (Blake3)
open TrustLayer.TlVerify (Crates)

/-- The agent of every stage has been observed as often, and none is
quarantined. -/
structure Counted (monitor : RogueMonitor) (count : Nat) : Prop where
  threshold : monitor.threshold = defaultThreshold
  counts : ∀ stage ∈ stages,
    monitor.count stage.agentName = UInt32.ofNat count
  free : ∀ stage ∈ stages, monitor.isQuarantined stage.agentName = false

theorem counted_new : Counted .new 0 where
  threshold := rfl
  counts _ _ := rfl
  free _ _ := rfl

section

variable {monitor : RogueMonitor} {count : Nat}

/-- The next message of an agent quarantines it exactly from the tenth on. -/
theorem Counted.quarantined_eq (counted : Counted monitor count)
    (small : count < 10) {stage : Stage} (member : stage ∈ stages) :
    (monitor.observed stage.agentName).isQuarantined stage.agentName =
      decide (9 ≤ count) := by
  rw [RogueMonitor.observed_isQuarantined_self, counted.threshold,
    counted.counts stage member, counted.free stage member, Bool.or_false]
  apply decide_eq_decide.mpr
  rw [defaultThreshold, UInt32.le_iff_toNat_le, UInt32.toNat_add,
    UInt32.toNat_ofNat']
  simp only [UInt32.toNat_ofNat]
  omega

/-- The monitor behind a run of all the stages. -/
theorem Counted.observedAll (counted : Counted monitor count)
    (small : count < 9) :
    Counted (monitor.observedAll (stages.map Stage.agentName))
      (count + 1) := by
  have distinct : (stages.map Stage.agentName).Nodup := by decide
  have observed (stage : Stage) (member : stage ∈ stages) :=
    @RogueMonitor.observedAll_of_mem monitor stage.agentName
      (stages.map Stage.agentName) distinct (List.mem_map_of_mem member)
  constructor
  · rw [RogueMonitor.observedAll_threshold, counted.threshold]
  · intro stage member
    rw [(observed stage member).1, counted.counts stage member]
    exact (UInt32.ofNat_add count 1).symm
  · intro stage member
    rw [(observed stage member).2,
      counted.quarantined_eq (by omega) member]
    exact decide_eq_false (by omega)

end

namespace Orchestrator

section

variable [FloatTexts] [Blake3] [Crates] [Signing]
variable {σ : Type} [BandRoom σ]
variable {orchestrator : Orchestrator σ} {run : Invocation}
variable {monitor : RogueMonitor} {count : Nat}

omit [Blake3] [Crates] [Signing] in
/-- The run starts, every agent is there and answers whatever it is given, and
the gate accepts every answer. -/
structure Healthy (orchestrator : Orchestrator σ) (run : Invocation) :
    Prop where
  starts : ∃ room rooms, Starts orchestrator run room rooms
  answers : ∀ stage ∈ stages, ∃ agent,
    run.agents stage.agentName = some agent ∧
      ∀ ctx, ∃ decision, agent ctx = .ok decision ∧ gate stage decision = none

/-- The runs one after another. -/
def processAll (orchestrator : Orchestrator σ) :
    List Invocation →
      List (Except OrchestratorError SignedPacket) × Orchestrator σ
  | [] => ([], orchestrator)
  | run :: runs =>
      let (result, orchestrator) := orchestrator.processInvoice run
      let (results, orchestrator) := orchestrator.processAll runs
      (result :: results, orchestrator)

/-- Each run is healthy where it begins. -/
def HealthyAll (orchestrator : Orchestrator σ) : List Invocation → Prop
  | [] => True
  | run :: runs =>
      Healthy orchestrator run ∧
        (orchestrator.processInvoice run).2.HealthyAll runs

/-- The packet holds the decisions of all eight stages. -/
def Completed (result : Except OrchestratorError SignedPacket) : Prop :=
  ∃ signed, result = .ok signed ∧ signed.packet.agentDecisions.length = 8

omit [Blake3] [Crates] [Signing] in
/-- A healthy run whose agents are not quarantined completes its debate. -/
theorem Healthy.exists_debates (healthy : Healthy orchestrator run)
    (free : ∀ stage ∈ stages,
      orchestrator.quarantines stage.agentName = false) :
    ∃ decisions, Debates run orchestrator.quarantines decisions .completed := by
  have willing : ∀ stage ∈ stages, ∀ made, ∃ decision,
      answer run orchestrator.quarantines stage made = .ok decision ∧
        gate stage decision = none := by
    intro stage member made
    obtain ⟨agent, registered, answers⟩ := healthy.answers stage member
    obtain ⟨decision, answered, accepted⟩ :=
      answers (contextFor run stage.agentName made)
    exact ⟨decision, answer_eq_ok_iff.mpr
      ⟨agent, registered, free stage member, answered⟩, accepted⟩
  obtain ⟨decisions, passes⟩ := exists_passes willing []
  exact ⟨decisions, .completed passes⟩

/-- One of the first nine healthy runs. -/
theorem Healthy.completed (healthy : Healthy orchestrator run)
    (monitored : orchestrator.rogueMonitor = some monitor)
    (counted : Counted monitor count) (small : count < 9) :
    Completed (orchestrator.processInvoice run).1 ∧
      (orchestrator.processInvoice run).2.rogueMonitor =
        some (monitor.observedAll (stages.map Stage.agentName)) := by
  have free : ∀ stage ∈ stages,
      orchestrator.quarantines stage.agentName = false := by
    intro stage member
    rw [quarantines_eq, monitored, Option.any_some,
      counted.quarantined_eq (by omega) member]
    exact decide_eq_false (by omega)
  obtain ⟨decisions, ends⟩ := healthy.exists_debates free
  obtain ⟨room, rooms, starts⟩ := healthy.starts
  have length := length_of_completed ends
  rw [← inRooms_quarantines orchestrator rooms] at ends
  obtain ⟨left, middle, debated, made, -, -, -, observed⟩ :=
    debate_of_completed room ends
  obtain ⟨signed, after, finished, packet, -, -, monitor, -⟩ :=
    @finish_spec _ _ _ _ σ run left middle
  rw [processInvoice_of_starts starts, debated, finished]
  constructor
  · refine ⟨signed, rfl, ?_⟩
    rw [packet]
    exact made ▸ length
  · rw [monitor, observed]
    exact congrArg (Option.map _) monitored

/-- The tenth healthy run stops at its first stage. -/
theorem Healthy.not_completed (healthy : Healthy orchestrator run)
    (monitored : orchestrator.rogueMonitor = some monitor)
    (counted : Counted monitor 9) :
    ¬ Completed (orchestrator.processInvoice run).1 := by
  obtain ⟨room, rooms, starts⟩ := healthy.starts
  obtain ⟨stage, later, split⟩ : ∃ stage later, stages = stage :: later :=
    ⟨_, _, rfl⟩
  have first : stage ∈ stages := split ▸ List.mem_cons_self
  have quarantined : orchestrator.quarantines stage.agentName = true := by
    rw [quarantines_eq, monitored, Option.any_some,
      counted.quarantined_eq (Nat.lt_succ_self 9) first]
    exact decide_eq_true (Nat.le_refl 9)
  obtain ⟨agent, registered, -⟩ := healthy.answers stage first
  have ends : Debates run orchestrator.quarantines []
      (.cut (quarantinedAgent stage.agentName)) := by
    rw [Debates, split]
    exact .cut .nil (answer_of_quarantined registered quarantined)
  obtain ⟨after, -, result⟩ :=
    processInvoice_of_cut starts ends (Nat.zero_lt_succ 6)
  rintro ⟨signed, returned, length⟩
  rw [result] at returned
  obtain rfl := Except.ok.inj returned
  have nothing : ([] : List AgentDecision).length = 8 := length
  cases nothing

/-- Healthy runs all complete exactly as long as the monitor has seen no agent
ten times. -/
theorem completed_iff_of_counted {runs : List Invocation}
    (monitored : orchestrator.rogueMonitor = some monitor)
    (counted : Counted monitor count) (small : count < 10)
    (healthy : orchestrator.HealthyAll runs) :
    (∀ result ∈ (orchestrator.processAll runs).1, Completed result) ↔
      count + runs.length < 10 := by
  induction runs generalizing orchestrator monitor count with
  | nil =>
      rw [processAll, List.length_nil, Nat.add_zero]
      exact iff_of_true (List.forall_mem_nil _) small
  | cons run runs induction =>
      obtain ⟨here, later⟩ := healthy
      rw [processAll, List.forall_mem_cons, List.length_cons]
      by_cases last : count = 9
      · subst last
        refine iff_of_false ?_ (by omega)
        intro both
        exact here.not_completed monitored counted both.1
      · obtain ⟨completes, observed⟩ :=
          here.completed monitored counted (by omega)
        rw [and_iff_right completes, induction observed
          (counted.observedAll (by omega)) (by omega) later]
        omega

/-- The healthy runs under a new monitor all complete exactly when they are at
most nine. -/
theorem completed_iff {runs : List Invocation}
    (monitored : orchestrator.rogueMonitor = some .new)
    (healthy : orchestrator.HealthyAll runs) :
    (∀ result ∈ (orchestrator.processAll runs).1, Completed result) ↔
      runs.length < 10 := by
  have counts := completed_iff_of_counted monitored counted_new
    (Nat.zero_lt_succ 9) healthy
  rwa [Nat.zero_add] at counts

variable (σ) in
/-- The monitor stops no healthy run. -/
def NeverStops : Prop :=
  ∀ (orchestrator : Orchestrator σ) (runs : List Invocation),
    orchestrator.rogueMonitor = some .new → orchestrator.HealthyAll runs →
    ∀ result ∈ (orchestrator.processAll runs).1, Completed result

end

section

open TrustLayer.Themis (KeepingBridge RealBandRoom)

attribute [local instance] sampleFloats sampleHashes sampleCrates
  sampleSigning

/-- Runs with quiet agents are healthy, as many as they are. -/
theorem quietRuns_healthy
    {orchestrator : Orchestrator (RealBandRoom KeepingBridge)}
    (known : orchestrator.tenants "stark".toList ≠ none) (count : Nat) :
    orchestrator.HealthyAll (List.replicate count (sampleRun quietAgents)) := by
  induction count generalizing orchestrator with
  | zero => trivial
  | succ count induction =>
      rw [List.replicate_succ]
      constructor
      · constructor
        · exact exists_starts known
        · intro stage member
          obtain ⟨decisionType, registered⟩ := quietAgents_registered member
          exact ⟨_, registered, quietAgent_accepted stage decisionType⟩
      · apply induction
        rw [processInvoice_tenants]
        exact known

def monitoredOrchestrator : Orchestrator (RealBandRoom KeepingBridge) :=
  { sampleOrchestrator with rogueMonitor := some .new }

theorem nineRuns_completed :
    monitoredOrchestrator.HealthyAll
        (List.replicate 9 (sampleRun quietAgents)) ∧
      ∀ result ∈ (monitoredOrchestrator.processAll
        (List.replicate 9 (sampleRun quietAgents))).1, Completed result := by
  have healthy := @quietRuns_healthy monitoredOrchestrator nofun 9
  constructor
  · exact healthy
  · apply (completed_iff rfl healthy).mpr
    rw [List.length_replicate]
    exact Nat.lt_succ_self 9

theorem tenRuns_not_neverStops :
    ¬ NeverStops (RealBandRoom KeepingBridge) := by
  intro neverStops
  have healthy := @quietRuns_healthy monitoredOrchestrator nofun 10
  have counts := completed_iff_of_counted rfl counted_new
    (Nat.zero_lt_succ 9) healthy
  have small := counts.mp (neverStops monitoredOrchestrator _ rfl healthy)
  rw [List.length_replicate] at small
  exact absurd small (by decide)

end

end Orchestrator

end TrustLayer.ThemisOrchestrator
