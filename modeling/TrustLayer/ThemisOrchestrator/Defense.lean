import TrustLayer.Library.Text
import Mathlib.Logic.Function.Basic

/-!
# The monitor of rogue agents and the guard of tired humans

The monitor counts the messages in which an agent mentions no other one, and
quarantines the agent at a threshold.  The guard counts the approvals of the
last minute, and refuses authorisation above a maximum.
-/

namespace TrustLayer.ThemisOrchestrator

open TrustLayer.Library

/-! ## The monitor -/

inductive RogueStatus where
  | active (count : UInt32)
  | quarantined (count : UInt32)
  deriving DecidableEq

structure RogueMonitor where
  threshold : UInt32
  perAgentCounts : Str → Option UInt32
  quarantined : Str → Bool

def defaultThreshold : UInt32 := 10

namespace RogueMonitor

def withThreshold (threshold : UInt32) : RogueMonitor :=
  { threshold, perAgentCounts := fun _ => none, quarantined := fun _ => false }

def new : RogueMonitor := withThreshold defaultThreshold

/-- The counter wraps around. -/
def recordMessage (monitor : RogueMonitor) (agent : Str)
    (mentionedAnother : Bool) : RogueStatus × RogueMonitor :=
  if mentionedAnother then
    (.active 0,
      { monitor with
        perAgentCounts := Function.update monitor.perAgentCounts agent none
        quarantined := Function.update monitor.quarantined agent false })
  else
    let count := (monitor.perAgentCounts agent).getD 0 + 1
    let alreadyQuarantined := monitor.quarantined agent
    let monitor :=
      { monitor with
        perAgentCounts :=
          Function.update monitor.perAgentCounts agent (some count) }
    if monitor.threshold ≤ count then
      (if alreadyQuarantined then .active count else .quarantined count,
        { monitor with
          quarantined := Function.update monitor.quarantined agent true })
    else (.active count, monitor)

def isQuarantined (monitor : RogueMonitor) (agent : Str) : Bool :=
  monitor.quarantined agent

def unquarantine (monitor : RogueMonitor) (agent : Str) : RogueMonitor :=
  { monitor with
    quarantined := Function.update monitor.quarantined agent false
    perAgentCounts := Function.update monitor.perAgentCounts agent none }

/-- The monitor behind one more message of the agent, without a mention. -/
def observed (monitor : RogueMonitor) (agent : Str) : RogueMonitor :=
  (monitor.recordMessage agent false).2

def count (monitor : RogueMonitor) (agent : Str) : UInt32 :=
  (monitor.perAgentCounts agent).getD 0

section

variable {monitor : RogueMonitor} {agent other : Str}

/-- The count grows, and the agent is quarantined at the threshold. -/
theorem observed_eq :
    monitor.observed agent =
      { threshold := monitor.threshold
        perAgentCounts := Function.update monitor.perAgentCounts agent
          (some (monitor.count agent + 1))
        quarantined :=
          if monitor.threshold ≤ monitor.count agent + 1 then
            Function.update monitor.quarantined agent true
          else monitor.quarantined } := by
  by_cases reached : monitor.threshold ≤ monitor.count agent + 1
  · rw [if_pos reached]
    exact congrArg Prod.snd (if_pos reached)
  · rw [if_neg reached]
    exact congrArg Prod.snd (if_neg reached)

@[simp] theorem observed_threshold :
    (monitor.observed agent).threshold = monitor.threshold := by
  rw [observed_eq]

theorem observed_count_self :
    (monitor.observed agent).count agent = monitor.count agent + 1 := by
  rw [observed_eq]
  simp [count]

theorem observed_count_of_ne (different : other ≠ agent) :
    (monitor.observed agent).count other = monitor.count other := by
  rw [observed_eq]
  simp [count, Function.update_of_ne different]

theorem observed_isQuarantined_self :
    (monitor.observed agent).isQuarantined agent =
      (decide (monitor.threshold ≤ monitor.count agent + 1) ||
        monitor.isQuarantined agent) := by
  rw [observed_eq]
  by_cases reached : monitor.threshold ≤ monitor.count agent + 1
  · simp [isQuarantined, reached]
  · simp [isQuarantined, reached]

theorem observed_isQuarantined_of_ne (different : other ≠ agent) :
    (monitor.observed agent).isQuarantined other =
      monitor.isQuarantined other := by
  rw [observed_eq]
  by_cases reached : monitor.threshold ≤ monitor.count agent + 1
  · simp [isQuarantined, reached, Function.update_of_ne different]
  · simp [isQuarantined, reached]

/-- The monitor behind one message of each of the agents. -/
def observedAll (monitor : RogueMonitor) (agents : List Str) : RogueMonitor :=
  agents.foldl observed monitor

theorem observedAll_threshold {agents : List Str} :
    (monitor.observedAll agents).threshold = monitor.threshold := by
  induction agents generalizing monitor with
  | nil => rfl
  | cons agent agents induction =>
      rw [observedAll, List.foldl_cons]
      exact induction.trans observed_threshold

theorem observedAll_of_notMem {agents : List Str} (absent : agent ∉ agents) :
    (monitor.observedAll agents).count agent = monitor.count agent ∧
      (monitor.observedAll agents).isQuarantined agent =
        monitor.isQuarantined agent := by
  induction agents generalizing monitor with
  | nil => exact ⟨rfl, rfl⟩
  | cons other agents induction =>
      have different := List.ne_of_not_mem_cons absent
      have later := List.not_mem_of_not_mem_cons absent
      obtain ⟨counts, judges⟩ := @induction (monitor.observed other) later
      rw [observedAll, List.foldl_cons]
      exact ⟨counts.trans (observed_count_of_ne different),
        judges.trans (observed_isQuarantined_of_ne different)⟩

theorem observedAll_of_mem {agents : List Str} (distinct : agents.Nodup)
    (member : agent ∈ agents) :
    (monitor.observedAll agents).count agent = monitor.count agent + 1 ∧
      (monitor.observedAll agents).isQuarantined agent =
        (monitor.observed agent).isQuarantined agent := by
  induction agents generalizing monitor with
  | nil => cases member
  | cons other agents induction =>
      obtain ⟨absent, distinct⟩ := List.nodup_cons.mp distinct
      rw [observedAll, List.foldl_cons]
      rcases List.mem_cons.mp member with rfl | later
      · obtain ⟨counts, judges⟩ :=
          @observedAll_of_notMem (monitor.observed agent) agent agents absent
        exact ⟨counts.trans observed_count_self, judges⟩
      · have different : agent ≠ other := fun same => absent (same ▸ later)
        obtain ⟨counts, judges⟩ :=
          @induction (monitor.observed other) distinct later
        rw [observed_count_of_ne different] at counts
        rw [observed_isQuarantined_self, observed_threshold,
          observed_count_of_ne different,
          observed_isQuarantined_of_ne different,
          ← observed_isQuarantined_self] at judges
        exact ⟨counts, judges⟩

end

end RogueMonitor

/-! ## The guard -/

/-- A duration is in nanoseconds, and an instant counts them from a fixed
one. -/
structure AlertFatigueDetector where
  maxApprovalsPerWindow : UInt32
  window : Nat
  approvals : List Nat
  deriving DecidableEq

inductive AlertFatigueStatus where
  | ok (count : Nat)
  | suspended (until_ : Nat) (count : Nat)
  deriving DecidableEq

inductive AlertFatigueError where
  | requiresReauth
  deriving DecidableEq

def defaultMaxApprovals : UInt32 := 5

def defaultWindow : Nat := 60 * 1000000000

namespace AlertFatigueDetector

def withParams (maxApprovalsPerWindow : UInt32) (window : Nat) :
    AlertFatigueDetector :=
  { maxApprovalsPerWindow, window, approvals := [] }

def new : AlertFatigueDetector :=
  withParams defaultMaxApprovals defaultWindow

/-- The approvals from the first one that has not aged out.  `duration_since`
of a later instant is zero. -/
def prune (detector : AlertFatigueDetector) (now : Nat) :
    AlertFatigueDetector :=
  { detector with
    approvals := detector.approvals.dropWhile fun front =>
      decide (detector.window ≤ now - front) }

def recordApprovalAt (detector : AlertFatigueDetector) (now : Nat) :
    AlertFatigueStatus × AlertFatigueDetector :=
  let pruned := detector.prune now
  let detector := { pruned with approvals := pruned.approvals ++ [now] }
  let count := detector.approvals.length
  (if detector.maxApprovalsPerWindow.toNat < count then
      .suspended ((detector.approvals.head?.map (· + detector.window)).getD now)
        count
    else .ok count,
    detector)

def checkAuthorization (detector : AlertFatigueDetector) (now : Nat) :
    Except AlertFatigueError Unit × AlertFatigueDetector :=
  let detector := detector.prune now
  (if detector.maxApprovalsPerWindow.toNat < detector.approvals.length then
      .error .requiresReauth
    else .ok (),
    detector)

def resetAfterReauth (detector : AlertFatigueDetector) : AlertFatigueDetector :=
  { detector with approvals := [] }

/-- The queue as it is, without pruning. -/
def currentCount (detector : AlertFatigueDetector) : Nat :=
  detector.approvals.length

/-- Authorisation is refused at the instant. -/
def SuspendedAt (detector : AlertFatigueDetector) (now : Nat) : Prop :=
  (detector.checkAuthorization now).1 = .error .requiresReauth

theorem suspendedAt_iff {detector : AlertFatigueDetector} {now : Nat} :
    detector.SuspendedAt now ↔
      detector.maxApprovalsPerWindow.toNat <
        (detector.prune now).approvals.length := by
  rw [SuspendedAt, checkAuthorization]
  split
  case isTrue above => exact iff_of_true rfl above
  case isFalse within => exact iff_of_false nofun within

end AlertFatigueDetector

end TrustLayer.ThemisOrchestrator
