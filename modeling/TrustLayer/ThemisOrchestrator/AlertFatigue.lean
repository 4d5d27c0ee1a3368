import TrustLayer.Library.Runs
import TrustLayer.Library.Recent
import TrustLayer.ThemisOrchestrator.Defense

/-!
# Suspension as time passes

The guard remembers instants and no verdict.  It counts what the window holds,
and a suspension ends by itself when enough approvals have aged out.
-/

namespace TrustLayer.ThemisOrchestrator

open TrustLayer.Library
open TrustLayer.Library.SlidingWindow

namespace AlertFatigueStatus

def count : AlertFatigueStatus → Nat
  | .ok count => count
  | .suspended _ count => count

def isSuspended : AlertFatigueStatus → Bool
  | .ok _ => false
  | .suspended _ _ => true

end AlertFatigueStatus

namespace AlertFatigueDetector

/-! ## Turns of a run -/

inductive Act where
  | recordApproval
  | checkAuthorization
  | resetAfterReauth
  deriving DecidableEq

/-- A call of the detector, some time after the last one. -/
structure Turn where
  elapsed : Nat
  act : Act

/-- The detector and the clock, with two things that the code does not keep:
the approvals since the last reset, and whether one of them was answered with
Suspended. -/
structure Watch where
  detector : AlertFatigueDetector
  now : Nat
  approved : List Nat
  suspended : Bool

namespace Watch

def start (detector : AlertFatigueDetector) : Watch :=
  { detector, now := 0, approved := [], suspended := false }

def step (watch : Watch) (turn : Turn) : Option Watch :=
  let now := watch.now + turn.elapsed
  match turn.act with
  | .recordApproval =>
      let (status, detector) := watch.detector.recordApprovalAt now
      some
        { detector, now
          approved := watch.approved ++ [now]
          suspended := watch.suspended || status.isSuspended }
  | .checkAuthorization =>
      some
        { watch with
          detector := (watch.detector.checkAuthorization now).2
          now }
  | .resetAfterReauth =>
      some
        { detector := watch.detector.resetAfterReauth, now
          approved := []
          suspended := false }

/-- The approvals inside the window when the call comes. -/
def inside (watch : Watch) (turn : Turn) : List Nat :=
  live watch.detector.window (watch.now + turn.elapsed) watch.approved

/-- The approvals inside the window when the call returns, its own included. -/
def counted (watch : Watch) (turn : Turn) : Nat :=
  match turn.act with
  | .recordApproval => (watch.inside turn).length + 1
  | .checkAuthorization => (watch.inside turn).length
  | .resetAfterReauth => 0

/-! ## Laws -/

/-- The count that is reported, judged and kept is that of the window. -/
structure Counts (before : Watch) (turn : Turn) (after : Watch) : Prop where
  reported : turn.act = .recordApproval →
    (before.detector.recordApprovalAt (before.now + turn.elapsed)).1.count =
      before.counted turn
  refused : turn.act = .checkAuthorization →
    (before.detector.SuspendedAt (before.now + turn.elapsed) ↔
      before.detector.maxApprovalsPerWindow.toNat < before.counted turn)
  kept : after.detector.currentCount = before.counted turn

/-- After a report of Suspended, a check is refused until the reset. -/
def Sticky (before : Watch) (turn : Turn) : Prop :=
  turn.act = .checkAuthorization → before.suspended = true →
    before.detector.SuspendedAt (before.now + turn.elapsed)

/-- After a report of Suspended, a check comes before too many approvals have
aged out. -/
def Early (before : Watch) (turn : Turn) : Prop :=
  turn.act = .checkAuthorization → before.suspended = true →
    before.detector.maxApprovalsPerWindow.toNat < (before.inside turn).length

/-- The queue stands for the approvals since the last reset. -/
def Tracks (watch : Watch) : Prop :=
  Follows watch.detector.window watch.now watch.detector.approvals
    watch.approved

/-! ## Steps -/

variable {watch next : Watch} {turn : Turn}

theorem Tracks.prune_eq (tracks : watch.Tracks) (turn : Turn) :
    (watch.detector.prune (watch.now + turn.elapsed)).approvals =
      watch.inside turn :=
  Follows.expire_eq tracks (Nat.le_add_right _ _)

theorem Tracks.prune (tracks : watch.Tracks) (elapsed : Nat) :
    Follows watch.detector.window (watch.now + elapsed)
      (watch.detector.prune (watch.now + elapsed)).approvals watch.approved :=
  Follows.expire tracks (Nat.le_add_right _ _)

theorem Tracks.step (tracks : watch.Tracks)
    (happens : watch.step turn = some next) : next.Tracks := by
  obtain ⟨elapsed, act⟩ := turn
  cases act with
  | recordApproval =>
      cases happens
      exact (tracks.prune elapsed).push
  | checkAuthorization =>
      cases happens
      exact tracks.prune elapsed
  | resetAfterReauth =>
      cases happens
      exact ⟨List.Pairwise.nil, nofun, fun _ _ => rfl⟩

theorem Tracks.reported (tracks : watch.Tracks)
    (records : turn.act = .recordApproval) :
    (watch.detector.recordApprovalAt (watch.now + turn.elapsed)).1.count =
      watch.counted turn := by
  have held := tracks.prune_eq turn
  rw [counted, records]
  simp only [recordApprovalAt, held]
  split <;> simp [AlertFatigueStatus.count]

theorem Tracks.kept (tracks : watch.Tracks)
    (happens : watch.step turn = some next) :
    next.detector.currentCount = watch.counted turn := by
  have held := tracks.prune_eq turn
  obtain ⟨elapsed, act⟩ := turn
  cases act with
  | recordApproval =>
      cases happens
      simp only [currentCount, counted, held, List.length_append,
        List.length_singleton]
  | checkAuthorization =>
      cases happens
      exact congrArg List.length held
  | resetAfterReauth =>
      cases happens
      rfl

theorem Tracks.suspendedAt_iff (tracks : watch.Tracks) (turn : Turn) :
    watch.detector.SuspendedAt (watch.now + turn.elapsed) ↔
      watch.detector.maxApprovalsPerWindow.toNat <
        (watch.inside turn).length := by
  rw [AlertFatigueDetector.suspendedAt_iff, tracks.prune_eq turn]

theorem Tracks.refused_iff (tracks : watch.Tracks)
    (checks : turn.act = .checkAuthorization) :
    watch.detector.SuspendedAt (watch.now + turn.elapsed) ↔
      watch.detector.maxApprovalsPerWindow.toNat < watch.counted turn := by
  rw [counted, checks]
  exact tracks.suspendedAt_iff turn

theorem Tracks.sticky_iff_early (tracks : watch.Tracks) :
    watch.Sticky turn ↔ watch.Early turn := by
  rw [Sticky, Early, tracks.suspendedAt_iff turn]

/-! ## Runs -/

theorem tracks_start (maxApprovalsPerWindow : UInt32) (window : Nat) :
    (start (.withParams maxApprovalsPerWindow window)).Tracks :=
  Follows.nil

/-- In every run the counts are those of the window, and a check is refused by
its count.  So a suspension lasts until the reset exactly when no check comes
after too many approvals have aged out. -/
theorem counts_and_sticky_iff (maxApprovalsPerWindow : UInt32) (window : Nat)
    (turns : List Turn) :
    EachStep step Counts
        (start (.withParams maxApprovalsPerWindow window)) turns ∧
      (EachStep step (fun before turn _ => before.Sticky turn)
          (start (.withParams maxApprovalsPerWindow window)) turns ↔
        EachStep step (fun before turn _ => before.Early turn)
          (start (.withParams maxApprovalsPerWindow window)) turns) := by
  have begins := tracks_start maxApprovalsPerWindow window
  refine ⟨EachStep.of_kept ?_ begins, ?_, ?_⟩
  · intro before turn after tracks happens
    exact ⟨⟨tracks.reported, tracks.refused_iff, tracks.kept happens⟩,
      tracks.step happens⟩
  · apply EachStep.of_invariant
      (fun before turn after tracks happens _ => Tracks.step tracks happens)
      ?_ begins
    intro before turn after tracks _ sticky
    exact tracks.sticky_iff_early.mp sticky
  · apply EachStep.of_invariant
      (fun before turn after tracks happens _ => Tracks.step tracks happens)
      ?_ begins
    intro before turn after tracks _ early
    exact tracks.sticky_iff_early.mpr early

/-- Six approvals at once. -/
def burst : List Turn :=
  List.replicate 6 { elapsed := 0, act := .recordApproval }

/-- A minute later. -/
def lateCheck : Turn :=
  { elapsed := defaultWindow, act := .checkAuthorization }

theorem burst_not_sticky :
    (∃ watch, runFrom step (start new) burst = some watch ∧
        watch.suspended = true ∧
        ¬ watch.detector.SuspendedAt (watch.now + lateCheck.elapsed)) ∧
      ¬ EachStep step (fun before turn _ => before.Sticky turn) (start new)
        (burst ++ [lateCheck]) := by
  have ends : ∀ watch, runFrom step (start new) burst = some watch →
      ¬ watch.detector.SuspendedAt (watch.now + lateCheck.elapsed) := by
    intro watch reached
    cases reached
    rw [AlertFatigueDetector.suspendedAt_iff]
    decide
  constructor
  · exact ⟨_, rfl, rfl, ends _ rfl⟩
  · intro each
    have sticky := eachStep_iff.mp each burst lateCheck [] _ _ rfl rfl rfl
    exact ends _ rfl (sticky rfl rfl)

end Watch

end AlertFatigueDetector

end TrustLayer.ThemisOrchestrator
