import TrustLayer.ThemisOrchestrator.Outcomes

/-!
# Suspended runs

The guard is asked once, behind the loop.  A run that a stage cuts before has
been signed by then, and a service seals a packet without asking at all.
-/

namespace TrustLayer.ThemisOrchestrator

open TrustLayer.Library
open TrustLayer.Baaar (BaaarReason)
open TrustLayer.Themis (BandRoom RoomId)
open TrustLayer.ThemisAgents (AgentDecision FloatTexts)
open TrustLayer.ThemisEvidence (Signing)
open TrustLayer.TlChain (Blake3)
open TrustLayer.TlVerify (Crates)

namespace Orchestrator

section

variable {σ : Type} [BandRoom σ]
variable [FloatTexts] [Blake3] [Crates] [Signing]
variable {orchestrator : Orchestrator σ} {run : Invocation}
variable {decisions : List AgentDecision}

/-- No signature, no entry in the log, and no entry in a chain. -/
structure Untouched (before after : Orchestrator σ) : Prop where
  effects : after.effects = before.effects
  services : after.services = before.services

/-- The run is cut at a stage before the last. -/
def CutEarly (orchestrator : Orchestrator σ) (run : Invocation) : Prop :=
  ∃ room rooms decisions reason, Starts orchestrator run room rooms ∧
    Debates run orchestrator.quarantines decisions (.cut reason) ∧
    decisions.length < 7

/-- The run does not start, or is cut at the last stage. -/
def Breaks (orchestrator : Orchestrator σ) (run : Invocation) : Prop :=
  ∀ room rooms, Starts orchestrator run room rooms →
    ∃ decisions reason,
      Debates run orchestrator.quarantines decisions (.cut reason) ∧
      ¬ decisions.length < 7

/-- The tenant has an evidence service. -/
def Serviced (orchestrator : Orchestrator σ) (run : Invocation) : Prop :=
  ∃ services service, orchestrator.services = some services ∧
    services run.tenantId = some service

omit [BandRoom σ] [FloatTexts] [Blake3] [Crates] [Signing] in
theorem Kept.record_effects {before after : Orchestrator σ}
    (kept : Kept before after) (effect : Effect) :
    (after.record effect).effects = before.effects ++ [effect] :=
  congrArg (· ++ [effect]) kept.effects

omit [BandRoom σ] [FloatTexts] [Blake3] [Crates] [Signing] in
theorem Kept.untouched {before after : Orchestrator σ}
    (kept : Kept before after) : Untouched before after :=
  ⟨kept.effects, kept.services⟩

omit [BandRoom σ] [FloatTexts] [Blake3] [Crates] [Signing] in
/-- An effect is never undone. -/
theorem not_untouched {before after : Orchestrator σ}
    {effect : Effect} {later : List Effect}
    (grown : after.effects = before.effects ++ effect :: later) :
    ¬ Untouched before after := by
  intro untouched
  have lengths := congrArg List.length (grown.symm.trans untouched.effects)
  rw [List.length_append, List.length_cons] at lengths
  omega

omit [BandRoom σ] in
variable (orchestrator run) in
/-- A service signs, whatever becomes of the packet. -/
theorem sealSigned_cases (signed : SignedPacket) :
    (Serviced orchestrator run ∧ ∃ effect,
      (orchestrator.sealSigned run signed).2.effects =
        orchestrator.effects ++ [effect]) ∨
    (¬ Serviced orchestrator run ∧
      (orchestrator.sealSigned run signed).2 = orchestrator) := by
  rw [sealSigned, Serviced]
  cases configured : orchestrator.services with
  | none =>
      refine .inr ⟨?_, rfl⟩
      rintro ⟨services, service, present, -⟩
      cases present
  | some services =>
      simp only
      cases found : services run.tenantId with
      | none =>
          refine .inr ⟨?_, rfl⟩
          rintro ⟨others, service, same, present⟩
          obtain rfl := Option.some.inj same
          rw [found] at present
          cases present
      | some service => exact .inl ⟨⟨services, service, rfl, found⟩, _, rfl⟩

omit [BandRoom σ] in
/-- Without an effect before it, the seal alone decides. -/
theorem untouched_sealSigned_iff {after : Orchestrator σ}
    (signed : SignedPacket) (untouched : Untouched orchestrator after) :
    Untouched orchestrator (after.sealSigned run signed).2 ↔
      ¬ Serviced orchestrator run := by
  have same : Serviced after run ↔ Serviced orchestrator run := by
    rw [Serviced, Serviced, untouched.services]
  rw [← same]
  rcases sealSigned_cases after run signed with
    ⟨serviced, effect, sealed⟩ | ⟨bare, unsealed⟩
  · rw [untouched.effects] at sealed
    exact iff_of_false (not_untouched sealed) (not_not.mpr serviced)
  · rw [unsealed]
    exact iff_of_true untouched bare

omit [BandRoom σ] in
/-- No seal takes an effect back. -/
theorem not_untouched_sealSigned {after : Orchestrator σ} {effect : Effect}
    (signed : SignedPacket)
    (grown : after.effects = orchestrator.effects ++ [effect]) :
    ¬ Untouched orchestrator (after.sealSigned run signed).2 := by
  rcases sealSigned_cases after run signed with
    ⟨-, second, sealed⟩ | ⟨-, unsealed⟩
  · rw [grown, List.append_assoc] at sealed
    exact not_untouched sealed
  · rw [unsealed]
    exact not_untouched grown

/-- What is left of a run that is sealed: the seal is tried behind a packet. -/
theorem processInvoiceSealed_snd :
    (orchestrator.processInvoiceSealed run).2 =
      match orchestrator.processInvoice run with
      | (.error _, after) => after
      | (.ok signed, after) => (after.sealSigned run signed).2 := by
  rw [processInvoiceSealed]
  rcases orchestrator.processInvoice run with ⟨error | signed, after⟩
  · rfl
  · simp only
    rcases after.sealSigned run signed with ⟨error | sealed, last⟩
    · rfl
    · rfl

omit [Blake3] [Crates] [Signing] in
/-- A run that starts and is not cut early is not cut early in another room. -/
theorem not_cutEarly {ending : Ending Str BaaarReason}
    (ends : Debates run orchestrator.quarantines decisions ending)
    (late : ∀ reason, ending = .cut reason → ¬ decisions.length < 7) :
    ¬ CutEarly orchestrator run := by
  rintro ⟨room, rooms, other, reason, -, otherEnds, early⟩
  obtain ⟨rfl, rfl⟩ := Ends.unique ends otherEnds
  exact late reason rfl early

/-- A suspended run has no effect exactly when no stage before the last cuts
it; sealed, it must also break, or be one of a tenant without a service. -/
theorem untouched_iff (suspended : orchestrator.Suspended run.guardNow) :
    (Untouched orchestrator (orchestrator.processInvoice run).2 ↔
      ¬ CutEarly orchestrator run) ∧
    (Untouched orchestrator (orchestrator.processInvoiceSealed run).2 ↔
      ¬ CutEarly orchestrator run ∧
        (Serviced orchestrator run → Breaks orchestrator run)) := by
  have returns := processInvoice_returns orchestrator run
  rw [processInvoiceSealed_snd]
  generalize orchestrator.processInvoice run = result at returns ⊢
  cases returns with
  | unstarted unstarted kept =>
      have uncut : ¬ CutEarly orchestrator run := by
        intro cutEarly
        obtain ⟨room, rooms, -, -, starts, -⟩ := cutEarly
        exact unstarted room rooms starts
      have breaks : Breaks orchestrator run :=
        fun room rooms starts => absurd starts (unstarted room rooms)
      constructor
      · exact iff_of_true kept.untouched uncut
      · exact iff_of_true kept.untouched ⟨uncut, fun _ => breaks⟩
  | cutLast starts ends late kept =>
      have uncut := not_cutEarly ends fun _ _ => late
      have breaks : Breaks orchestrator run :=
        fun _ _ _ => ⟨_, _, ends, late⟩
      constructor
      · exact iff_of_true kept.untouched uncut
      · exact iff_of_true kept.untouched ⟨uncut, fun _ => breaks⟩
  | @cut room rooms decisions reason after starts ends early kept =>
      have cutEarly : CutEarly orchestrator run :=
        ⟨room, rooms, decisions, reason, starts, ends, early⟩
      have effects := kept.record_effects (.signed (after.signedAs
        (assemble run decisions .approve) run.tenantId).signatureHex)
      constructor
      · exact iff_of_false (not_untouched effects) (not_not.mpr cutEarly)
      · exact iff_of_false (not_untouched_sealSigned _ effects)
          fun both => both.1 cutEarly
  | @whole room rooms decisions ending signed after starts ends whole packet
      tenants services effects =>
      have untouched : Untouched orchestrator after :=
        ⟨effects suspended, services⟩
      have uncut := not_cutEarly ends fun reason same =>
        absurd same (whole reason)
      have unbroken : ¬ Breaks orchestrator run := by
        intro breaks
        obtain ⟨other, reason, otherEnds, -⟩ := breaks room rooms starts
        exact whole reason (Ends.unique ends otherEnds).2
      constructor
      · exact iff_of_true untouched uncut
      · apply (untouched_sealSigned_iff signed untouched).trans
        constructor
        · intro bare
          exact ⟨uncut, fun serviced => absurd serviced bare⟩
        · intro both serviced
          exact unbroken (both.2 serviced)

variable (σ) in
/-- A suspended run has no effect, sealed or not. -/
def SuspensionBlocks : Prop :=
  ∀ (orchestrator : Orchestrator σ) (run : Invocation),
    orchestrator.Suspended run.guardNow →
    Untouched orchestrator (orchestrator.processInvoice run).2 ∧
      Untouched orchestrator (orchestrator.processInvoiceSealed run).2

end

section

open TrustLayer.Themis (KeepingBridge RealBandRoom)

attribute [local instance] sampleFloats sampleHashes sampleCrates
  sampleSigning

/-- The guard has recorded six approvals in one second. -/
def tiredOrchestrator : Orchestrator (RealBandRoom KeepingBridge) :=
  { sampleOrchestrator with
    humanGuard := some ((List.replicate 6 (9 * 1000000000)).foldl
      (fun guard_ now => (guard_.recordApprovalAt now).2) .new) }

theorem tiredOrchestrator_suspended :
    tiredOrchestrator.Suspended (10 * 1000000000) :=
  ⟨_, rfl, AlertFatigueDetector.suspendedAt_iff.mpr (by decide)⟩

theorem quietRun_untouched :
    Untouched tiredOrchestrator
        (tiredOrchestrator.processInvoice (sampleRun quietAgents)).2 ∧
      Untouched tiredOrchestrator
        (tiredOrchestrator.processInvoiceSealed (sampleRun quietAgents)).2 := by
  obtain ⟨decisions, passes⟩ : ∃ decisions,
      Passes (answer (sampleRun quietAgents) tiredOrchestrator.quarantines)
        gate stages [] decisions :=
    exists_passes (fun _ member => quietAgents_answer member rfl rfl) []
  have ends : Debates (sampleRun quietAgents) tiredOrchestrator.quarantines
      decisions .completed :=
    .completed passes
  have uncut : ¬ CutEarly tiredOrchestrator (sampleRun quietAgents) :=
    not_cutEarly ends nofun
  have bare : ¬ Serviced tiredOrchestrator (sampleRun quietAgents) := by
    rintro ⟨services, service, configured, -⟩
    cases configured
  have suspension :=
    @untouched_iff _ _ _ _ _ _ tiredOrchestrator (sampleRun quietAgents)
      tiredOrchestrator_suspended
  exact ⟨suspension.1.mpr uncut,
    suspension.2.mpr ⟨uncut, fun serviced => absurd serviced bare⟩⟩

/-- Without an agent, a suspended run is signed. -/
theorem bareRun_not_suspensionBlocks :
    ¬ SuspensionBlocks (RealBandRoom KeepingBridge) := by
  intro blocks
  obtain ⟨after, kept, result⟩ := @bareRun_processInvoice tiredOrchestrator nofun
  have untouched := (blocks tiredOrchestrator (sampleRun noAgents)
    tiredOrchestrator_suspended).1
  rw [result] at untouched
  exact not_untouched (kept.record_effects _) untouched

end

end Orchestrator

end TrustLayer.ThemisOrchestrator
