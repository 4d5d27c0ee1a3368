import TrustLayer.Library.Pipeline
import TrustLayer.ThemisOrchestrator.Orchestrator

/-!
# The debate behind a run

A run is a pipeline of the eight stages: an agent that is missing, quarantined
or in error cuts it, and the gate may halt it behind the fraud auditor.  What
is signed, and what is left of a run, follows from how the pipeline ends.
-/

namespace TrustLayer.ThemisOrchestrator

open TrustLayer.Library
open TrustLayer.Baaar (BaaarGate.check BaaarReason Outcome)
open TrustLayer.Themis (BandError BandRoom RoomId)
open TrustLayer.ThemisAgents (AgentDecision FloatTexts fromDecisionPayload)
open TrustLayer.ThemisEvidence (EvidenceService SignerService Signing)
open TrustLayer.TlChain (Blake3)
open TrustLayer.TlVerify (Crates)

/-! ## The pipeline -/

/-- What the agent of a stage answers, or why the stage cuts the run. -/
def answer (run : Invocation) (quarantined : Str → Bool) (stage : Stage)
    (decisions : List AgentDecision) : Except Str AgentDecision :=
  match run.agents stage.agentName with
  | none => .error (missingAgent stage.agentName)
  | some agent =>
      if quarantined stage.agentName then
        .error (quarantinedAgent stage.agentName)
      else
        (agent (contextFor run stage.agentName decisions)).mapError
          (failedAgent stage.agentName)

/-- Why the gate halts a run behind a decision. -/
def gate [FloatTexts] (stage : Stage) (decision : AgentDecision) :
    Option BaaarReason :=
  if stage.agentName ≠ "fraud_auditor".toList then none
  else
    match BaaarGate.check (fromDecisionPayload decision.payload) with
    | .approve => none
    | .halt reason => some reason

/-- How the debate of a run ends, and with which decisions. -/
def Debates [FloatTexts] (run : Invocation) (quarantined : Str → Bool) :
    List AgentDecision → Ending Str BaaarReason → Prop :=
  Ends (answer run quarantined) gate stages []

theorem answer_eq_ok_iff {run : Invocation} {quarantined : Str → Bool}
    {stage : Stage} {decisions : List AgentDecision}
    {decision : AgentDecision} :
    answer run quarantined stage decisions = .ok decision ↔
      ∃ agent, run.agents stage.agentName = some agent ∧
        quarantined stage.agentName = false ∧
        agent (contextFor run stage.agentName decisions) = .ok decision := by
  rw [answer]
  cases run.agents stage.agentName with
  | none => simp
  | some agent =>
      cases quarantined stage.agentName with
      | true => simp
      | false =>
          cases answered : agent (contextFor run stage.agentName decisions) <;>
            simp [Except.mapError, answered]

/-- The locals of a run whose machine has entered a stage. -/
def Progress.entered (progress : Progress) (run : Invocation) (stage : Stage) :
    Progress :=
  { progress with
    machine := progress.machine.enter stage.expectedState
      (run.stateNow progress.machine.history.length) }

/-- The locals with one more decision. -/
def Progress.decide (progress : Progress) (decision : AgentDecision) :
    Progress :=
  { progress with decisions := progress.decisions ++ [decision] }

/-- The locals of a run that is halted. -/
def Progress.stopped (progress : Progress) (run : Invocation)
    (outcome : Outcome) : Progress :=
  { progress with
    machine := progress.machine.enter .halted
      (run.stateNow progress.machine.history.length)
    bbaaarOutcome := outcome }

theorem answer_of_quarantined {run : Invocation} {quarantined : Str → Bool}
    {stage : Stage} {decisions : List AgentDecision} {agent : ThemisAgents.Agent}
    (registered : run.agents stage.agentName = some agent)
    (held : quarantined stage.agentName = true) :
    answer run quarantined stage decisions =
      .error (quarantinedAgent stage.agentName) := by
  rw [answer, registered]
  exact if_pos held

namespace Orchestrator

/-! ## One stage -/

section

variable {σ : Type}

/-- What a stage leaves as it is: all but the rooms and the monitor. -/
structure Kept (before after : Orchestrator σ) : Prop where
  stateMachines : after.stateMachines = before.stateMachines
  tenants : after.tenants = before.tenants
  services : after.services = before.services
  humanGuard : after.humanGuard = before.humanGuard
  effects : after.effects = before.effects

theorem Kept.refl (orchestrator : Orchestrator σ) :
    Kept orchestrator orchestrator :=
  ⟨rfl, rfl, rfl, rfl, rfl⟩

theorem Kept.trans {before middle after : Orchestrator σ}
    (first : Kept before middle) (second : Kept middle after) :
    Kept before after where
  stateMachines := second.stateMachines.trans first.stateMachines
  tenants := second.tenants.trans first.tenants
  services := second.services.trans first.services
  humanGuard := second.humanGuard.trans first.humanGuard
  effects := second.effects.trans first.effects

/-- The agent would be quarantined by the observation of its stage. -/
def quarantines (orchestrator : Orchestrator σ) (agentName : Str) : Bool :=
  (orchestrator.observe agentName).1

def observed (orchestrator : Orchestrator σ) (agentName : Str) :
    Orchestrator σ :=
  (orchestrator.observe agentName).2

theorem observed_eq (orchestrator : Orchestrator σ) (agentName : Str) :
    orchestrator.observed agentName =
      { orchestrator with
        rogueMonitor :=
          orchestrator.rogueMonitor.map (·.observed agentName) } := by
  obtain ⟨machines, rooms, tenants, services, guard_, monitor, effects⟩ :=
    orchestrator
  cases monitor <;> rfl

theorem quarantines_eq (orchestrator : Orchestrator σ) (agentName : Str) :
    orchestrator.quarantines agentName =
      orchestrator.rogueMonitor.any fun monitor =>
        (monitor.observed agentName).isQuarantined agentName := by
  rw [quarantines, observe]
  cases orchestrator.rogueMonitor <;> rfl

theorem observed_kept (orchestrator : Orchestrator σ) (agentName : Str) :
    Kept orchestrator (orchestrator.observed agentName) := by
  rw [observed_eq]
  exact ⟨rfl, rfl, rfl, rfl, rfl⟩

/-- The observation of one agent is no matter to the others. -/
theorem quarantines_observed_of_ne (orchestrator : Orchestrator σ)
    {agentName other : Str} (different : other ≠ agentName) :
    (orchestrator.observed agentName).quarantines other =
      orchestrator.quarantines other := by
  rw [quarantines_eq, quarantines_eq, observed_eq]
  cases orchestrator.rogueMonitor with
  | none => rfl
  | some monitor =>
      simp only [Option.map_some, Option.any_some,
        RogueMonitor.observed_isQuarantined_self,
        RogueMonitor.observed_threshold,
        RogueMonitor.observed_count_of_ne different,
        RogueMonitor.observed_isQuarantined_of_ne different]

end

section

variable [FloatTexts] [Blake3] [Crates] [Signing]
variable {σ : Type} [BandRoom σ]
variable {run : Invocation} {room : RoomId} {stage : Stage}
variable {progress : Progress} {orchestrator : Orchestrator σ}

/-- The envelope that `sign` returns. -/
def signedAs (orchestrator : Orchestrator σ) (packet : EvidencePacket)
    (tenantId : Str) : SignedPacket :=
  .wrap packet
    ((SignerService.fromSeed tenantId
      (TlVerify.seedForTenant tenantId)).signHex packet.toCanonicalJson)
    (((orchestrator.tenants tenantId).map Tenant.ed25519PublicKeyHex).getD [])

omit [BandRoom σ] in
/-- The signer of a tenant can always be made. -/
theorem sign_eq (orchestrator : Orchestrator σ) (packet : EvidencePacket)
    (tenantId : Str) :
    orchestrator.sign packet tenantId =
      (.ok (orchestrator.signedAs packet tenantId),
        orchestrator.record
          (.signed (orchestrator.signedAs packet tenantId).signatureHex)) :=
  rfl

omit [BandRoom σ] in
theorem signedAs_signatureHex_ne_nil (orchestrator : Orchestrator σ)
    (packet : EvidencePacket) (tenantId : Str) :
    (orchestrator.signedAs packet tenantId).signatureHex ≠ [] := by
  intro empty
  have decoded := SignerService.hexDecode_signHex
    (SignerService.fromSeed tenantId (TlVerify.seedForTenant tenantId))
    packet.toCanonicalJson
  rw [show SignerService.signHex _ _ = _ from empty] at decoded
  have length := congrArg List.length (Except.ok.inj decoded)
  simp at length

omit [BandRoom σ] in
/-- A machine that can still move is halted, and the decisions are signed. -/
theorem haltAndReturn_of_next {later : InvoiceState} {reason : Str}
    (open_ : progress.machine.state.next = some later) :
    orchestrator.haltAndReturn run progress reason =
      (.returned (.ok (orchestrator.signedAs
          (assemble run progress.decisions .approve) run.tenantId)),
        progress.stopped run .approve,
        orchestrator.record (.signed (orchestrator.signedAs
          (assemble run progress.decisions .approve)
          run.tenantId).signatureHex)) := by
  rw [haltAndReturn, StateMachine.transition_fail open_]
  rfl

omit [BandRoom σ] in
theorem haltAndReturn_of_done {reason : Str}
    (done : progress.machine.state = .done) :
    orchestrator.haltAndReturn run progress reason =
      (.returned (.error (.state (.terminalState .done))), progress,
        orchestrator) := by
  rw [haltAndReturn, StateMachine.transition_of_terminal (.inl done), done]

omit [Blake3] [Crates] [Signing] in
theorem checkBaaarAndMaybeHalt_of_accepted {decision : AgentDecision}
    (accepted : gate stage decision = none) :
    checkBaaarAndMaybeHalt run stage.agentName decision progress =
      (.ok false, progress) := by
  rw [gate] at accepted
  rw [checkBaaarAndMaybeHalt]
  split_ifs with other
  · rfl
  · rw [if_neg other] at accepted
    cases judged : BaaarGate.check (fromDecisionPayload decision.payload) with
    | approve => rfl
    | halt reason =>
        rw [judged] at accepted
        cases accepted

omit [Blake3] [Crates] [Signing] in
theorem checkBaaarAndMaybeHalt_of_refused {decision : AgentDecision}
    {reason : BaaarReason} {later : InvoiceState}
    (refused : gate stage decision = some reason)
    (open_ : progress.machine.state.next = some later) :
    checkBaaarAndMaybeHalt run stage.agentName decision progress =
      (.ok true, progress.stopped run (.halt reason)) := by
  rw [gate] at refused
  rw [checkBaaarAndMaybeHalt]
  split_ifs at refused with other
  rw [if_neg other]
  cases judged : BaaarGate.check (fromDecisionPayload decision.payload) with
  | approve =>
      rw [judged] at refused
      cases refused
  | halt found =>
      rw [judged] at refused
      obtain rfl := Option.some.inj refused
      simp only [StateMachine.transition_halt open_]
      rfl

omit [FloatTexts] [Blake3] [Crates] [Signing] in
theorem publishHandoffEvent_kept {agentName : Str} {decision : AgentDecision} :
    Kept orchestrator
      (orchestrator.publishHandoffEvent run room agentName decision) :=
  ⟨rfl, rfl, rfl, rfl, rfl⟩

/-- The orchestrator behind a stage whose agent has answered. -/
def answered (orchestrator : Orchestrator σ) (run : Invocation) (room : RoomId)
    (agentName : Str) (decision : AgentDecision) : Orchestrator σ :=
  (orchestrator.observed agentName).publishHandoffEvent run room agentName
    decision

omit [FloatTexts] [Blake3] [Crates] [Signing] in
theorem answered_kept {agentName : Str} {decision : AgentDecision} :
    Kept orchestrator (orchestrator.answered run room agentName decision) :=
  (observed_kept orchestrator agentName).trans publishHandoffEvent_kept

/-- What the gate leaves of a stage whose agent answers. -/
theorem attempt_of_ok {decision : AgentDecision}
    (isAnswer : answer run orchestrator.quarantines stage progress.decisions =
      .ok decision) :
    attempt run room stage.agentName progress orchestrator =
      (orchestrator.answered run room stage.agentName decision).settle
        (checkBaaarAndMaybeHalt run stage.agentName decision
          (progress.decide decision)) := by
  obtain ⟨agent, registered, free, isDecision⟩ := answer_eq_ok_iff.mp isAnswer
  rw [quarantines] at free
  rw [attempt, registered]
  simp only [free, Bool.false_eq_true, if_false, isDecision]
  rfl

/-- A stage that cuts the run halts it. -/
theorem attempt_of_error {reason : Str}
    (cut : answer run orchestrator.quarantines stage progress.decisions =
      .error reason) :
    ∃ left, Kept orchestrator left ∧
      attempt run room stage.agentName progress orchestrator =
        left.haltAndReturn run progress reason := by
  rw [answer] at cut
  rw [attempt]
  cases registered : run.agents stage.agentName with
  | none =>
      rw [registered] at cut
      obtain rfl := Except.error.inj cut
      exact ⟨orchestrator, .refl _, rfl⟩
  | some agent =>
      refine ⟨orchestrator.observed stage.agentName, observed_kept _ _, ?_⟩
      rw [registered] at cut
      simp only at cut ⊢
      split_ifs at cut with isQuarantined
      · obtain rfl := Except.error.inj cut
        rw [quarantines] at isQuarantined
        simp only [isQuarantined, if_true]
        rfl
      · rw [quarantines] at isQuarantined
        simp only [isQuarantined, Bool.false_eq_true, if_false]
        cases failed : agent (contextFor run stage.agentName
            progress.decisions) with
        | ok decision =>
            rw [failed] at cut
            cases cut
        | error error =>
            rw [failed] at cut
            obtain rfl := Except.error.inj cut
            rfl

/-! ## The loop -/

/-- The stages that remain are in the order of the states, each agent has one
of them, and none has been observed in the run. -/
structure Ready (quarantined : Str → Bool) (remaining : List Stage)
    (progress : Progress) (orchestrator : Orchestrator σ) : Prop where
  chained : List.IsChain
    (fun state later => InvoiceState.next state = some later)
    (progress.machine.state :: remaining.map Stage.expectedState)
  ahead : progress.machine.state.advances = remaining.length
  running : progress.machine.state ≠ .halted
  distinct : (remaining.map Stage.agentName).Nodup
  judged : ∀ stage ∈ remaining,
    orchestrator.quarantines stage.agentName = quarantined stage.agentName

variable {quarantined : Str → Bool} {remaining passed later : List Stage}
variable {decision : AgentDecision}

omit [FloatTexts] [Blake3] [Crates] [Signing] [BandRoom σ] in
theorem Ready.next
    (ready : Ready quarantined (stage :: remaining) progress orchestrator) :
    progress.machine.state.next = some stage.expectedState :=
  (List.isChain_cons_cons.mp ready.chained).1

omit [FloatTexts] [Blake3] [Crates] [Signing] [BandRoom σ] in
/-- The advances that are left inside a stage. -/
theorem Ready.advances
    (ready : Ready quarantined (stage :: remaining) progress orchestrator) :
    stage.expectedState.advances = remaining.length := by
  have ahead := ready.ahead
  rw [InvoiceState.advances_of_next ready.next, List.length_cons] at ahead
  exact Nat.succ.inj ahead

omit [FloatTexts] [Blake3] [Crates] [Signing] [BandRoom σ] in
/-- The monitor has not moved since the run began. -/
theorem Ready.answer_entered
    (ready : Ready quarantined (stage :: remaining) progress orchestrator) :
    answer run orchestrator.quarantines stage
        (progress.entered run stage).decisions =
      answer run quarantined stage progress.decisions := by
  rw [answer, answer, ready.judged stage List.mem_cons_self]
  rfl

omit [FloatTexts] [Blake3] [Crates] [Signing] in
theorem Ready.step
    (ready : Ready quarantined (stage :: remaining) progress orchestrator) :
    Ready quarantined remaining
      (progress.entered run stage |>.decide decision)
      (orchestrator.answered run room stage.agentName decision) where
  chained := (List.isChain_cons_cons.mp ready.chained).2
  ahead := ready.advances
  running := by
    intro halted
    have next := ready.next
    rw [show stage.expectedState = .halted from halted] at next
    exact InvoiceState.next_ne_halted _ next
  distinct := (List.nodup_cons.mp ready.distinct).2
  judged := by
    intro other member
    have different : other.agentName ≠ stage.agentName := by
      intro same
      apply (List.nodup_cons.mp ready.distinct).1
      rw [← same]
      exact List.mem_map_of_mem member
    have judged := ready.judged other (List.mem_cons_of_mem _ member)
    rw [← judged, ← quarantines_observed_of_ne orchestrator different,
      quarantines_eq, quarantines_eq]
    rfl

theorem runStage_eq
    (ready : Ready quarantined (stage :: remaining) progress orchestrator) :
    runStage run room stage progress orchestrator =
      attempt run room stage.agentName (progress.entered run stage)
        orchestrator := by
  rw [runStage, StateMachine.advanceTo_next ready.next]
  rfl

theorem runStage_of_accepted
    (ready : Ready quarantined (stage :: remaining) progress orchestrator)
    (isAnswer : answer run quarantined stage progress.decisions = .ok decision)
    (accepted : gate stage decision = none) :
    runStage run room stage progress orchestrator =
      (.next, (progress.entered run stage).decide decision,
        orchestrator.answered run room stage.agentName decision) := by
  have isAnswerHere : answer run orchestrator.quarantines stage
      (progress.entered run stage).decisions = .ok decision :=
    ready.answer_entered.trans isAnswer
  rw [runStage_eq ready, attempt_of_ok isAnswerHere,
    checkBaaarAndMaybeHalt_of_accepted accepted]
  rfl

variable (room) in
/-- The loop goes on behind the stages that pass. -/
theorem walk_append {final : List AgentDecision}
    (ready : Ready quarantined (passed ++ later) progress orchestrator)
    (passes : Passes (answer run quarantined) gate passed progress.decisions
      final) :
    ∃ left after, walk run room (passed ++ later) progress orchestrator =
        walk run room later left after ∧
      Ready quarantined later left after ∧ left.decisions = final ∧
      left.bbaaarOutcome = progress.bbaaarOutcome ∧ Kept orchestrator after ∧
      after.rogueMonitor = orchestrator.rogueMonitor.map
        (·.observedAll (passed.map Stage.agentName)) := by
  generalize made : progress.decisions = decisions at passes
  induction passes generalizing progress orchestrator with
  | nil =>
      refine ⟨progress, orchestrator, rfl, ready, made, rfl, .refl _, ?_⟩
      cases orchestrator.rogueMonitor <;> rfl
  | @cons stage passed _ _ decision isAnswer accepted passes induction =>
      subst made
      have stepped : runStage run room stage progress orchestrator =
          (.next, (progress.entered run stage).decide decision,
            orchestrator.answered run room stage.agentName decision) :=
        runStage_of_accepted ready isAnswer accepted
      obtain ⟨left, after, walked, readyAfter, decisions, outcome, kept,
        monitor⟩ := induction ready.step rfl
      refine ⟨left, after, ?_, readyAfter, decisions, outcome,
        answered_kept.trans kept, ?_⟩
      · rw [List.cons_append, walk, stepped]
        exact walked
      · rw [monitor]
        have observed : (orchestrator.answered run room stage.agentName
            decision).rogueMonitor =
            (orchestrator.observed stage.agentName).rogueMonitor := rfl
        rw [observed, observed_eq]
        simp only [Option.map_map]
        rfl

variable (room) in
/-- The stage that the gate halts the run behind. -/
theorem walk_of_refused {reason : BaaarReason}
    (ready : Ready quarantined (stage :: later) progress orchestrator)
    (isAnswer : answer run quarantined stage progress.decisions = .ok decision)
    (refused : gate stage decision = some reason)
    (inside : stage.expectedState.next ≠ none) :
    ∃ left after,
      walk run room (stage :: later) progress orchestrator =
        (.leave, left, after) ∧
      left.decisions = progress.decisions ++ [decision] ∧
      left.bbaaarOutcome = .halt reason ∧ left.machine.state = .halted ∧
      Kept orchestrator after := by
  obtain ⟨following, open_⟩ := Option.ne_none_iff_exists'.mp inside
  have isAnswerHere : answer run orchestrator.quarantines stage
      (progress.entered run stage).decisions = .ok decision :=
    ready.answer_entered.trans isAnswer
  have entered : ((progress.entered run stage).decide decision).machine.state
      = stage.expectedState := rfl
  refine ⟨((progress.entered run stage).decide decision).stopped run
    (.halt reason), orchestrator.answered run room stage.agentName decision,
    ?_, rfl, rfl, rfl, answered_kept⟩
  rw [walk, runStage_eq ready, attempt_of_ok isAnswerHere,
    checkBaaarAndMaybeHalt_of_refused refused (entered ▸ open_)]
  rfl

variable (room) in
/-- The stage that the run is cut at, with others behind it. -/
theorem walk_of_cut {reason : Str}
    (ready : Ready quarantined (stage :: later) progress orchestrator)
    (cut : answer run quarantined stage progress.decisions = .error reason)
    (inside : later ≠ []) :
    ∃ left after, Kept orchestrator after ∧ left.machine.state = .halted ∧
      walk run room (stage :: later) progress orchestrator =
        (.returned (.ok (after.signedAs
            (assemble run progress.decisions .approve) run.tenantId)), left,
          after.record (.signed (after.signedAs
            (assemble run progress.decisions .approve)
            run.tenantId).signatureHex)) := by
  have following : stage.expectedState.next ≠ none := by
    rw [ne_eq, InvoiceState.next_eq_none_iff_advances, ready.advances,
      List.length_eq_zero_iff]
    exact inside
  obtain ⟨state, open_⟩ := Option.ne_none_iff_exists'.mp following
  have cutHere : answer run orchestrator.quarantines stage
      (progress.entered run stage).decisions = .error reason :=
    ready.answer_entered.trans cut
  have entered : (progress.entered run stage).machine.state =
      stage.expectedState := rfl
  obtain ⟨after, kept, attempted⟩ := attempt_of_error cutHere
  refine ⟨(progress.entered run stage).stopped run .approve, after, kept, rfl,
    ?_⟩
  rw [walk, runStage_eq ready, attempted,
    haltAndReturn_of_next (entered ▸ open_)]
  rfl

variable (room) in
/-- The last stage: its state is terminal. -/
theorem walk_of_cut_last {reason : Str}
    (ready : Ready quarantined [stage] progress orchestrator)
    (cut : answer run quarantined stage progress.decisions = .error reason) :
    ∃ left after, Kept orchestrator after ∧
      walk run room [stage] progress orchestrator =
        (.returned (.error (.state (.terminalState .done))), left, after) := by
  have state : stage.expectedState = .done := by
    have terminal := InvoiceState.next_eq_none_iff.mp
      (InvoiceState.next_eq_none_iff_advances.mpr ready.advances)
    apply terminal.resolve_right
    intro halted
    have next := ready.next
    rw [halted] at next
    exact InvoiceState.next_ne_halted _ next
  have cutHere : answer run orchestrator.quarantines stage
      (progress.entered run stage).decisions = .error reason :=
    ready.answer_entered.trans cut
  obtain ⟨after, kept, attempted⟩ := attempt_of_error cutHere
  refine ⟨progress.entered run stage, after, kept, ?_⟩
  rw [walk, runStage_eq ready, attempted, haltAndReturn_of_done state]

/-! ## The run -/

omit [FloatTexts] [Blake3] [Crates] [Signing] [BandRoom σ] in
theorem ready_start :
    Ready orchestrator.quarantines stages (.start run) orchestrator where
  chained := by
    change List.IsChain _ (InvoiceState.received :: _)
    decide
  ahead := rfl
  running := by
    change InvoiceState.received ≠ .halted
    decide
  distinct := by decide
  judged _ _ := rfl

omit [Blake3] [Crates] [Signing] [BandRoom σ] in
/-- The gate never halts a run behind the last stage. -/
theorem next_ne_none_of_gate {reason : BaaarReason} (member : stage ∈ stages)
    (refused : gate stage decision = some reason) :
    stage.expectedState.next ≠ none := by
  have inside : ∀ stage ∈ stages, stage.agentName = "fraud_auditor".toList →
      stage.expectedState.next ≠ none := by
    decide
  apply inside stage member
  by_contra other
  rw [gate, if_pos other] at refused
  cases refused

variable {decisions : List AgentDecision}

variable (room) in
theorem debate_of_completed
    (ends : Debates run orchestrator.quarantines decisions .completed) :
    ∃ left after, debate run room orchestrator = finish run left after ∧
      left.decisions = decisions ∧ left.bbaaarOutcome = .approve ∧
      left.machine.state = .done ∧ Kept orchestrator after ∧
      after.rogueMonitor = orchestrator.rogueMonitor.map
        (·.observedAll (stages.map Stage.agentName)) := by
  have ready : Ready orchestrator.quarantines (stages ++ []) (.start run)
      orchestrator := by
    rw [List.append_nil]
    exact ready_start
  obtain ⟨left, after, walked, readyAfter, made, outcome, kept, monitor⟩ :=
    walk_append room ready (ends_completed_iff.mp ends)
  have terminal := InvoiceState.next_eq_none_iff.mp
    (InvoiceState.next_eq_none_iff_advances.mpr readyAfter.ahead)
  refine ⟨left, after, ?_, made, outcome,
    terminal.resolve_right readyAfter.running, kept, monitor⟩
  rw [List.append_nil] at walked
  rw [debate, walked]
  rfl

variable (room) in
theorem debate_of_halted {reason : BaaarReason}
    (ends : Debates run orchestrator.quarantines decisions (.halted reason)) :
    ∃ left after, debate run room orchestrator = finish run left after ∧
      left.decisions = decisions ∧ left.bbaaarOutcome = .halt reason ∧
      left.machine.state = .halted ∧ Kept orchestrator after := by
  obtain ⟨passed, stage, later, before, decision, split, passes, isAnswer,
    refused, made⟩ := ends.exists_of_halted
  have ready : Ready orchestrator.quarantines (passed ++ stage :: later)
      (.start run) orchestrator := split ▸ ready_start
  obtain ⟨left, after, walked, readyAfter, madeBefore, -, kept, -⟩ :=
    walk_append room ready passes
  have member : stage ∈ stages := by simp [split]
  obtain ⟨final, last, refusedAt, madeHere, outcome, state, keptHere⟩ :=
    walk_of_refused room readyAfter (madeBefore ▸ isAnswer) refused
      (next_ne_none_of_gate member refused)
  refine ⟨final, last, ?_, ?_, outcome, state, kept.trans keptHere⟩
  · rw [debate, split, walked,
      refusedAt]
  · rw [madeHere, madeBefore, made]

variable (room) in
/-- The walk up to the stage that cuts the run. -/
theorem exists_walk_of_cut {reason : Str}
    (ends : Debates run orchestrator.quarantines decisions (.cut reason)) :
    ∃ passed stage later left after, stages = passed ++ stage :: later ∧
      decisions.length = passed.length ∧
      walk run room stages (.start run) orchestrator =
        walk run room (stage :: later) left after ∧
      Ready orchestrator.quarantines (stage :: later) left after ∧
      left.decisions = decisions ∧ Kept orchestrator after ∧
      answer run orchestrator.quarantines stage decisions = .error reason := by
  obtain ⟨passed, stage, later, split, passes, cut⟩ := ends.exists_of_cut
  have ready : Ready orchestrator.quarantines (passed ++ stage :: later)
      (.start run) orchestrator := split ▸ ready_start
  obtain ⟨left, after, walked, readyAfter, made, -, kept, -⟩ :=
    walk_append room ready passes
  refine ⟨passed, stage, later, left, after, split, ?_, ?_, readyAfter, made,
    kept, cut⟩
  · rw [passes.length, List.length_nil, Nat.zero_add]
  · rw [split, walked]

variable (room) in
/-- A run that is cut before its last stage ends with a signed approval. -/
theorem debate_of_cut {reason : Str}
    (ends : Debates run orchestrator.quarantines decisions (.cut reason))
    (early : decisions.length < 7) :
    ∃ left after, Kept orchestrator after ∧ left.machine.state = .halted ∧
      debate run room orchestrator =
        (.ok (after.signedAs (assemble run decisions .approve) run.tenantId),
          left, after.record (.signed (after.signedAs
            (assemble run decisions .approve)
            run.tenantId).signatureHex)) := by
  obtain ⟨passed, stage, later, left, after, split, length, walked, ready,
    made, kept, cut⟩ := exists_walk_of_cut room ends
  have inside : later ≠ [] := by
    rintro rfl
    have total := congrArg List.length split
    rw [List.length_append, ← length] at total
    exact absurd total (by simp [stages]; omega)
  obtain ⟨final, last, keptHere, state, stopped⟩ :=
    walk_of_cut room ready (made ▸ cut) inside
  refine ⟨final, last, kept.trans keptHere, state, ?_⟩
  rw [debate, walked, stopped, made]

variable (room) in
/-- A run that is cut at its last stage ends with an error. -/
theorem debate_of_cut_last {reason : Str}
    (ends : Debates run orchestrator.quarantines decisions (.cut reason))
    (late : ¬ decisions.length < 7) :
    ∃ left after, Kept orchestrator after ∧
      debate run room orchestrator =
        (.error (.state (.terminalState .done)), left, after) := by
  obtain ⟨passed, stage, later, left, after, split, length, walked, ready,
    made, kept, cut⟩ := exists_walk_of_cut room ends
  have isLast : later = [] := by
    have total := congrArg List.length split
    rw [List.length_append, ← length, List.length_cons,
      show stages.length = 8 from rfl] at total
    exact List.eq_nil_of_length_eq_zero (by omega)
  subst isLast
  obtain ⟨final, last, keptHere, stopped⟩ :=
    walk_of_cut_last room ready (made ▸ cut)
  refine ⟨final, last, kept.trans keptHere, ?_⟩
  rw [debate, walked, stopped]

/-! ## The end of a run -/

omit [FloatTexts] [Blake3] [Crates] [Signing] [BandRoom σ] in
/-- The guard is there, and refuses. -/
def Suspended (orchestrator : Orchestrator σ) (now : Nat) : Prop :=
  ∃ guard_, orchestrator.humanGuard = some guard_ ∧ guard_.SuspendedAt now

omit [FloatTexts] [Blake3] [Crates] [Signing] [BandRoom σ] in
theorem destructiveBlocked_fst {now : Nat} :
    (orchestrator.destructiveBlocked now).1 = true ↔
      orchestrator.Suspended now := by
  rw [destructiveBlocked, Suspended]
  cases orchestrator.humanGuard with
  | none => simp
  | some guard_ =>
      simp only [Option.some.injEq, exists_eq_left',
        AlertFatigueDetector.SuspendedAt]
      cases (guard_.checkAuthorization now).1 with
      | ok value => simp
      | error error => cases error; simp

/-- What stays behind the guard's answer: the guard drops old approvals. -/
structure Asked (before after : Orchestrator σ) : Prop where
  tenants : after.tenants = before.tenants
  services : after.services = before.services
  rogueMonitor : after.rogueMonitor = before.rogueMonitor
  effects : after.effects = before.effects

omit [FloatTexts] [Blake3] [Crates] [Signing] [BandRoom σ] in
theorem destructiveBlocked_asked {now : Nat} :
    Asked orchestrator (orchestrator.destructiveBlocked now).2 := by
  rw [destructiveBlocked]
  cases orchestrator.humanGuard with
  | none => exact ⟨rfl, rfl, rfl, rfl⟩
  | some guard_ => exact ⟨rfl, rfl, rfl, rfl⟩

omit [BandRoom σ] in
theorem conclude_spec (packet : EvidencePacket) (machine : StateMachine) :
    ∃ signed after, orchestrator.conclude run packet machine =
        (.ok signed, after) ∧ signed.packet = packet ∧
      after.tenants = orchestrator.tenants ∧
      after.services = orchestrator.services ∧
      after.rogueMonitor = orchestrator.rogueMonitor := by
  rw [conclude, sign_eq]
  simp only [anchorInRekor]
  cases run.rekor with
  | none => exact ⟨_, _, rfl, rfl, rfl, rfl, rfl⟩
  | some client =>
      simp only
      cases client _ run.tenantId with
      | error error => exact ⟨_, _, rfl, rfl, rfl, rfl, rfl⟩
      | ok entry => exact ⟨_, _, rfl, rfl, rfl, rfl, rfl⟩

omit [BandRoom σ] in
/-- A run that is not cut always returns its packet, and a suspended one has no
effect behind the loop. -/
theorem finish_spec :
    ∃ signed after, finish run progress orchestrator =
        (.ok signed,
          { progress with
            machine := progress.machine.forceAdvanceToDone run.stateNow },
          after) ∧
      signed.packet =
        assemble run progress.decisions progress.bbaaarOutcome ∧
      after.tenants = orchestrator.tenants ∧
      after.services = orchestrator.services ∧
      after.rogueMonitor = orchestrator.rogueMonitor ∧
      (orchestrator.Suspended run.guardNow →
        after.effects = orchestrator.effects) := by
  have asked := @destructiveBlocked_asked σ orchestrator run.guardNow
  rw [finish]
  by_cases suspended : orchestrator.Suspended run.guardNow
  · have blocked := destructiveBlocked_fst.mpr suspended
    simp only [blocked, if_true]
    exact ⟨_, _, rfl, rfl, asked.tenants, asked.services, asked.rogueMonitor,
      fun _ => asked.effects⟩
  · have open_ := mt destructiveBlocked_fst.mp suspended
    obtain ⟨signed, after, concluded, packet, tenants, services,
      rogueMonitor⟩ :=
      @conclude_spec _ _ _ _ σ run
        (orchestrator.destructiveBlocked run.guardNow).2
        (assemble run progress.decisions progress.bbaaarOutcome)
        (progress.machine.forceAdvanceToDone run.stateNow)
    simp only [open_, Bool.false_eq_true, if_false, concluded]
    exact ⟨signed, after, rfl, packet, tenants.trans asked.tenants,
      services.trans asked.services, rogueMonitor.trans asked.rogueMonitor,
      fun held => absurd held suspended⟩

end

end Orchestrator

end TrustLayer.ThemisOrchestrator
