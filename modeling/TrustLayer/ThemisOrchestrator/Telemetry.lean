import TrustLayer.ThemisOrchestrator.Healthy
import TrustLayer.ThemisOrchestrator.Suspension

/-!
# The telemetry of the runs

A run that gets behind the loop leaves its state machine under the key of its
tenant and invoice.  The other ways to return a packet leave none.
-/

namespace TrustLayer.ThemisOrchestrator

open TrustLayer.Library
open TrustLayer.Baaar (BaaarReason)
open TrustLayer.Themis (BandRoom Confusable RoomId roomKey roomKey_eq_iff)
open TrustLayer.ThemisAgents (AgentDecision FloatTexts)
open TrustLayer.ThemisEvidence (Signing)
open TrustLayer.TlChain (Blake3)
open TrustLayer.TlVerify (Crates)

def Invocation.pair (run : Invocation) : Str × Str :=
  (run.tenantId, run.invoiceId)

namespace Orchestrator

/-- `state_machine`. -/
def stateMachine {σ : Type} (orchestrator : Orchestrator σ)
    (tenantId invoiceId : Str) : Option StateMachine :=
  orchestrator.stateMachines (roomKey tenantId invoiceId)

section

variable [FloatTexts] [Blake3] [Crates] [Signing]
variable {σ : Type} [BandRoom σ]
variable {orchestrator : Orchestrator σ} {run : Invocation}
variable {progress : Progress} {machine : StateMachine}

/-! ## One run -/

omit [BandRoom σ] in
theorem conclude_stateMachines (packet : EvidencePacket) :
    (orchestrator.conclude run packet machine).2.stateMachines =
      Function.update orchestrator.stateMachines
        (roomKey run.tenantId run.invoiceId) (some machine) := by
  rw [conclude, sign_eq]
  simp only [anchorInRekor]
  cases run.rekor with
  | none => rfl
  | some client =>
      simp only
      cases client _ run.tenantId <;> rfl

omit [FloatTexts] [Blake3] [Crates] [Signing] [BandRoom σ] in
theorem destructiveBlocked_stateMachines (now : Nat) :
    (orchestrator.destructiveBlocked now).2.stateMachines =
      orchestrator.stateMachines := by
  rw [destructiveBlocked]
  cases orchestrator.humanGuard <;> rfl

omit [BandRoom σ] in
/-- Behind the loop, the machine is cached unless the guard refuses. -/
theorem finish_stateMachines (open_ : ¬ orchestrator.Suspended run.guardNow) :
    (finish run progress orchestrator).2.2.stateMachines =
      Function.update orchestrator.stateMachines
        (roomKey run.tenantId run.invoiceId)
        (some (progress.machine.forceAdvanceToDone run.stateNow)) := by
  have unblocked := mt destructiveBlocked_fst.mp open_
  rw [finish]
  simp only [unblocked, Bool.false_eq_true, if_false, conclude_stateMachines,
    destructiveBlocked_stateMachines]

omit [FloatTexts] [Blake3] [Crates] [Signing] in
theorem forceAdvanceToDone_of_terminal {clock : Nat → Int}
    (terminal : machine.current = .done ∨ machine.current = .halted) :
    machine.forceAdvanceToDone clock = machine := by
  apply if_neg
  rintro ⟨notDone, notHalted⟩
  exact terminal.elim notDone notHalted

/-- The machine is the one that the run leaves, and it tells how the run
ended. -/
structure MachineOf (orchestrator : Orchestrator σ) (run : Invocation)
    (machine : StateMachine) : Prop where
  left : ∃ progress, (orchestrator.processInvoiceLocals run).2.1 =
    some progress ∧ progress.machine = machine
  terminal : machine.current = .done ∨ machine.current = .halted
  halted_iff : machine.current = .halted ↔
    ∃ decisions ending, Debates run orchestrator.quarantines decisions ending ∧
      ending ≠ .completed

/-- The run is cut at no stage before the last, and the guard refuses none
that gets behind the loop. -/
structure Traced (orchestrator : Orchestrator σ) (run : Invocation) :
    Prop where
  uncut : ¬ CutEarly orchestrator run
  admitted : orchestrator.Suspended run.guardNow → Breaks orchestrator run

/-- What a run does to the machines. -/
inductive Leaves (orchestrator : Orchestrator σ) (run : Invocation) :
    Except OrchestratorError SignedPacket × Orchestrator σ → Prop where
  | cached {signed : SignedPacket} {after : Orchestrator σ}
    {machine : StateMachine} (isMachine : MachineOf orchestrator run machine)
    (written : after.stateMachines = Function.update orchestrator.stateMachines
      (roomKey run.tenantId run.invoiceId) (some machine)) :
    Leaves orchestrator run (.ok signed, after)
  | failed {error : OrchestratorError} {after : Orchestrator σ}
    (kept : after.stateMachines = orchestrator.stateMachines) :
    Leaves orchestrator run (.error error, after)

/-- The debate of a run that is not cut ends with a terminal machine. -/
theorem debate_of_whole {room : RoomId} {decisions : List AgentDecision}
    {ending : Ending Str BaaarReason}
    (ends : Debates run orchestrator.quarantines decisions ending)
    (whole : ∀ reason, ending ≠ .cut reason) :
    ∃ left after, debate run room orchestrator = finish run left after ∧
      Kept orchestrator after ∧
      (left.machine.current = .done ∧ ending = .completed ∨
        left.machine.current = .halted ∧ ending ≠ .completed) := by
  cases ending with
  | completed =>
      obtain ⟨left, after, debated, -, -, state, kept, -⟩ :=
        debate_of_completed room ends
      exact ⟨left, after, debated, kept, .inl ⟨state, rfl⟩⟩
  | halted reason =>
      obtain ⟨left, after, debated, -, -, state, kept⟩ :=
        debate_of_halted room ends
      exact ⟨left, after, debated, kept, .inr ⟨state, nofun⟩⟩
  | cut reason => exact absurd rfl (whole reason)

theorem leaves_of_whole {room : RoomId} {rooms : σ}
    {decisions : List AgentDecision} {ending : Ending Str BaaarReason}
    (starts : Starts orchestrator run room rooms)
    (ends : Debates run orchestrator.quarantines decisions ending)
    (whole : ∀ reason, ending ≠ .cut reason)
    (open_ : ¬ orchestrator.Suspended run.guardNow) :
    Leaves orchestrator run (orchestrator.processInvoice run) := by
  have endsIn := ends
  rw [← inRooms_quarantines orchestrator rooms] at endsIn
  obtain ⟨left, middle, debated, kept, state⟩ :=
    @debate_of_whole _ _ _ _ _ _ _ run room decisions ending endsIn whole
  have sameGuard : middle.humanGuard = orchestrator.humanGuard :=
    kept.humanGuard
  have openMiddle : ¬ middle.Suspended run.guardNow := by
    rwa [Suspended, sameGuard]
  have terminal : left.machine.current = .done ∨
      left.machine.current = .halted :=
    state.imp And.left And.left
  have written := @finish_stateMachines _ _ _ _ σ middle run left openMiddle
  obtain ⟨signed, after, finished, -⟩ := @finish_spec _ _ _ _ σ run left middle
  have locals := @processInvoiceLocals_of_starts σ _ _ _ _ _ _ _ _ _ starts
  rw [processInvoice_of_starts starts, debated, finished]
  rw [debated, finished] at locals
  rw [finished, forceAdvanceToDone_of_terminal terminal] at written
  rw [forceAdvanceToDone_of_terminal terminal] at locals
  refine .cached ⟨⟨left, ?_, rfl⟩, terminal, ?_⟩ ?_
  · rw [locals]
  · constructor
    · intro halted
      refine ⟨decisions, ending, ends, ?_⟩
      rcases state with ⟨done, -⟩ | ⟨-, uncompleted⟩
      · rw [done] at halted
        cases halted
      · exact uncompleted
    · rintro ⟨other, otherEnding, otherEnds, uncompleted⟩
      obtain ⟨-, rfl⟩ := Ends.unique ends otherEnds
      exact (state.resolve_left fun done => uncompleted done.2).1
  · have same : middle.stateMachines = orchestrator.stateMachines :=
      kept.stateMachines
    rw [← same]
    exact written

/-- A traced run caches its machine, or fails. -/
theorem Traced.leaves (traced : Traced orchestrator run) :
    Leaves orchestrator run (orchestrator.processInvoice run) := by
  by_cases started : ∃ room rooms, Starts orchestrator run room rooms
  · obtain ⟨room, rooms, starts⟩ := started
    obtain ⟨decisions, ending, ends⟩ := exists_debates orchestrator run
    by_cases whole : ∀ reason, ending ≠ .cut reason
    · refine leaves_of_whole starts ends whole fun suspended => ?_
      obtain ⟨other, reason, otherEnds, -⟩ :=
        traced.admitted suspended room rooms starts
      exact whole reason (Ends.unique ends otherEnds).2
    · push Not at whole
      obtain ⟨reason, rfl⟩ := whole
      have late : ¬ decisions.length < 7 := fun early =>
        traced.uncut ⟨room, rooms, decisions, reason, starts, ends, early⟩
      obtain ⟨after, kept, result⟩ := processInvoice_of_cut_last starts ends late
      rw [result]
      exact .failed kept.stateMachines
  · obtain ⟨error, after, kept, result⟩ := processInvoice_of_not_starts
      fun room rooms starts => started ⟨room, rooms, starts⟩
    rw [result]
    exact .failed kept.stateMachines

/-! ## All runs -/

/-- The orchestrator behind some runs. -/
def behind (orchestrator : Orchestrator σ) (runs : List Invocation) :
    Orchestrator σ :=
  (orchestrator.processAll runs).2

theorem behind_concat (runs : List Invocation) :
    orchestrator.behind (runs ++ [run]) =
      ((orchestrator.behind runs).processInvoice run).2 := by
  induction runs generalizing orchestrator with
  | nil => rfl
  | cons first runs induction => exact induction

/-- Each run that returned a packet has left its machine, until the same pair
is run again. -/
def Complete (orchestrator : Orchestrator σ) (runs : List Invocation) : Prop :=
  ∀ before run later signed, runs = before ++ run :: later →
    (∀ other ∈ later, other.pair ≠ run.pair) →
    ((orchestrator.behind before).processInvoice run).1 = .ok signed →
    ∃ machine,
      (orchestrator.behind runs).stateMachine run.tenantId run.invoiceId =
        some machine ∧
      MachineOf (orchestrator.behind before) run machine

/-- Every run is traced where it begins, and no two of them are of pairs that
share a key. -/
structure AllTraced (orchestrator : Orchestrator σ) (runs : List Invocation) :
    Prop where
  traced : ∀ before run later, runs = before ++ run :: later →
    Traced (orchestrator.behind before) run
  apart : runs.Pairwise fun run other => ¬ Confusable run.pair other.pair

theorem AllTraced.front {runs : List Invocation}
    (all : AllTraced orchestrator (runs ++ [run])) :
    AllTraced orchestrator runs where
  traced before other later split :=
    all.traced before other (later ++ [run]) (by simp [split])
  apart := (List.pairwise_append.mp all.apart).1

/-- A run of another pair leaves a machine as it is. -/
theorem stateMachine_behind_concat {runs : List Invocation}
    (all : AllTraced orchestrator (runs ++ [run])) {other : Invocation}
    (member : other ∈ runs) (different : run.pair ≠ other.pair) :
    (orchestrator.behind (runs ++ [run])).stateMachine other.tenantId
        other.invoiceId =
      (orchestrator.behind runs).stateMachine other.tenantId
        other.invoiceId := by
  have apart := (List.pairwise_append.mp all.apart).2.2 other member run
    List.mem_cons_self
  have keys : roomKey other.tenantId other.invoiceId ≠
      roomKey run.tenantId run.invoiceId := by
    intro same
    exact ((@roomKey_eq_iff other.pair run.pair).mp same).elim
      (fun equal => different equal.symm) apart
  have leaves := (all.traced runs run [] rfl).leaves
  rw [behind_concat, stateMachine, stateMachine]
  generalize (orchestrator.behind runs).processInvoice run = result at leaves ⊢
  cases leaves with
  | cached isMachine written => rw [written, Function.update_of_ne keys]
  | failed kept => rw [kept]

/-- Traced runs leave complete telemetry, wherever they are stopped. -/
theorem complete_of_allTraced {runs : List Invocation}
    (all : AllTraced orchestrator runs) : Complete orchestrator runs := by
  induction runs using List.reverseRecOn with
  | nil =>
      intro before run later signed split
      simp at split
  | append_singleton runs last induction =>
      intro before run later signed split unseen returned
      rcases later.eq_nil_or_concat with rfl | ⟨front, final, rfl⟩
      · obtain ⟨rfl, same⟩ := List.append_inj' split rfl
        obtain rfl := List.singleton_inj.mp same
        have leaves := (all.traced runs last [] rfl).leaves
        rw [behind_concat]
        generalize (orchestrator.behind runs).processInvoice last = result
          at leaves returned ⊢
        cases leaves with
        | @cached _ after machine isMachine written =>
            refine ⟨machine, ?_, isMachine⟩
            rw [stateMachine, written, Function.update_self]
        | failed kept => cases returned
      · have whole : runs ++ [last] =
            (before ++ run :: front) ++ [final] := by
          simpa using split
        obtain ⟨rfl, same⟩ := List.append_inj' whole rfl
        obtain rfl := List.singleton_inj.mp same
        obtain ⟨machine, found, isMachine⟩ := induction all.front before run
          front signed rfl (fun other member => unseen other (by simp [member]))
          returned
        refine ⟨machine, ?_, isMachine⟩
        rw [stateMachine_behind_concat all (by simp) (unseen last (by simp)),
          found]

variable (σ) in
/-- No run leaves a gap. -/
def TelemetryComplete : Prop :=
  ∀ (orchestrator : Orchestrator σ) (runs : List Invocation),
    Complete orchestrator runs

end

section

open TrustLayer.Themis (KeepingBridge RealBandRoom)

attribute [local instance] sampleFloats sampleHashes sampleCrates
  sampleSigning

/-- The build has no monitor and no guard. -/
structure Undefended
    (orchestrator : Orchestrator (RealBandRoom KeepingBridge)) : Prop where
  monitor : orchestrator.rogueMonitor = none
  guard_ : orchestrator.humanGuard = none

theorem finish_unguarded {run : Invocation} {progress : Progress}
    {orchestrator : Orchestrator (RealBandRoom KeepingBridge)}
    (unguarded : orchestrator.humanGuard = none) (offline : run.rekor = none) :
    (finish run progress orchestrator).2.2.humanGuard = none := by
  simp only [finish, destructiveBlocked, unguarded, Bool.false_eq_true,
    if_false, conclude, sign_eq, anchorInRekor, offline, record]

/-- A run with quiet agents is traced, and the next one finds a build like its
own. -/
theorem quietRun_traced {run : Invocation}
    {orchestrator : Orchestrator (RealBandRoom KeepingBridge)}
    (known : orchestrator.tenants run.tenantId ≠ none)
    (undefended : Undefended orchestrator) (agents : run.agents = quietAgents)
    (offline : run.rekor = none) :
    Traced orchestrator run ∧
      Undefended (orchestrator.processInvoice run).2 := by
  have free (agentName : Str) : orchestrator.quarantines agentName = false := by
    rw [quarantines_eq, undefended.monitor]
    rfl
  obtain ⟨decisions, passes⟩ : ∃ decisions,
      Passes (answer run orchestrator.quarantines) gate stages [] decisions :=
    exists_passes (fun stage member => quietAgents_answer member
      (congrFun agents stage.agentName) (free stage.agentName)) []
  have ends : Debates run orchestrator.quarantines decisions .completed :=
    .completed passes
  constructor
  · refine ⟨not_cutEarly ends nofun, ?_⟩
    rintro ⟨guard_, present, -⟩
    rw [undefended.guard_] at present
    cases present
  · obtain ⟨room, rooms, starts⟩ := exists_starts known
    rw [← inRooms_quarantines orchestrator rooms] at ends
    obtain ⟨left, middle, debated, -, -, -, kept, observed⟩ :=
      debate_of_completed room ends
    obtain ⟨signed, after, finished, -, -, -, monitor, -⟩ :=
      @finish_spec _ _ _ _ _ run left middle
    have unguarded := @finish_unguarded run left middle
      (kept.humanGuard.trans undefended.guard_) offline
    rw [finished] at unguarded
    rw [processInvoice_of_starts starts, debated, finished]
    refine ⟨?_, unguarded⟩
    rw [monitor, observed]
    exact congrArg (Option.map _) undefended.monitor

/-- The next invoice of the tenant. -/
def nextRun : Invocation :=
  { sampleRun quietAgents with
    invoiceId := "inv-002".toList
    packetId := Vector.replicate 16 2 }

theorem quietRuns_traced :
    AllTraced sampleOrchestrator [sampleRun quietAgents, nextRun] := by
  obtain ⟨first, undefended⟩ := @quietRun_traced (sampleRun quietAgents)
    sampleOrchestrator nofun ⟨rfl, rfl⟩ rfl rfl
  have known : (sampleOrchestrator.processInvoice
      (sampleRun quietAgents)).2.tenants nextRun.tenantId ≠ none := by
    rw [processInvoice_tenants]
    exact nofun
  obtain ⟨second, -⟩ := @quietRun_traced nextRun _ known undefended rfl rfl
  constructor
  · intro before run later split
    cases before with
    | nil =>
        obtain ⟨rfl, -⟩ := List.cons.inj split
        exact first
    | cons earlier before =>
        obtain ⟨rfl, behindFirst⟩ := List.cons.inj split
        cases before with
        | nil =>
            obtain ⟨rfl, -⟩ := List.cons.inj behindFirst
            exact second
        | cons earlier before => simp at behindFirst
  · refine List.pairwise_pair.mpr ?_
    rintro ⟨piece, ⟨tenant, -⟩ | ⟨tenant, -⟩⟩
    · have lengths := congrArg List.length tenant
      simp [Invocation.pair, nextRun, sampleRun] at lengths
    · have lengths := congrArg List.length tenant
      simp [Invocation.pair, nextRun, sampleRun] at lengths

theorem quietRuns_complete :
    Complete sampleOrchestrator [sampleRun quietAgents, nextRun] :=
  complete_of_allTraced quietRuns_traced

/-- The run without an agent returns a packet, and leaves no machine. -/
theorem bareRun_not_telemetryComplete :
    ¬ TelemetryComplete (RealBandRoom KeepingBridge) := by
  intro complete
  obtain ⟨after, kept, result⟩ := @bareRun_processInvoice sampleOrchestrator nofun
  obtain ⟨machine, found, -⟩ := complete sampleOrchestrator
    [sampleRun noAgents] [] (sampleRun noAgents) [] _ rfl nofun
    (congrArg Prod.fst result)
  have behindRun : (sampleOrchestrator.behind
      [sampleRun noAgents]).stateMachines = fun _ => none := by
    have asReturned :=
      congrArg (fun returned => returned.2.stateMachines) result
    exact asReturned.trans kept.stateMachines
  rw [stateMachine, behindRun] at found
  cases found

end

end Orchestrator

end TrustLayer.ThemisOrchestrator
