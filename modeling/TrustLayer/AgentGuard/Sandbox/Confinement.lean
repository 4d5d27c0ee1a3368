import TrustLayer.AgentGuard.Sandbox.Launch

/-!
# What a sandboxed run leaves behind

Nothing that goes wrong before the exec looks like a success, and what the
parent reads from the pipe is how the children ended.
-/

namespace TrustLayer.AgentGuard.Sandbox

open TrustLayer.Library
open TrustLayer.Library.Pathname
open TrustLayer.AgentGuard.Pathsafe

section

variable {files : FileSystem} {δ : Type}

/-! ## Failures -/

/-- A failure that neither looks like a success to the one who waits, nor like
the number of an error to the one who reads. -/
structure Failure.Proper (failure : Failure) : Prop where
  nonzero : failure.code ≠ 0
  long : 4 < failure.report.length

theorem proper_append {code : UInt8} {label : String} (text : Str)
    (nonzero : code ≠ 0) (long : 4 < label.toList.length) :
    (Failure.mk code (label.toList ++ text)).Proper := by
  refine ⟨nonzero, ?_⟩
  rw [List.length_append]
  omega

theorem demand_eq_error_iff {α : Type} {found : Option α}
    {failure other : Failure} :
    demand found failure = .error other ↔ found = none ∧ failure = other := by
  cases found <;> simp [demand]

namespace Host

variable {host : Host files δ} {plan : Plan} {failure : Failure}

theorem proper_of_middle (failed : host.middle = .error failure) :
    failure.Proper := by
  rcases bind_eq_error_iff.mp failed with namespaces | ⟨_, _, fork⟩
  · obtain ⟨error, -, rfl⟩ := mapError_eq_error_iff.mp namespaces
    exact proper_append _ (by decide) (by decide)
  · obtain ⟨text, -, rfl⟩ := mapError_eq_error_iff.mp fork
    exact proper_append _ (by decide) (by decide)

theorem proper_of_setup (failed : host.setup plan = .error failure) :
    failure.Proper := by
  rcases bind_eq_error_iff.mp failed with arranged | ⟨process, _, confined⟩
  · rcases bind_eq_error_iff.mp arranged with found | ⟨stdout, _, arranged⟩
    · obtain ⟨-, rfl⟩ := demand_eq_error_iff.mp found
      exact ⟨by decide, by decide⟩
    rcases bind_eq_error_iff.mp arranged with found | ⟨stderr, _, arranged⟩
    · obtain ⟨-, rfl⟩ := demand_eq_error_iff.mp found
      exact ⟨by decide, by decide⟩
    rcases bind_eq_error_iff.mp arranged with refused | ⟨_, _, arranged⟩
    · obtain ⟨text, -, rfl⟩ := mapError_eq_error_iff.mp refused
      rw [List.append_assoc, List.append_assoc]
      exact proper_append _ (by decide) (by decide)
    · cases arranged
  · rcases bind_eq_error_iff.mp confined with refused | ⟨_, _, confined⟩
    · obtain ⟨text, -, rfl⟩ := mapError_eq_error_iff.mp refused
      exact proper_append _ (by decide) (by decide)
    rcases bind_eq_error_iff.mp confined with refused | ⟨ruleset, _, confined⟩
    · obtain ⟨error, -, rfl⟩ := mapError_eq_error_iff.mp refused
      exact proper_append _ (by decide) (by decide)
    rcases bind_eq_error_iff.mp confined with refused | ⟨filter, _, confined⟩
    · obtain ⟨error, -, rfl⟩ := mapError_eq_error_iff.mp refused
      exact proper_append _ (by decide) (by decide)
    · cases confined

/-! ## What the command can do -/

/-- The process is confined as the tier has it, beneath the place. -/
structure Confined (host : Host files δ) (tier : PermissionTier)
    (place : List Str) (process : Process δ) : Prop where
  dir : process.dir = render place
  noNewPrivs : process.noNewPrivs = true
  closed : ∀ fd : Fd, 2 < fd.val → host.closing.Reaches fd →
    process.descriptors fd = none
  calls : tier ≠ .dangerFullAccess → ∀ call, process.Calls call →
    Granted tier call
  access : tier ≠ .dangerFullAccess → ∀ right at_,
    process.MayAccess right at_ →
      MayUse host.landlock tier (render place) right at_

theorem install_ok {tier : PermissionTier} {filter : Option FilterSpec}
    (installed : host.install tier = .ok filter)
    (filtered : tier ≠ .dangerFullAccess) :
    filter = some (buildJsonSpec tier) := by
  rw [install, if_neg filtered] at installed
  obtain ⟨_, _, installed⟩ := bind_eq_ok_iff.mp installed
  exact (Except.ok.inj installed).symm

theorem apply_ok {land : LandlockHost} {tier : PermissionTier} {workdir : Str}
    {ruleset : Option Ruleset}
    (applied : Sandbox.apply land tier workdir = .ok ruleset)
    (filtered : tier ≠ .dangerFullAccess) :
    ∃ inForce, ruleset = some inForce := by
  rw [Sandbox.apply, if_neg filtered] at applied
  obtain ⟨_, _, applied⟩ := bind_eq_ok_iff.mp applied
  obtain ⟨_, _, applied⟩ := bind_eq_ok_iff.mp applied
  obtain ⟨_, _, applied⟩ := bind_eq_ok_iff.mp applied
  obtain ⟨_, _, applied⟩ := bind_eq_ok_iff.mp applied
  obtain ⟨_, _, applied⟩ := bind_eq_ok_iff.mp applied
  obtain ⟨_, _, applied⟩ := bind_eq_ok_iff.mp applied
  obtain ⟨_, _, applied⟩ := bind_eq_ok_iff.mp applied
  obtain ⟨_, _, applied⟩ := bind_eq_ok_iff.mp applied
  obtain ⟨_, _, applied⟩ := bind_eq_ok_iff.mp applied
  obtain ⟨_, _, applied⟩ := bind_eq_ok_iff.mp applied
  exact ⟨_, (Except.ok.inj applied).symm⟩

/-- What is arranged before the confinement. -/
theorem arrange_ok {workdir : Str} {process : Process δ}
    (arranged : host.arrange workdir = .ok process) :
    process.dir = workdir ∧ process.domains = host.forked.domains ∧
      process.filters = host.forked.filters ∧
      ∃ table, process.descriptors =
        closeInheritedFds host.closing host.execErr table := by
  obtain ⟨stdout, _, arranged⟩ := bind_eq_ok_iff.mp arranged
  obtain ⟨stderr, _, arranged⟩ := bind_eq_ok_iff.mp arranged
  obtain ⟨_, _, arranged⟩ := bind_eq_ok_iff.mp arranged
  obtain rfl := Except.ok.inj arranged
  have kept : (host.forked.redirect 0 host.devNull).domains =
        host.forked.domains ∧
      (host.forked.redirect 0 host.devNull).filters = host.forked.filters := by
    cases host.devNull <;> exact ⟨rfl, rfl⟩
  exact ⟨rfl, kept.1, kept.2, _, rfl⟩

theorem confined_of_setup {process : Process δ} {place : List Str}
    (ready : host.setup plan = .ok process)
    (there : plan.workdir = render place) :
    Confined host plan.tier place (process.close host.execErr) := by
  obtain ⟨arranged, before, ready⟩ := bind_eq_ok_iff.mp ready
  obtain ⟨dir, domains, filters, table, descriptors⟩ := arrange_ok before
  obtain ⟨_, _, ready⟩ := bind_eq_ok_iff.mp ready
  obtain ⟨ruleset, applied, ready⟩ := bind_eq_ok_iff.mp ready
  obtain ⟨filter, installed, ready⟩ := bind_eq_ok_iff.mp ready
  obtain rfl := Except.ok.inj ready
  have applied := mapError_eq_ok_iff.mp applied
  have installed := mapError_eq_ok_iff.mp installed
  constructor
  · exact dir.trans there
  · rfl
  · intro fd above reached
    change (if fd = host.execErr then none else arranged.descriptors fd) = none
    split_ifs with own
    · rfl
    · rw [descriptors, closeInheritedFds_apply]
      exact if_pos ⟨reached, above, own⟩
  · intro filtered call passes
    obtain rfl := install_ok installed filtered
    apply (permits_iff plan.tier call).mp
    rw [permits_of_ne filtered]
    exact passes _ (List.mem_append_right _ (List.mem_singleton.mpr rfl))
  · intro filtered right at_ granted
    obtain ⟨inForce, rfl⟩ := apply_ok applied filtered
    rw [← there]
    apply (permits_inForce applied right at_).mp
    exact granted inForce (List.mem_append_right _ (List.mem_singleton.mpr rfl))

end Host

/-! ## What the code of the exit says -/

theorem clampCode_ofNat (code : UInt8) :
    clampCode (Int32.ofNat code.toNat) = code := by
  have all : ∀ code : Fin 256,
      clampCode (Int32.ofNat code.val) = UInt8.ofNat code.val := by
    decide +kernel
  exact (all ⟨code.toNat, code.toNat_lt⟩).trans UInt8.ofNat_toNat

theorem status_of_clampCode {status : WaitStatus}
    (zero : clampCode (exitOf status).1 = 0) :
    status = .exited 0 ∨ ∃ debug, status = .other debug := by
  cases status with
  | exited code => exact .inl (congrArg _ ((clampCode_ofNat code).symm.trans zero))
  | signaled signal =>
      have all : ∀ signal : Signal,
          clampCode (128 + Int32.ofNat signal.val) ≠ 0 := by decide
      exact absurd zero (all signal)
  | other debug => exact .inr ⟨debug, rfl⟩

namespace Host

theorem answer_of_relay {answer : Except Str WaitStatus}
    (zero : relay answer = 0) : answer = .ok (.exited 0) := by
  rcases answer with text | code | signal | debug
  · exact absurd zero (by decide : ¬(72 : UInt8) = 0)
  · exact congrArg (fun code => Except.ok (WaitStatus.exited code)) zero
  · have all : ∀ signal : Signal, 128 + UInt8.ofNat signal.val ≠ 0 := by decide
    exact absurd zero (all signal)
  · exact absurd zero (by decide : ¬(72 : UInt8) = 0)

/-- The middle child exits with zero only if the command did. -/
theorem execed_of_middleStatus {host : Host files δ} {plan : Plan}
    (zero : host.middleStatus plan = .exited 0) :
    ∃ process, host.setup plan = .ok process ∧
      host.command (process.close host.execErr) plan.argv plan.env =
        .exited 0 := by
  unfold middleStatus at zero
  cases first : host.middle with
  | error failure =>
      rw [first] at zero
      exact absurd (WaitStatus.exited.inj zero) (proper_of_middle first).nonzero
  | ok done =>
      rw [first] at zero
      have answer := answer_of_relay (WaitStatus.exited.inj zero)
      have ended := host.grandReaper.truthful answer
      unfold runGrandchild at ended
      cases ready : host.setup plan with
      | error failure =>
          rw [ready] at ended
          exact absurd (WaitStatus.exited.inj ended)
            (proper_of_setup ready).nonzero
      | ok process =>
          rw [ready] at ended
          cases refused : host.execvpe process plan.argv plan.env with
          | some errno =>
              simp only [refused] at ended
              exact absurd (WaitStatus.exited.inj ended) (by decide)
          | none =>
              simp only [refused] at ended
              exact ⟨process, rfl, ended⟩

theorem plan_ok {host : Host files δ} {command : List Str} {root : Str}
    {tier : PermissionTier} {plan : Plan}
    (planned : host.plan command root tier = .ok plan) :
    plan.tier = tier ∧ plan.argv = command ∧
      ∃ place, host.Resolves root place ∧ plan.workdir = render place ∧
        plan.env = buildSanitizedEnv host.vars
          (join (render place) ".agentguard-tmp".toList) := by
  unfold Host.plan at planned
  split_ifs at planned
  · obtain ⟨workdir, validated, planned⟩ := bind_eq_ok_iff.mp planned
    obtain rfl := Except.ok.inj planned
    obtain ⟨_, place, _, resolves, _, rfl⟩ :=
      (Surroundings.validateWorkdir_iff _ _ _ _).mp validated
    exact ⟨rfl, rfl, place, resolves, rfl, rfl⟩
  · obtain ⟨_, _, planned⟩ := bind_eq_ok_iff.mp planned
    cases planned

theorem collect_ok [UnicodeTables] {host : Host files δ} {command : List Str}
    {plan : Plan} {result : SandboxResult}
    (collected : host.collect command plan = .ok result) :
    ∃ status setupErr, host.middleReaper.reap (host.middleStatus plan) =
        .ok status ∧
      readSetupError (host.execErrAnswers (host.reported plan)) =
        .ok setupErr ∧
      (result.exitCode, result.violations) =
        summarize status setupErr command := by
  obtain ⟨_, _, collected⟩ := bind_eq_ok_iff.mp collected
  obtain ⟨_, _, collected⟩ := bind_eq_ok_iff.mp collected
  obtain ⟨setupErr, read, collected⟩ := bind_eq_ok_iff.mp collected
  obtain ⟨status, waited, collected⟩ := bind_eq_ok_iff.mp collected
  obtain rfl := Except.ok.inj collected
  exact ⟨status, setupErr, mapError_eq_ok_iff.mp waited, read, rfl⟩

theorem runLinux_ok [UnicodeTables] {host : Host files δ} {command : List Str}
    {root : Str} {tier : PermissionTier} {result : SandboxResult}
    (done : host.runLinux command root tier = .ok result) :
    ∃ plan, host.plan command root tier = .ok plan ∧
      host.collect command plan = .ok result := by
  obtain ⟨plan, planned, done⟩ := bind_eq_ok_iff.mp done
  obtain ⟨_, _, done⟩ := bind_eq_ok_iff.mp done
  obtain ⟨_, _, done⟩ := bind_eq_ok_iff.mp done
  exact ⟨plan, planned, done⟩

end Host

/-- The command of the arguments ran to its end without an error, confined for
the tier that they name, beneath the root that they name. -/
structure Ran [UnicodeTables] (host : Host files δ) (args : SandboxArgs)
    (tier : PermissionTier) (place : List Str) (process : Process δ) : Prop where
  parsed : parseTier args.tier = .ok tier
  informed : tier = .dangerFullAccess → args.iKnowWhatImDoing = true
  rooted : ∃ root, host.rootFor args = .ok root ∧ host.Resolves root place
  confined : host.Confined tier place process
  ended : host.command process args.command
    (buildSanitizedEnv host.vars
      (join (render place) ".agentguard-tmp".toList)) = .exited 0

/-- The program reports success only for a command that ran confined; a status
that `waitpid` has no business to answer is the one exception. -/
theorem ran_of_runSandbox [UnicodeTables] (host : Host files δ)
    (args : SandboxArgs) (success : (host.runSandbox args).code = 0) :
    (∃ tier place process, Ran host args tier place process) ∨
      ∃ root tier plan debug, host.plan args.command root tier = .ok plan ∧
        host.middleReaper.reap (host.middleStatus plan) =
          .ok (.other debug) := by
  unfold Host.runSandbox at success
  cases parsed : parseTier args.tier with
  | error text =>
      rw [parsed] at success
      exact absurd success (by decide : ¬(2 : UInt8) = 0)
  | ok tier =>
      simp only [parsed] at success
      split_ifs at success with uninformed
      · exact absurd success (by decide : ¬(2 : UInt8) = 0)
      cases rooted : host.rootFor args with
      | error text =>
          rw [rooted] at success
          exact absurd success (by decide : ¬(2 : UInt8) = 0)
      | ok root =>
          simp only [rooted] at success
          cases done : host.runLinux args.command root tier with
          | error error =>
              rw [done] at success
              exact absurd success (by decide : ¬(70 : UInt8) = 0)
          | ok result =>
              rw [done] at success
              obtain ⟨plan, planned, collected⟩ := Host.runLinux_ok done
              obtain ⟨status, setupErr, waited, _, summary⟩ :=
                Host.collect_ok collected
              have code : result.exitCode = (exitOf status).1 :=
                congrArg Prod.fst summary
              have zero : clampCode (exitOf status).1 = 0 := code ▸ success
              rcases status_of_clampCode zero with rfl | ⟨debug, rfl⟩
              · obtain ⟨process, ready, ended⟩ :=
                  Host.execed_of_middleStatus (host.middleReaper.truthful waited)
                obtain ⟨rfl, argv, place, resolves, workdir, env⟩ :=
                  Host.plan_ok planned
                refine .inl ⟨plan.tier, place, _, parsed, ?_,
                  ⟨root, rooted, resolves⟩,
                  Host.confined_of_setup ready workdir, ?_⟩
                · intro danger
                  exact eq_true_of_ne_false fun no => uninformed ⟨danger, no⟩
                · rw [← argv, ← env]
                  exact ended
              · exact .inr ⟨root, tier, plan, debug, planned, waited⟩

def honestReaper : Reaper where
  reap := .ok
  truthful same := Except.ok.inj same

def emptyFiles : FileSystem where
  node _ := .directory
  root := rfl

/-- A host with everything that the sandbox needs. -/
def capableHost : Host emptyFiles Unit where
  currentDir := .error (.other [])
  ioText _ := []
  vars := []
  pipe := .ok ()
  fork := .ok ()
  unshare := .ok ()
  openProcSelf _ := .ok ()
  writeProcSelf _ _ := .ok ()
  uid := 1000
  gid := 1000
  innerFork := .ok ()
  forked := ⟨fun _ => some (), [], false, [], []⟩
  devNull := some ()
  dupStdout := some ()
  dupStderr := some ()
  chdir _ := .ok ()
  execErr := ⟨9, by decide⟩
  closing := ⟨none, none⟩
  setNoNewPrivs := .ok ()
  landlock :=
    { env := fun _ => none
      openPath := fun _ => .ok []
      openCreated := fun _ => .ok []
      handleAccess := .ok ()
      create := .ok ()
      addRule := fun _ => .ok ()
      restrictSelf := .ok ⟨.fullyEnforced, true, .available⟩ }
  applyFilter _ := .ok ()
  execvpe _ _ _ := none
  command _ _ _ := .exited 0
  grandReaper := honestReaper
  middleReaper := honestReaper
  stdout := []
  stderr := []
  execErrAnswers bytes := if bytes = [] then [] else [.data bytes]
  durationMs := 0

def buildArgs : SandboxArgs :=
  ⟨"workspace_write".toList, some ['/'], false, ["make".toList]⟩

theorem canonicalize_capableHost :
    capableHost.canonicalize ['/'] = .ok ['/'] := by
  have walked : run emptyFiles ['/'] ⟨0, [], [.root]⟩ = .ok [] := by
    rw [run_cons]
    exact run_nil
  change (run emptyFiles ['/'] ⟨0, [], [.root]⟩ >>= fun names =>
    .ok (render names)) = _
  rw [walked]
  rfl

theorem plan_capableHost (tier : PermissionTier) :
    capableHost.plan ["make".toList] ['/'] tier =
      .ok ⟨tier, ['/'], ["make".toList],
        ["TMPDIR=/.agentguard-tmp".toList]⟩ := by
  have validated : capableHost.validateWorkdir ['/'] ['/'] = .ok ['/'] := by
    rw [Surroundings.validateWorkdir, Surroundings.canonicalizeNamed,
      Surroundings.canonicalizeNamed, canonicalize_capableHost]
    decide +kernel
  rw [Host.plan, if_neg (List.cons_ne_nil _ _), validated]
  cases tier <;> decide +kernel

theorem runLinux_capableHost (tier : PermissionTier) :
    @Host.runLinux emptyFiles Unit plainTables capableHost ["make".toList] ['/']
      tier = .ok ⟨0, [], [], 0, []⟩ := by
  unfold Host.runLinux
  rw [plan_capableHost]
  cases tier <;> decide +kernel

theorem ran_of_runSandbox_build :
    (∃ tier place process,
      @Ran emptyFiles Unit plainTables capableHost buildArgs tier place process) ∨
      ∃ root tier plan debug,
        capableHost.plan buildArgs.command root tier = .ok plan ∧
        capableHost.middleReaper.reap (capableHost.middleStatus plan) =
          .ok (.other debug) :=
  @ran_of_runSandbox emptyFiles Unit plainTables capableHost buildArgs
    (congrArg (fun ended => (finish [] ended).code)
      (runLinux_capableHost .workspaceWrite))

/-! ## What the parent is told -/

namespace Host

/-- Why the command did not run, if it did not. -/
def setupEnd (host : Host files δ) (plan : Plan) : Option SetupError :=
  let told (failure : Failure) : SetupError :=
    .message (fromUtf8Lossy (reportSetupError failure.report))
  match host.middle with
  | .error failure => some (told failure)
  | .ok () =>
      match host.runGrandchild plan with
      | .failed failure => some (told failure)
      | .notExeced errno => some (.execErrno errno)
      | .execed _ => none

theorem parseSetupError_reported (host : Host files δ) (plan : Plan) :
    parseSetupError (host.reported plan) = host.setupEnd plan := by
  unfold reported setupEnd
  cases first : host.middle with
  | error failure =>
      exact parseSetupError_reportSetupError (proper_of_middle first).long
  | ok done =>
      unfold runGrandchild
      cases ready : host.setup plan with
      | error failure =>
          exact parseSetupError_reportSetupError (proper_of_setup ready).long
      | ok process =>
          cases refused : host.execvpe process plan.argv plan.env with
          | none => simp only [refused, parseSetupError]
          | some errno =>
              simp only [refused]
              exact fromLeBytes_toLeBytes errno

end Host

/-- With a pipe that keeps its bytes, the caller is told how the run ended: the
reason why there was no command, and nothing of the kind if there was one. -/
theorem violations_of_runLinux [UnicodeTables] (host : Host files δ)
    (command : List Str) (root : Str) (tier : PermissionTier)
    (result : SandboxResult)
    (keeps : ∀ bytes, received (host.execErrAnswers bytes) = .ok bytes)
    (done : host.runLinux command root tier = .ok result) :
    ∃ plan status, host.plan command root tier = .ok plan ∧
      host.middleReaper.reap (host.middleStatus plan) = .ok status ∧
      result.exitCode = (exitOf status).1 ∧
      result.violations =
        ((host.setupEnd plan).map
          (setupViolation (command.headD "?".toList))).toList ++
            (exitOf status).2 := by
  obtain ⟨plan, planned, collected⟩ := Host.runLinux_ok done
  obtain ⟨status, setupErr, waited, read, summary⟩ := Host.collect_ok collected
  have told : setupErr = host.setupEnd plan := by
    rw [readSetupError, keeps] at read
    exact (Except.ok.inj read).symm.trans (host.parseSetupError_reported plan)
  exact ⟨plan, status, planned, waited, congrArg Prod.fst summary,
    told ▸ congrArg Prod.snd summary⟩

theorem violations_of_runLinux_make :
    ∃ plan status,
      capableHost.plan ["make".toList] ['/'] .readOnly = .ok plan ∧
        capableHost.middleReaper.reap (capableHost.middleStatus plan) =
          .ok status ∧
        (0 : Int32) = (exitOf status).1 ∧
        ([] : List Str) =
          ((capableHost.setupEnd plan).map
            (@setupViolation plainTables "make".toList)).toList ++
              (exitOf status).2 :=
  @violations_of_runLinux emptyFiles Unit plainTables capableHost
    ["make".toList] ['/'] .readOnly ⟨0, [], [], 0, []⟩
    (by
      rintro (_ | ⟨byte, bytes⟩)
      · rfl
      · simp [capableHost, received, Except.map])
    (runLinux_capableHost .readOnly)

end

end TrustLayer.AgentGuard.Sandbox
