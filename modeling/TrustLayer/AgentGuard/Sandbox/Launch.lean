import TrustLayer.AgentGuard.Sandbox.Runner
import TrustLayer.AgentGuard.Sandbox.Streams

/-!
# A sandboxed run

Three processes take part.  The parent reads the pipes and waits for the middle
child, the middle child enters new namespaces and waits for the grandchild, and
the grandchild confines itself and becomes the command.  An error ends the
process it occurs in with a code of its own.
-/

namespace TrustLayer.AgentGuard.Sandbox

open TrustLayer.Library
open TrustLayer.Library.Pathname
open TrustLayer.AgentGuard.Pathsafe

/-! ## Processes -/

/-- What of a process decides what the command can do. -/
structure Process (δ : Type) where
  descriptors : Fd → Option δ
  dir : Str
  noNewPrivs : Bool
  /-- The rulesets in force; each of them can only take rights away. -/
  domains : List Ruleset
  /-- The filters in force; a call has to pass every one. -/
  filters : List FilterSpec

namespace Process

variable {δ : Type}

def redirect (process : Process δ) (fd : Fd) (target : Option δ) : Process δ :=
  match target with
  | none => process
  | some target =>
      { process with
        descriptors := fun other =>
          if other = fd then some target else process.descriptors other }

/-- The exec closes what is marked `CLOEXEC`. -/
def close (process : Process δ) (fd : Fd) : Process δ :=
  { process with
    descriptors := fun other =>
      if other = fd then none else process.descriptors other }

/-- The kernel lets the call through. -/
def Calls (process : Process δ) (call : Syscall) : Prop :=
  ∀ filter ∈ process.filters, filter.permits call = true

/-- The kernel grants the right at the place. -/
def MayAccess (process : Process δ) (right : AccessFs) (place : List Str) :
    Prop :=
  ∀ ruleset ∈ process.domains, ruleset.Permits right place

end Process

/-- `Signal`, by its number. -/
abbrev Signal := Fin 32

inductive WaitStatus where
  | exited (code : UInt8)
  | signaled (signal : Signal)
  | other (debug : Str)
  deriving DecidableEq

/-- What `waitpid` answers for a process that ends in some way. -/
structure Reaper where
  reap : WaitStatus → Except Str WaitStatus
  /-- A code is one that the process exited with. -/
  truthful : ∀ {ended code}, reap ended = .ok (.exited code) →
    ended = .exited code

/-! ## The host -/

/-- The answers that the three processes get. -/
structure Host (files : FileSystem) (δ : Type) extends Surroundings files where
  vars : List (Option Str × Option Str)
  pipe : Except Str Unit
  fork : Except Str Unit
  unshare : Except Str Unit
  openProcSelf : (path : Str) → Except Str Unit
  writeProcSelf : (path contents : Str) → Except Str Unit
  uid : Nat
  gid : Nat
  innerFork : Except Str Unit
  /-- The process after the forks. -/
  forked : Process δ
  /-- `/dev/null`, if it can be opened and put on `stdin`. -/
  devNull : Option δ
  dupStdout : Option δ
  dupStderr : Option δ
  chdir : Str → Except Str Unit
  /-- The end of the exec-error pipe that is written to. -/
  execErr : Fd
  closing : CloseHost
  setNoNewPrivs : Except Str Unit
  landlock : LandlockHost
  /-- `compile_from_json` and `apply_filter`. -/
  applyFilter : FilterSpec → Except Str Unit
  /-- The error of the exec, if it fails. -/
  execvpe : Process δ → (argv env : List Str) → Option Int32
  /-- How the command ends. -/
  command : Process δ → (argv env : List Str) → WaitStatus
  grandReaper : Reaper
  middleReaper : Reaper
  stdout : List ReadAnswer
  stderr : List ReadAnswer
  /-- What the parent reads, for what was written to the pipe. -/
  execErrAnswers : List UInt8 → List ReadAnswer
  durationMs : UInt64

section

variable {files : FileSystem} {δ : Type}

/-! ## The middle child -/

/-- The code that a process exits with, and the report for the parent. -/
structure Failure where
  code : UInt8
  report : Str
  deriving DecidableEq

def demand {α : Type} (found : Option α) (failure : Failure) :
    Except Failure α :=
  found.elim (.error failure) .ok

namespace Host

variable (host : Host files δ)

def writeProc (name contents : Str) : Except SandboxError Unit := do
  let path := "/proc/self/".toList ++ name
  (host.openProcSelf path).mapError fun text =>
    .namespace_ ("open ".toList ++ path ++ ": ".toList ++ text)
  (host.writeProcSelf path contents).mapError fun text =>
    .namespace_ ("write ".toList ++ path ++ ": ".toList ++ text)

def unshareHint : Str :=
  (". Hint: requires unprivileged user namespaces " ++
    "(sysctl kernel.unprivileged_userns_clone=1, " ++
    "user.max_user_namespaces > 0).").toList

def enterIsolatedNamespaces : Except SandboxError Unit := do
  host.unshare.mapError fun text => .namespace_
    ("unshare(CLONE_NEWUSER|CLONE_NEWNS|CLONE_NEWPID) failed: ".toList ++ text ++
      unshareHint)
  host.writeProc "setgroups".toList "deny".toList
  host.writeProc "uid_map".toList
    ("0 ".toList ++ Nat.toDigits 10 host.uid ++ " 1".toList)
  host.writeProc "gid_map".toList
    ("0 ".toList ++ Nat.toDigits 10 host.gid ++ " 1".toList)

/-- What the middle child does before the second fork. -/
def middle : Except Failure Unit := do
  host.enterIsolatedNamespaces.mapError fun error =>
    ⟨70, "namespace: ".toList ++ error.display⟩
  host.innerFork.mapError fun text => ⟨71, "inner fork: ".toList ++ text⟩

/-! ## The grandchild -/

/-- `SeccompProfile::install`. -/
def install (tier : PermissionTier) : Except SandboxError (Option FilterSpec) :=
  if tier = .dangerFullAccess then .ok none
  else do
    (host.applyFilter (buildJsonSpec tier)).mapError .seccomp
    return some (buildJsonSpec tier)

/-- The descriptors and the directory of the command. -/
def arrange (workdir : Str) : Except Failure (Process δ) := do
  let process := host.forked.redirect 0 host.devNull
  let stdout ← demand host.dupStdout ⟨80, "dup2 stdout".toList⟩
  let process := process.redirect 1 (some stdout)
  let stderr ← demand host.dupStderr ⟨81, "dup2 stderr".toList⟩
  let process := process.redirect 2 (some stderr)
  (host.chdir workdir).mapError fun text =>
    ⟨82, "chdir(".toList ++ workdir ++ "): ".toList ++ text⟩
  return { process with
    dir := workdir
    descriptors := closeInheritedFds host.closing host.execErr
      process.descriptors }

/-- The pinned order of the installation. -/
def confine (tier : PermissionTier) (workdir : Str) (process : Process δ) :
    Except Failure (Process δ) := do
  host.setNoNewPrivs.mapError fun text =>
    ⟨84, "prctl(PR_SET_NO_NEW_PRIVS): ".toList ++ text⟩
  let ruleset ← (apply host.landlock tier workdir).mapError fun error =>
    ⟨85, "landlock: ".toList ++ error.display⟩
  let filter ← (host.install tier).mapError fun error =>
    ⟨86, "seccomp: ".toList ++ error.display⟩
  return { process with
    noNewPrivs := true
    domains := process.domains ++ ruleset.toList
    filters := process.filters ++ filter.toList }

end Host

/-- How the grandchild ends, or what it becomes. -/
inductive Ended (δ : Type) where
  | failed (failure : Failure)
  | notExeced (errno : Int32)
  | execed (process : Process δ)

/-- What the parent hands on to the forks. -/
structure Plan where
  tier : PermissionTier
  workdir : Str
  argv : List Str
  env : List Str
  deriving DecidableEq

namespace Host

variable (host : Host files δ) (plan : Plan)

def setup : Except Failure (Process δ) := do
  host.confine plan.tier plan.workdir (← host.arrange plan.workdir)

def runGrandchild : Ended δ :=
  match host.setup plan with
  | .error failure => .failed failure
  | .ok process =>
      match host.execvpe process plan.argv plan.env with
      | some errno => .notExeced errno
      | none => .execed (process.close host.execErr)

/-- How the grandchild ends in the end. -/
def grandStatus : Ended δ → WaitStatus
  | .failed failure => .exited failure.code
  | .notExeced _ => .exited 126
  | .execed process => host.command process plan.argv plan.env

/-- The middle child exits with the code of the grandchild. -/
def relay : Except Str WaitStatus → UInt8
  | .ok (.exited code) => code
  | .ok (.signaled signal) => 128 + UInt8.ofNat signal.val
  | _ => 72

def middleStatus : WaitStatus :=
  match host.middle with
  | .error failure => .exited failure.code
  | .ok () =>
      .exited (relay (host.grandReaper.reap
        (host.grandStatus plan (host.runGrandchild plan))))

/-- What the children write to the exec-error pipe. -/
def reported : List UInt8 :=
  match host.middle with
  | .error failure => reportSetupError failure.report
  | .ok () =>
      match host.runGrandchild plan with
      | .failed failure => reportSetupError failure.report
      | .notExeced errno => toLeBytes errno
      | .execed _ => []

end Host

/-! ## The parent -/

def signalNames : List Str := names
  ["SIGHUP", "SIGINT", "SIGQUIT", "SIGILL", "SIGTRAP", "SIGABRT", "SIGBUS",
    "SIGFPE", "SIGKILL", "SIGUSR1", "SIGSEGV", "SIGUSR2", "SIGPIPE", "SIGALRM",
    "SIGTERM", "SIGSTKFLT", "SIGCHLD", "SIGCONT", "SIGSTOP", "SIGTSTP",
    "SIGTTIN", "SIGTTOU", "SIGURG", "SIGXCPU", "SIGXFSZ", "SIGVTALRM",
    "SIGPROF", "SIGWINCH", "SIGIO", "SIGPWR", "SIGSYS"]

def signalName (signal : Signal) : Str :=
  signalNames.getD (signal.val - 1) []

section

variable [UnicodeTables]

def setupViolation (command : Str) : SetupError → Str
  | .execErrno errno =>
      "execve_failed(errno=".toList ++ (toString errno.toInt).toList ++
        ", command=".toList ++ debugStr command ++ ")".toList
  | .message text => "setup_failed(".toList ++ text ++ ")".toList

def exitOf : WaitStatus → Int32 × List Str
  | .exited code => (Int32.ofNat code.toNat, [])
  | .signaled signal =>
      (128 + Int32.ofNat signal.val,
        ["killed_by_signal(".toList ++ signalName signal ++ ")".toList])
  | .other debug =>
      (-1, ["unexpected_wait_status(".toList ++ debug ++ ")".toList])

def summarize (status : WaitStatus) (setupErr : Option SetupError)
    (command : List Str) : Int32 × List Str :=
  let cmd := command.headD "?".toList
  let (exitCode, notes) := exitOf status
  (exitCode, (setupErr.map (setupViolation cmd)).toList ++ notes)

namespace Host

variable (host : Host files δ)

def plan (command : List Str) (workspaceRoot : Str) (tier : PermissionTier) :
    Except SandboxError Plan :=
  if command = [] then
    .error (.workdir "command must have at least one argv".toList)
  else do
    let workdir ← host.validateWorkdir workspaceRoot workspaceRoot
    if command.all (fun arg => (cString arg).isSome) then
      let tmp := join workdir ".agentguard-tmp".toList
      return { tier, workdir, argv := command
               env := buildSanitizedEnv host.vars tmp }
    else .error (.workdir "argv contains an interior NUL byte".toList)

/-- The parent, behind the fork. -/
def collect (command : List Str) (plan : Plan) :
    Except SandboxError SandboxResult := do
  let stdout ← readBounded maxOutputBytes host.stdout
  let stderr ← readBounded maxOutputBytes host.stderr
  let setupErr ← readSetupError (host.execErrAnswers (host.reported plan))
  let status ← (host.middleReaper.reap (host.middleStatus plan)).mapError .runner
  let (exitCode, violations) := summarize status setupErr command
  return { exitCode, stdout, stderr, durationMs := host.durationMs, violations }

def runLinux (command : List Str) (workspaceRoot : Str)
    (tier : PermissionTier) : Except SandboxError SandboxResult := do
  let plan ← host.plan command workspaceRoot tier
  host.pipe.mapError .runner
  host.fork.mapError .runner
  host.collect command plan

end Host

/-! ## The command line -/

structure SandboxArgs where
  tier : Str
  workspaceRoot : Option Str
  iKnowWhatImDoing : Bool
  command : List Str
  deriving DecidableEq

/-- What the program prints, and the code it exits with. -/
structure Exit where
  stdout : Str
  stderr : Str
  code : UInt8
  deriving DecidableEq

/-- `PermissionTier::from_str`. -/
def parseTier (text : Str) : Except Str PermissionTier :=
  if text = "read_only".toList ∨ text = "readonly".toList then .ok .readOnly
  else if text = "workspace_write".toList then .ok .workspaceWrite
  else if text = "danger_full_access".toList ∨ text = "danger".toList then
    .ok .dangerFullAccess
  else .error ("invalid permission tier ".toList ++ debugStr text ++
    " (expected read_only, workspace_write, or danger_full_access)".toList)

/-- `eprintln!`, with the name of the subcommand. -/
def complaint (text : Str) : Str :=
  "apohara-agentguard sandbox: ".toList ++ text ++ ['\n']

def refusal (text : Str) (code : UInt8) : Exit :=
  ⟨[], complaint text, code⟩

def warnDangerFullAccess : Str :=
  ["", "============================================================",
    "  !!!  DANGER_FULL_ACCESS  —  THE SANDBOX IS DISABLED  !!!",
    "============================================================",
    "  This tier installs NO seccomp filter AND NO Landlock",
    "  ruleset. The command runs with your FULL host access:",
    "  it can read, write, and delete ANY file you can, and",
    "  make unrestricted network connections.", "",
    "  There is NO confinement of any kind. Only proceed if you",
    "  fully trust this command.", "",
    "  This invocation is being logged to the audit log",
    "  (if one is configured).",
    "============================================================",
    ""].flatMap fun line => line.toList ++ ['\n']

def warningFor (tier : PermissionTier) : Str :=
  if tier = .dangerFullAccess then warnDangerFullAccess else []

/-- `exit_code.clamp(0, 255) as u8`. -/
def clampCode (code : Int32) : UInt8 :=
  if code < 0 then 0 else if 255 < code then 255
  else UInt8.ofNat code.toNatClampNeg

def finish (warning : Str) : Except SandboxError SandboxResult → Exit
  | .ok result =>
      { stdout := result.stdout
        stderr := warning ++ result.stderr ++ result.violations.flatMap
          fun note => complaint ("violation: ".toList ++ note)
        code := clampCode result.exitCode }
  | .error error =>
      { stdout := []
        stderr := warning ++
          complaint ("REFUSED (fail-closed): ".toList ++ error.display)
        code := 70 }

namespace Host

variable (host : Host files δ)

/-- The workspace root, from the command line or the current directory. -/
def rootFor (args : SandboxArgs) : Except Str Str :=
  match args.workspaceRoot with
  | some root => .ok root
  | none =>
      match host.currentDir with
      | .ok dir => .ok (render dir.names)
      | .error error =>
          .error ("cannot determine current directory: ".toList ++
            host.ioText error)

def runSandbox (args : SandboxArgs) : Exit :=
  match parseTier args.tier with
  | .error text => refusal text 2
  | .ok tier =>
      if tier = .dangerFullAccess ∧ args.iKnowWhatImDoing = false then
        refusal ("refusing danger_full_access without " ++
          "--i-know-what-im-doing (this tier installs NO seccomp filter " ++
          "and NO Landlock ruleset)").toList 2
      else
        match host.rootFor args with
        | .error text => ⟨[], warningFor tier ++ complaint text, 2⟩
        | .ok root =>
            finish (warningFor tier) (host.runLinux args.command root tier)

end Host

end

end

end TrustLayer.AgentGuard.Sandbox
