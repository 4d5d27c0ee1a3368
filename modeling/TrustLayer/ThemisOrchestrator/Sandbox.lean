import TrustLayer.AgentGuard.Policy.Engine
import TrustLayer.AgentGuard.Sandbox
import TrustLayer.Library.Unicode

/-!
# The subprocess sandbox

A command is translated into a request for the runner of the guard, which does
the confinement.  The request is all that the runner sees of the command.
-/

namespace TrustLayer.ThemisOrchestrator

open TrustLayer.Library
open TrustLayer.AgentGuard.Policy (PolicyError)
open TrustLayer.AgentGuard.Sandbox (OsString PermissionTier SandboxRequest
  SandboxResult SandboxRunner)

inductive ThemIsSandboxError where
  | unavailable (detail : Str)
  | policyLoad (error : PolicyError)
  deriving DecidableEq

/-- What `run_sandboxed` reads of a `std::process::Command`. -/
structure Command where
  program : OsString
  args : List OsString
  deriving DecidableEq

structure SubprocessSandboxConfig where
  tier : PermissionTier
  allowedCommands : List Str
  auditLogPath : Option OsString
  workspaceRoot : OsString
  deriving DecidableEq

namespace SubprocessSandboxConfig

def new (workspaceRoot : OsString) : SubprocessSandboxConfig :=
  { tier := .readOnly, allowedCommands := [], auditLogPath := none
    workspaceRoot }

def withTier (config : SubprocessSandboxConfig) (tier : PermissionTier) :
    SubprocessSandboxConfig :=
  { config with tier }

def withAllowedCommands (config : SubprocessSandboxConfig) (cmds : List Str) :
    SubprocessSandboxConfig :=
  { config with allowedCommands := config.allowedCommands ++ cmds }

/-- The builder never takes a command off the list. -/
theorem foldl_withAllowedCommands (config : SubprocessSandboxConfig)
    (calls : List (List Str)) :
    calls.foldl withAllowedCommands config =
      config.withAllowedCommands calls.flatten := by
  induction calls generalizing config with
  | nil => simp [withAllowedCommands]
  | cons cmds calls induction =>
      rw [List.foldl_cons, induction]
      simp [withAllowedCommands]

end SubprocessSandboxConfig

/-- The request into which a command is translated. -/
def sandboxRequest (config : SubprocessSandboxConfig) (cmd : Command) :
    SandboxRequest :=
  let program := fromUtf8Lossy cmd.program
  { command := program :: cmd.args.map fromUtf8Lossy
    workspaceRoot := config.workspaceRoot
    tier := config.tier
    timeout := none }

/-- `run_sandboxed`, with the requests that the runner is handed. -/
def runSandboxed (runner : SandboxRunner) (config : SubprocessSandboxConfig)
    (cmd : Command)
    (body : SandboxResult → Except ThemIsSandboxError SandboxResult) :
    List SandboxRequest × Except ThemIsSandboxError SandboxResult :=
  let request := sandboxRequest config cmd
  match runner request with
  | .error error => ([request], .error (.unavailable error.display))
  | .ok result => ([request], body result)

/-! ## The allow-list -/

/-- The program is one of the allowed commands. -/
def Allowed (config : SubprocessSandboxConfig) (cmd : Command) : Prop :=
  cmd.program ∈ config.allowedCommands.map utf8Bytes

/-- The request has the arguments of the command, byte for byte. -/
def SameArgv (request : SandboxRequest) (cmd : Command) : Prop :=
  request.command.map utf8Bytes = cmd.program :: cmd.args

/-- Nothing but an allowed command reaches the runner, and it unchanged. -/
def Enforces (config : SubprocessSandboxConfig) (cmd : Command) : Prop :=
  ∀ runner body, ∀ request ∈ (runSandboxed runner config cmd body).1,
    Allowed config cmd ∧ SameArgv request cmd

section

variable {config : SubprocessSandboxConfig} {cmd : Command}

/-- Every command reaches the runner. -/
theorem runSandboxed_fst (runner : SandboxRunner)
    (body : SandboxResult → Except ThemIsSandboxError SandboxResult) :
    (runSandboxed runner config cmd body).1 = [sandboxRequest config cmd] := by
  rw [runSandboxed]
  cases runner (sandboxRequest config cmd) <;> rfl

theorem sameArgv_iff :
    SameArgv (sandboxRequest config cmd) cmd ↔
      ∀ part ∈ cmd.program :: cmd.args, ∃ text, utf8Bytes text = part := by
  have kept : SameArgv (sandboxRequest config cmd) cmd ↔
      (cmd.program :: cmd.args).map (fun part =>
        utf8Bytes (fromUtf8Lossy part)) = (cmd.program :: cmd.args).map id := by
    simp [SameArgv, sandboxRequest, Function.comp_def]
  rw [kept, List.map_inj_left]
  exact forall₂_congr fun _ _ => utf8Bytes_fromUtf8Lossy_iff

theorem enforces_iff_handed :
    Enforces config cmd ↔
      Allowed config cmd ∧ SameArgv (sandboxRequest config cmd) cmd := by
  simp only [Enforces, runSandboxed_fst, List.mem_singleton, forall_eq]
  constructor
  · intro enforces
    exact enforces (fun _ => .error .unavailable) .ok
  · intro both _ _
    exact both

/-- The allow-list holds exactly of the commands that are on it and that are
texts. -/
theorem enforces_iff (config : SubprocessSandboxConfig) (cmd : Command) :
    Enforces config cmd ↔
      Allowed config cmd ∧
        ∀ arg ∈ cmd.args, ∃ text, utf8Bytes text = arg := by
  rw [enforces_iff_handed, sameArgv_iff, List.forall_mem_cons]
  refine and_congr_right fun allowed => and_iff_right ?_
  obtain ⟨text, -, isProgram⟩ := List.mem_map.mp allowed
  exact ⟨text, isProgram⟩

end

def listOnly : SubprocessSandboxConfig :=
  (SubprocessSandboxConfig.new (utf8Bytes "/work".toList)).withAllowedCommands
    ["ls".toList]

/-- The command is not on the list, and is handed over. -/
theorem removal_not_enforces :
    ¬ Enforces listOnly
      ⟨utf8Bytes "rm".toList, [utf8Bytes "-rf".toList]⟩ := by
  intro enforces
  have allowed := (enforces_iff_handed.mp enforces).1
  revert allowed
  unfold Allowed
  decide

end TrustLayer.ThemisOrchestrator
