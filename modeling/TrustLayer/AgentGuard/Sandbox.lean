import TrustLayer.Library.Text

/-!
# The process sandbox

What a command asks of the sandbox, and what comes back.
-/

namespace TrustLayer.AgentGuard.Sandbox

open TrustLayer.Library

/-- The bytes of a string of the operating system. -/
abbrev OsString := List UInt8

inductive PermissionTier where
  | readOnly
  | workspaceWrite
  | dangerFullAccess
  deriving DecidableEq

inductive SandboxError where
  | unavailable
  | namespace_ (detail : Str)
  | seccomp (detail : Str)
  | landlock (detail : Str)
  | workdir (detail : Str)
  | runner (detail : Str)
  deriving DecidableEq

def SandboxError.display : SandboxError → Str
  | .unavailable =>
      ("sandbox unavailable on this platform: " ++
        "refusing to run unconfined").toList
  | .namespace_ detail => "namespace setup failed: ".toList ++ detail
  | .seccomp detail => "seccomp error: ".toList ++ detail
  | .landlock detail => "landlock error: ".toList ++ detail
  | .workdir detail => "workdir validation failed: ".toList ++ detail
  | .runner detail => "runner error: ".toList ++ detail

structure SandboxRequest where
  command : List Str
  workspaceRoot : OsString
  tier : PermissionTier
  timeout : Option Nat
  deriving DecidableEq

structure SandboxResult where
  exitCode : Int32
  stdout : Str
  stderr : Str
  durationMs : UInt64
  violations : List Str
  deriving DecidableEq

/-- `SandboxRunner::run`. -/
abbrev SandboxRunner := SandboxRequest → Except SandboxError SandboxResult

end TrustLayer.AgentGuard.Sandbox
